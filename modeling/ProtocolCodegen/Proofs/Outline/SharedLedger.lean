import ProtocolCodegen.Proofs.Lowering.Saturation
import ProtocolCodegen.Proofs.Outline.LoweredTypes

/-!
# Shared ledgers

Any number of lowerers and analyzers, for any protocols and languages, can share one ledger.
Whatever they do in turn, all composites that are used are defined, a definition stays as it is, and
a type that one of them lowers again is lowered to the same descriptor and adds no definition.
-/

namespace ProtocolCodegen

namespace Analyzer

/-- A composite name is given within a type that one of some steps lowers. -/
def GivesInSteps (lowerer : Lowerer) (steps : List AnalysisStep) (name : String)
    (composite : Composite) : Prop :=
  ∃ node, AnalysisStep.lower (some node) ∈ steps ∧
    lowerer.GivesWithin lowerer.entered node name composite

theorem growth_run (lowerer : Lowerer) {steps : List AnalysisStep} {step : AnalysisStep}
    (listed : step ∈ steps) (ledger : Ledger) :
    Ledger.Growth (GivesInSteps lowerer steps) ledger (step.run lowerer ledger) ∧
      ∀ node, step = .lower node →
        (step.run lowerer ledger).Covers (lowerer.descriptorOf node) := by
  cases step with
  | lower node =>
      obtain ⟨growth, covers⟩ := lowerer.growth_enrollOf node ledger
      constructor
      · refine growth.weaken ?_
        rintro name composite ⟨whole, rfl, gives⟩
        exact ⟨whole, listed, gives⟩
      · rintro lowered ⟨⟩
        exact covers
  | unknownParent child parent => exact ⟨.log _ .start, nofun⟩

theorem growth_run_steps (lowerer : Lowerer) (steps : List AnalysisStep) (ledger : Ledger) :
    Ledger.Growth (GivesInSteps lowerer steps) ledger
        (steps.foldl (AnalysisStep.run lowerer) ledger) ∧
      ∀ step ∈ steps, ∀ node, step = .lower node →
        (steps.foldl (AnalysisStep.run lowerer) ledger).Covers (lowerer.descriptorOf node) := by
  apply Ledger.growth_foldl (GivesInSteps lowerer steps) fun ledger (step : AnalysisStep) =>
    ∀ node, step = .lower node → ledger.Covers (lowerer.descriptorOf node)
  · exact fun step grown covers node lowered => (covers node lowered).mono grown
  · exact fun step listed => growth_run lowerer listed

/-- Every definition in the ledger of an analysis that began without any belongs to a type that the
analysis lowers. -/
theorem givesInSteps_of_mem_enrolled (analyzer : Analyzer) {includesMethods : Bool}
    {events : List Event} {entry : String × Composite}
    (listed : entry ∈ (analyzer.enrolled includesMethods ⟨[], events⟩).composites) :
    GivesInSteps analyzer.lowerer (analyzer.steps includesMethods) entry.1 entry.2 := by
  obtain ⟨growth, _⟩ :=
    growth_run_steps analyzer.lowerer (analyzer.steps includesMethods) ⟨[], events⟩
  rcases growth.mem_composites listed with before | ⟨_, ⟨gives, _⟩, _⟩
  · cases before
  · exact gives

/-- An analysis with a closed ledger defines every composite that its outline uses exactly once. -/
theorem count_composites_of_uses (analyzer : Analyzer) (includesMethods : Bool) {ledger : Ledger}
    (closed : ledger.IsClosed) {name : String}
    (uses : (analyzer.analyze includesMethods ledger).1.Uses name) :
    ((analyzer.analyze includesMethods ledger).1.composites.map (·.1)).count name = 1 := by
  obtain ⟨growth, covers⟩ :=
    growth_run_steps analyzer.lowerer (analyzer.steps includesMethods) ledger
  have closed : (analyzer.enrolled includesMethods ledger).IsClosed := growth.isClosed closed
  apply closed.count_sortedComposites
  rcases used_by_lowered uses with ⟨node, step, uses⟩ | ⟨entry, listed, descriptor, inside, uses⟩
  · exact covers _ step node rfl name uses
  · exact closed.covers entry listed descriptor inside name uses

end Analyzer

/-- What lowerers and analyzers do with a ledger that they share. -/
inductive LedgerCall where
  | lower (lowerer : Lowerer) (node : Option Node)
  | analyze (analyzer : Analyzer) (includesMethods : Bool)

/-- What a call returns. -/
inductive LedgerAnswer where
  | descriptor (descriptor : Descriptor)
  | outline (outline : Outline)

namespace LedgerCall

/-- Some lowerer gives a composite name at some type. -/
def Gives (name : String) (composite : Composite) : Prop :=
  ∃ lowerer : Lowerer, ∃ place, lowerer.Gives place name composite

/-- Carries out a call. -/
def perform : LedgerCall → StateM Ledger LedgerAnswer
  | .lower lowerer node => return .descriptor (← lowerer.lower node)
  | .analyze analyzer includesMethods => return .outline (← analyzer.analyze includesMethods)

/-- Carries out calls one after the other. -/
def performAll (calls : List LedgerCall) : StateM Ledger (List LedgerAnswer) :=
  calls.mapM perform

theorem performAll_cons (call : LedgerCall) (rest : List LedgerCall) (ledger : Ledger) :
    (performAll (call :: rest)).run ledger =
      let (answer, middle) := (perform call).run ledger
      let (answers, after) := (performAll rest).run middle
      (answer :: answers, after) := by
  rw [performAll, List.mapM_cons]
  rfl

/-- All that an answer uses is defined: in the ledger for a descriptor, and exactly once among the
composites of its own for an outline. -/
def Settled (ledger : Ledger) : LedgerAnswer → Prop
  | .descriptor descriptor => ledger.Covers descriptor
  | .outline outline =>
      ∀ name, outline.Uses name → (outline.composites.map (·.1)).count name = 1

theorem Settled.mono {before after : Ledger} {answer : LedgerAnswer}
    (settled : Settled before answer) (grown : before.composites <+: after.composites) :
    Settled after answer := by
  cases answer with
  | descriptor descriptor => exact Ledger.Covers.mono settled grown
  | outline outline => exact settled

theorem growth_perform (call : LedgerCall) (ledger : Ledger) :
    Ledger.Growth Gives ledger ((perform call).run ledger).2 := by
  cases call with
  | lower lowerer node =>
      refine (lowerer.growth_enrollOf node ledger).1.weaken ?_
      rintro name composite ⟨whole, _, place, _, gives⟩
      exact ⟨lowerer, place, gives⟩
  | analyze analyzer includesMethods =>
      refine .log _ ((Analyzer.growth_run_steps analyzer.lowerer _ ledger).1.weaken ?_)
      rintro name composite ⟨node, _, place, _, gives⟩
      exact ⟨analyzer.lowerer, place, gives⟩

/-- Whatever calls do to a ledger, it is to register definitions that belong to types. -/
theorem growth_performAll (calls : List LedgerCall) (ledger : Ledger) :
    Ledger.Growth Gives ledger ((performAll calls).run ledger).2 := by
  induction calls generalizing ledger with
  | nil => exact .start
  | cons call rest induction =>
      rw [performAll_cons]
      exact (growth_perform call ledger).trans (induction _)

/-- Every answer is given by one of the calls, in the ledger of a moment. -/
theorem exists_moment_of_mem_answers {calls : List LedgerCall} {ledger : Ledger}
    {answer : LedgerAnswer} (answered : answer ∈ ((performAll calls).run ledger).1) :
    ∃ call ∈ calls, ∃ moment, Ledger.Growth Gives ledger moment ∧
      answer = ((perform call).run moment).1 := by
  induction calls generalizing ledger with
  | nil => cases answered
  | cons first rest induction =>
      rw [performAll_cons] at answered
      rcases List.mem_cons.mp answered with rfl | later
      · exact ⟨first, List.mem_cons_self, ledger, .start, rfl⟩
      · obtain ⟨call, listed, moment, growth, given⟩ := induction later
        exact ⟨call, List.mem_cons_of_mem _ listed, moment,
          (growth_perform first ledger).trans growth, given⟩

theorem perform_settled (call : LedgerCall) {ledger : Ledger} (closed : ledger.IsClosed) :
    Settled ((perform call).run ledger).2 ((perform call).run ledger).1 := by
  cases call with
  | lower lowerer node => exact (lowerer.growth_enrollOf node ledger).2
  | analyze analyzer includesMethods =>
      exact fun name uses => analyzer.count_composites_of_uses includesMethods closed uses

theorem performAll_settled (calls : List LedgerCall) {ledger : Ledger} (closed : ledger.IsClosed) :
    ∀ answer ∈ ((performAll calls).run ledger).1,
      Settled ((performAll calls).run ledger).2 answer := by
  induction calls generalizing ledger with
  | nil =>
      intro answer listed
      cases listed
  | cons call rest induction =>
      have settled := perform_settled call closed
      have settledRest := induction ((growth_perform call ledger).isClosed closed)
      rw [performAll_cons]
      intro answer listed
      rcases List.mem_cons.mp listed with rfl | listed
      · exact settled.mono (growth_performAll rest _).composites_grow
      · exact settledRest answer listed

/-- After any calls that share a ledger, all composites that a returned descriptor or a definition
uses are defined, later calls change no definition and remove none, and every composite that a
returned outline uses is defined in it exactly once. -/
theorem performAll_closed (calls later : List LedgerCall) (events : List Event) :
    let (answers, ledger) := (performAll calls).run ⟨[], events⟩
    let final := ((performAll later).run ledger).2
    (∀ descriptor, .descriptor descriptor ∈ answers → ∀ name, descriptor.Uses name →
      ledger.defines name = true) ∧
    (∀ entry ∈ ledger.composites, ∀ name, entry.2.Uses name → ledger.defines name = true) ∧
    (∀ name composite, ledger.composites.get? name = some composite →
      final.composites.get? name = some composite) ∧
    ∀ outline, .outline outline ∈ answers → ∀ name, outline.Uses name →
      (outline.composites.map (·.1)).count name = 1 := by
  have start := Ledger.isClosed_of_no_composites events
  have settled := performAll_settled calls start
  have closed := (growth_performAll calls _).isClosed start
  have further := growth_performAll later ((performAll calls).run ⟨[], events⟩).2
  refine ⟨?_, ?_, ?_, ?_⟩
  · exact fun descriptor returned => settled (.descriptor descriptor) returned
  · rintro entry listed name ⟨descriptor, inside, uses⟩
    exact closed.covers entry listed descriptor inside name uses
  · exact fun name composite => Dictionary.get?_of_prefix further.composites_grow
  · exact fun outline returned => settled (.outline outline) returned

/-- A type that a lowerer lowered before, in whatever table and whatever calls came in between, is
lowered to the same descriptor again, which is that of an empty table, and the table stays as it
is. -/
theorem lower_again (lowerer : Lowerer) (node : Option Node) (before : Ledger)
    (calls : List LedgerCall) :
    let (first, after) := (lowerer.lower node).run before
    let ledger := ((performAll calls).run after).2
    let (second, final) := (lowerer.lower node).run ledger
    second = first ∧ final.composites = ledger.composites ∧
      first = ((lowerer.lower node).run .empty).1 := by
  have grown := (growth_performAll calls (lowerer.enrollOf node before)).composites_grow
  exact ⟨rfl, Lowerer.composites_enrollOf_again node grown, rfl⟩

end LedgerCall
end ProtocolCodegen
