import Mathlib
import ProtocolCodegen.Proofs.Lowering.Forms
import ProtocolCodegen.Proofs.Outline.DeclaredTypes

/-!
# Built types of an outline

Every type in the outline of an analysis that began without composites has a form that its lowerer
builds, and every composite to which a type refers is listed under the name that a type of the
protocol gives it.
-/

namespace ProtocolCodegen

namespace Outline

variable {outline : Outline}

theorem HasType.contains {type : Descriptor} (stands : outline.HasType type) :
    outline.Contains type :=
  ⟨type, stands, .self⟩

theorem Contains.argument {descriptor argument : Descriptor}
    (contains : outline.Contains descriptor) (listed : argument ∈ descriptor.arguments) :
    outline.Contains argument := by
  obtain ⟨type, stands, within⟩ := contains
  exact ⟨type, stands, .trans (.argument listed .self) within⟩

theorem Contains.uses {descriptor : Descriptor} {name : String}
    (contains : outline.Contains descriptor) (refers : descriptor.RefersTo name) :
    outline.Uses name := by
  obtain ⟨type, stands, within⟩ := contains
  have uses : type.Uses name := ⟨descriptor, within, refers⟩
  cases stands with
  | field listed owned typed => exact .field listed owned typed uses
  | target listed typed => exact .target listed typed uses
  | params listed typed => exact .params listed typed uses
  | result listed typed => exact .result listed typed uses
  | composite listed inside => exact .composite listed ⟨type, inside, uses⟩

end Outline

namespace Analyzer

variable {analyzer : Analyzer} {includesMethods : Bool} {events : List Event}

theorem gives_of_mem_composites {entry : String × Composite}
    (listed : entry ∈ (analyzer.analyze includesMethods ⟨[], events⟩).1.composites) :
    ∃ place, analyzer.lowerer.Gives place entry.1 entry.2 := by
  obtain ⟨node, _, place, _, gives⟩ := givesInSteps_of_mem_enrolled analyzer
    ((Text.sortedBy_perm _ _).mem_iff.mp listed)
  exact ⟨place, gives⟩

theorem nodup_composites :
    ((analyzer.analyze includesMethods ⟨[], events⟩).1.composites.map (·.1)).Nodup := by
  obtain ⟨growth, _⟩ :=
    growth_run_steps analyzer.lowerer (analyzer.steps includesMethods) ⟨[], events⟩
  have closed := growth.isClosed (Ledger.isClosed_of_no_composites events)
  exact ((Text.sortedBy_perm _ _).map Prod.fst).nodup_iff.mpr closed.distinct

theorem builds_of_contains {descriptor : Descriptor}
    (contains : (analyzer.analyze includesMethods ⟨[], events⟩).1.Contains descriptor) :
    analyzer.lowerer.Builds descriptor := by
  obtain ⟨type, stands, within⟩ := contains
  have built : analyzer.lowerer.Builds type := by
    rcases lowered_of_hasType stands with ⟨node, _, rfl⟩ | ⟨entry, listed, inside⟩
    · exact analyzer.lowerer.builds_descriptorOf node
    · obtain ⟨node, _, place, _, gives⟩ := givesInSteps_of_mem_enrolled analyzer listed
      exact Lowerer.builds_of_gives gives type inside
  exact built.within within

theorem mem_composites_of_refersTo {descriptor : Descriptor} {name : String}
    (contains : (analyzer.analyze includesMethods ⟨[], events⟩).1.Contains descriptor)
    (refers : descriptor.RefersTo name) :
    name ∈ (analyzer.analyze includesMethods ⟨[], events⟩).1.composites.map (·.1) := by
  have once := analyzer.count_composites_of_uses includesMethods
    (Ledger.isClosed_of_no_composites events) (contains.uses refers)
  exact List.count_pos_iff.mp (by omega)

/-- Where a single type is lowered, the composites are those that it enrols. -/
theorem composites_of_single_step {node : Node}
    (steps : analyzer.steps includesMethods = [.lower (some node)]) {entry : String × Composite}
    (enrolled : (analyzer.lowerer.enroll node ⟨[], []⟩).composites = [entry]) :
    (analyzer.analyze includesMethods ⟨[], []⟩).1.composites = [entry] := by
  have run : analyzer.enrolled includesMethods ⟨[], []⟩ =
      analyzer.lowerer.enroll node ⟨[], []⟩ := by
    rw [Analyzer.enrolled, steps]
    rfl
  have listed : (analyzer.analyze includesMethods ⟨[], []⟩).1.composites =
      Text.sortedBy (·.1) (analyzer.enrolled includesMethods ⟨[], []⟩).composites := rfl
  rw [listed, run, enrolled]
  exact List.mergeSort_singleton _

end Analyzer

namespace LedgerCall

variable {calls : List LedgerCall} {events : List Event} {outline : Outline}
  (answered : .outline outline ∈ ((performAll calls).run ⟨[], events⟩).1)

include answered

/-- A composite in an outline that calls with a shared ledger return is one that the lowerer of one
of them gives its name. -/
theorem exists_gives_of_mem_composites {entry : String × Composite}
    (listed : entry ∈ outline.composites) :
    ∃ lowerer : Lowerer, ∃ place, lowerer.Gives place entry.1 entry.2 := by
  obtain ⟨call, _, moment, growth, given⟩ := exists_moment_of_mem_answers answered
  cases call with
  | lower lowerer node => cases given
  | analyze analyzer includesMethods =>
      cases given
      have further := growth.trans (growth_perform (.analyze analyzer includesMethods) moment)
      have among := (Text.sortedBy_perm _ _).mem_iff.mp listed
      rcases further.mem_composites among with before | ⟨_, ⟨gives, _⟩, _⟩
      · cases before
      · exact gives

/-- Every type in an outline that calls with a shared ledger return was built by the lowerer of one
of them. -/
theorem exists_builds_of_contains {descriptor : Descriptor}
    (contains : outline.Contains descriptor) : ∃ lowerer : Lowerer, lowerer.Builds descriptor := by
  obtain ⟨type, stands, within⟩ := contains
  have defined : ∀ entry ∈ outline.composites, ∃ lowerer : Lowerer, ∃ place,
      lowerer.Gives place entry.1 entry.2 := fun _ => exists_gives_of_mem_composites answered
  obtain ⟨call, _, moment, _, given⟩ := exists_moment_of_mem_answers answered
  cases call with
  | lower lowerer node => cases given
  | analyze analyzer includesMethods =>
      cases given
      rcases Analyzer.lowered_of_hasType stands with ⟨node, _, rfl⟩ | ⟨entry, listed, inside⟩
      · exact ⟨analyzer.lowerer, (analyzer.lowerer.builds_descriptorOf node).within within⟩
      · obtain ⟨lowerer, place, gives⟩ :=
          defined entry ((Text.sortedBy_perm _ _).mem_iff.mpr listed)
        exact ⟨lowerer, (Lowerer.builds_of_gives gives type inside).within within⟩

end LedgerCall

/-- One of some calls with a shared ledger returned the outline, whatever comment it has got since.
-/
def Outline.IsAnalyzed (outline : Outline) : Prop :=
  ∃ calls events analyzed,
    .outline analyzed ∈ ((LedgerCall.performAll calls).run ⟨[], events⟩).1 ∧
      outline = { analyzed with comment := outline.comment }

namespace Outline

variable {outline : Outline}

theorem isAnalyzed_analyze (analyzer : Analyzer) (includesMethods : Bool) (events : List Event) :
    (analyzer.analyze includesMethods ⟨[], events⟩).1.IsAnalyzed :=
  ⟨[.analyze analyzer includesMethods], events, _, List.mem_cons_self, rfl⟩

theorem contains_of_withComment {comment : List String} {descriptor : Descriptor}
    (contains : { outline with comment }.Contains descriptor) : outline.Contains descriptor := by
  obtain ⟨type, stands, within⟩ := contains
  refine ⟨type, ?_, within⟩
  cases stands with
  | field listed owned typed => exact .field listed owned typed
  | target listed typed => exact .target listed typed
  | params listed typed => exact .params listed typed
  | result listed typed => exact .result listed typed
  | composite listed inside => exact .composite listed inside

namespace IsAnalyzed

variable (analyzed : outline.IsAnalyzed)

include analyzed

theorem exists_builds {descriptor : Descriptor} (contains : outline.Contains descriptor) :
    ∃ lowerer : Lowerer, lowerer.Builds descriptor := by
  obtain ⟨calls, events, returned, answered, same⟩ := analyzed
  rw [same] at contains
  exact LedgerCall.exists_builds_of_contains answered (contains_of_withComment contains)

/-- A union with nothing to choose from is lowered to any value, so that it is not listed. -/
theorem variants_ne_nil {key name : String} {variants : List Variant}
    (listed : (key, .union name variants) ∈ outline.composites) : variants ≠ [] := by
  obtain ⟨calls, events, returned, answered, same⟩ := analyzed
  rw [same] at listed
  obtain ⟨lowerer, place, gives⟩ :=
    LedgerCall.exists_gives_of_mem_composites answered listed
  exact Lowerer.variants_ne_nil_of_gives gives

end IsAnalyzed
end Outline
end ProtocolCodegen
