import Mathlib
import ProtocolCodegen.Proofs.Lowering.Necessity
import ProtocolCodegen.Proofs.Outline.Agreement
import ProtocolCodegen.Proofs.Outline.SharedLedger

/-!
# Outlines of protocols with reordered methods

Methods are lowered in the order of the document and put in order afterwards.  Where their names are
distinct, another order in the document therefore only shows in the definitions of composites, and
only if one composite name is given with two definitions, or if composites are lost with the key of
a map.
-/

namespace ProtocolCodegen

/-! ## Composites to which an outline leads -/

namespace Outline

/-- A type stands in a field, an alias or a method. -/
def Shows (outline : Outline) (type : Descriptor) : Prop :=
  ({ outline with composites := [] } : Outline).HasType type

/-- The composites to which the types of an outline lead through its definitions. -/
inductive Reaches (outline : Outline) : String → Prop where
  | used {type : Descriptor} {name : String} (shows : outline.Shows type)
      (uses : type.Uses name) : Reaches outline name
  | through {middle name : String} {composite : Composite} (reached : Reaches outline middle)
      (defined : (middle, composite) ∈ outline.composites) (uses : composite.Uses name) :
      Reaches outline name

end Outline

namespace AnalysisStep

/-- The descriptors that a step returns. -/
def returned (lowerer : Lowerer) : AnalysisStep → List Descriptor
  | .lower node => [lowerer.descriptorOf node]
  | .unknownParent .. => []

end AnalysisStep

namespace Analyzer

variable {analyzer : Analyzer} {includesMethods : Bool} {events : List Event}

/-- The descriptors of all types that are lowered. -/
def returned (analyzer : Analyzer) (includesMethods : Bool) : List Descriptor :=
  (analyzer.steps includesMethods).flatMap (AnalysisStep.returned analyzer.lowerer)

/-- The definitions that are given to composite names within the types that are lowered. -/
def Gives (analyzer : Analyzer) (includesMethods : Bool) : String → Composite → Prop :=
  GivesInSteps analyzer.lowerer (analyzer.steps includesMethods)

/-- No key of a map gives way to a string where composites are within it. -/
def SparesKeys (analyzer : Analyzer) (includesMethods : Bool) : Prop :=
  ∀ node, AnalysisStep.lower (some node) ∈ analyzer.steps includesMethods →
    analyzer.lowerer.SparesKeys node

theorem mem_returned_iff {descriptor : Descriptor} :
    descriptor ∈ analyzer.returned includesMethods ↔
      ∃ node, AnalysisStep.lower node ∈ analyzer.steps includesMethods ∧
        descriptor = analyzer.lowerer.descriptorOf node := by
  rw [returned, List.mem_flatMap]
  constructor
  · rintro ⟨step, listed, returned⟩
    cases step with
    | lower node => exact ⟨node, listed, List.mem_singleton.mp returned⟩
    | unknownParent child parent => cases returned
  · rintro ⟨node, listed, rfl⟩
    exact ⟨.lower node, listed, List.mem_cons_self⟩

theorem serves_enrolled (analyzer : Analyzer) (includesMethods : Bool) (events : List Event) :
    (analyzer.enrolled includesMethods ⟨[], events⟩).Serves (analyzer.Gives includesMethods)
      (analyzer.returned includesMethods) := by
  obtain ⟨growth, covers⟩ :=
    growth_run_steps analyzer.lowerer (analyzer.steps includesMethods) ⟨[], events⟩
  refine ⟨growth.isClosed (Ledger.isClosed_of_no_composites events), ?_, growth.holds ?_⟩
  · intro descriptor listed
    obtain ⟨node, step, rfl⟩ := mem_returned_iff.mp listed
    exact covers _ step node rfl
  · intro entry listed
    cases listed

theorem accounts_run (unambiguous : Ledger.Unambiguous (analyzer.Gives includesMethods))
    (spares : analyzer.SparesKeys includesMethods) {step : AnalysisStep}
    (listed : step ∈ analyzer.steps includesMethods) {ledger : Ledger}
    (holds : ledger.Holds (analyzer.Gives includesMethods)) :
    (step.run analyzer.lowerer ledger).Holds (analyzer.Gives includesMethods) ∧
      ledger.composites <+: (step.run analyzer.lowerer ledger).composites ∧
      Ledger.Accounts (step.returned analyzer.lowerer) ledger
        (step.run analyzer.lowerer ledger) := by
  cases step with
  | unknownParent child parent => exact ⟨holds, List.prefix_rfl, fun _ => .inl⟩
  | lower node =>
      cases node with
      | none => exact ⟨holds, List.prefix_rfl, fun _ => .inl⟩
      | some node =>
          have gives (name : String) (composite : Composite)
              (within : analyzer.lowerer.GivesWithin analyzer.lowerer.entered node name composite) :
              analyzer.Gives includesMethods name composite := ⟨node, listed, within⟩
          obtain ⟨holdsAfter, accounts⟩ :=
            Lowerer.accounts_enroll unambiguous gives (spares node listed) ledger holds
          exact ⟨holdsAfter, Lowerer.composites_grow_enroll node ledger, accounts⟩

/-- Where no name is ambiguous and no key loses composites, all that is registered is used. -/
theorem reaches_of_defines_enrolled
    (unambiguous : Ledger.Unambiguous (analyzer.Gives includesMethods))
    (spares : analyzer.SparesKeys includesMethods) {name : String}
    (defined : (analyzer.enrolled includesMethods ⟨[], events⟩).defines name = true) :
    (analyzer.enrolled includesMethods ⟨[], events⟩).Reaches
      (analyzer.returned includesMethods) name := by
  have nothing : Ledger.Holds (analyzer.Gives includesMethods) ⟨[], events⟩ := by
    intro entry listed
    cases listed
  obtain ⟨_, _, accounts⟩ := Ledger.accounts_foldl (AnalysisStep.returned analyzer.lowerer)
    (fun step listed ledger => accounts_run unambiguous spares listed) nothing
  refine (accounts name defined).resolve_left fun before => ?_
  cases before

/-- All to which an outline leads, the lowered types lead to. -/
theorem reaches_of_outline_reaches {name : String}
    (reaches : (analyzer.analyze includesMethods ⟨[], events⟩).1.Reaches name) :
    (analyzer.enrolled includesMethods ⟨[], events⟩).Reaches
      (analyzer.returned includesMethods) name := by
  induction reaches with
  | @used type name shows uses =>
      have stands : (analyzer.outline includesMethods ⟨[], events⟩).HasType type := by
        have no_composites : Ledger.sortedComposites ⟨[], events⟩ = [] := by
          simp [Ledger.sortedComposites, Text.sortedBy]
        rw [outline, no_composites]
        exact shows
      rcases lowered_of_hasType stands with ⟨node, step, rfl⟩ | ⟨entry, listed, _⟩
      · exact .used (mem_returned_iff.mpr ⟨node, step, rfl⟩) uses
      · cases listed
  | through _ defined uses induction =>
      have distinct := (analyzer.serves_enrolled includesMethods events).closed.distinct
      have listed := (Text.sortedBy_perm _ _).mem_iff.mp defined
      exact .through induction (Dictionary.get?_of_mem distinct listed) uses

/-! ## Methods in another order -/

end Analyzer

namespace Model

/-- Two protocols that differ at most in the order of their requests and of their notifications. -/
structure ReordersMethods (model model' : Model) : Prop where
  version : model'.version = model.version
  structures : model'.structures = model.structures
  enumerations : model'.enumerations = model.enumerations
  aliases : model'.aliases = model.aliases
  requests : model'.requests.Perm model.requests
  notifications : model'.notifications.Perm model.notifications

namespace ReordersMethods

variable {model model' : Model} (reorders : model.ReordersMethods model')

include reorders

theorem methods_perm : model'.methods.Perm model.methods :=
  (reorders.requests.map _).append (reorders.notifications.map _)

theorem proposedFlags_eq : model'.proposedFlags = model.proposedFlags := by
  rw [proposedFlags, proposedFlags, reorders.structures, reorders.enumerations, reorders.aliases]

section Analyzed

variable (profile : Profile) (includesProposed : Bool) (selection : Option (List String))

theorem lowerer_eq :
    (Analyzer.ofModel model' profile includesProposed selection).lowerer =
      (Analyzer.ofModel model profile includesProposed selection).lowerer := by
  simp only [Analyzer.ofModel, Lowerer.ofModel, reorders.proposedFlags_eq]

theorem alike_ofModel :
    (Analyzer.ofModel model profile includesProposed selection).Alike
      (Analyzer.ofModel model' profile includesProposed selection) where
  lowerer := by
    rw [reorders.lowerer_eq]
    exact .refl _
  selection := rfl
  version := reorders.version
  declaredStructure? := by
    intro name
    simp only [Analyzer.ofModel, declaredStructure?, reorders.structures]
  sortedStructures := by simp only [Analyzer.ofModel, reorders.structures]
  sortedEnumerations := by simp only [Analyzer.ofModel, reorders.enumerations]
  sortedAliases := by simp only [Analyzer.ofModel, reorders.aliases]

/-- Methods of distinct names are put in the same order. -/
theorem methods_eq (once : (model.methods.map (·.name)).Nodup) :
    (Analyzer.ofModel model' profile includesProposed selection).methods =
      (Analyzer.ofModel model profile includesProposed selection).methods := by
  have alike := reorders.alike_ofModel profile includesProposed selection
  have admitted : (Analyzer.ofModel model' profile includesProposed selection).admittedMethods =
      (Analyzer.ofModel model profile includesProposed selection).admittedMethods := by
    simp only [Analyzer.admittedMethods, alike.choosesAlike.admits_eq]
    apply Text.sortedBy_eq_of_perm (reorders.methods_perm.filter _)
    exact once.sublist (List.filter_sublist.map _)
  rw [Analyzer.methods_eq, Analyzer.methods_eq, admitted, alike.choosesAlike.selectsMethod_eq,
    alike.methodOf_eq]

theorem steps_perm (includesMethods : Bool) :
    ((Analyzer.ofModel model' profile includesProposed selection).steps includesMethods).Perm
      ((Analyzer.ofModel model profile includesProposed selection).steps includesMethods) := by
  have alike := reorders.alike_ofModel profile includesProposed selection
  have chooses := alike.choosesAlike
  rw [Analyzer.steps, Analyzer.steps, alike.declarationSteps_eq]
  apply List.Perm.append_left
  cases includesMethods with
  | false => exact .refl _
  | true =>
      apply List.Perm.append
      · simp only [Analyzer.requests, chooses.admits_eq, chooses.selectsReferences_eq]
        exact (reorders.requests.filter _).flatMap_right _
      · simp only [Analyzer.notifications, chooses.admits_eq, chooses.selectsReferences_eq]
        exact (reorders.notifications.filter _).flatMap_right _

theorem lower_mem_steps_iff (includesMethods : Bool) (node : Option Node) :
    AnalysisStep.lower node ∈ (Analyzer.ofModel model' profile includesProposed selection).steps
        includesMethods ↔
      AnalysisStep.lower node ∈ (Analyzer.ofModel model profile includesProposed selection).steps
        includesMethods :=
  (reorders.steps_perm profile includesProposed selection includesMethods).mem_iff

theorem gives_iff (includesMethods : Bool) (name : String) (composite : Composite) :
    (Analyzer.ofModel model' profile includesProposed selection).Gives includesMethods name
        composite ↔
      (Analyzer.ofModel model profile includesProposed selection).Gives includesMethods name
        composite := by
  simp only [Analyzer.Gives, Analyzer.GivesInSteps, reorders.lowerer_eq,
    reorders.lower_mem_steps_iff]

theorem mem_returned_iff (includesMethods : Bool) (descriptor : Descriptor) :
    descriptor ∈ (Analyzer.ofModel model' profile includesProposed selection).returned
        includesMethods ↔
      descriptor ∈ (Analyzer.ofModel model profile includesProposed selection).returned
        includesMethods := by
  simp only [Analyzer.mem_returned_iff, reorders.lowerer_eq, reorders.lower_mem_steps_iff]

theorem serves_enrolled (includesMethods : Bool) (events : List Event) :
    ((Analyzer.ofModel model' profile includesProposed selection).enrolled includesMethods
        ⟨[], events⟩).Serves
      ((Analyzer.ofModel model profile includesProposed selection).Gives includesMethods)
      ((Analyzer.ofModel model profile includesProposed selection).returned includesMethods) := by
  obtain ⟨closed, covers, holds⟩ := (Analyzer.ofModel model' profile includesProposed
    selection).serves_enrolled includesMethods events
  refine ⟨closed, fun descriptor listed => covers descriptor ?_, fun entry listed => ?_⟩
  · exact (reorders.mem_returned_iff _ _ _ includesMethods descriptor).mpr listed
  · exact (reorders.gives_iff _ _ _ includesMethods _ _).mp (holds entry listed)

theorem reaches_of_defines_enrolled (includesMethods : Bool) (events : List Event)
    (unambiguous : Ledger.Unambiguous
      ((Analyzer.ofModel model profile includesProposed selection).Gives includesMethods))
    (spares : (Analyzer.ofModel model profile includesProposed selection).SparesKeys
      includesMethods) {name : String}
    (defined : ((Analyzer.ofModel model' profile includesProposed selection).enrolled
      includesMethods ⟨[], events⟩).defines name = true) :
    ((Analyzer.ofModel model' profile includesProposed selection).enrolled includesMethods
        ⟨[], events⟩).Reaches
      ((Analyzer.ofModel model profile includesProposed selection).returned includesMethods)
      name := by
  have gives := reorders.gives_iff profile includesProposed selection includesMethods
  have unambiguous' : Ledger.Unambiguous
      ((Analyzer.ofModel model' profile includesProposed selection).Gives includesMethods) := by
    intro name first second given given'
    exact unambiguous name first second ((gives name first).mp given)
      ((gives name second).mp given')
  have spares' : (Analyzer.ofModel model' profile includesProposed selection).SparesKeys
      includesMethods := by
    intro node step
    rw [reorders.lowerer_eq]
    exact spares node ((reorders.lower_mem_steps_iff _ _ _ includesMethods _).mp step)
  have reaches := Analyzer.reaches_of_defines_enrolled unambiguous' spares' defined
  refine reaches.weaken fun descriptor listed used uses => .used ?_ uses
  exact (reorders.mem_returned_iff _ _ _ includesMethods descriptor).mp listed

/-- Only composites can tell the order of methods. -/
theorem outline_eq_with_composites (once : (model.methods.map (·.name)).Nodup)
    (includesMethods : Bool) (events events' : List Event) :
    let outline := ((Analyzer.ofModel model profile includesProposed selection).analyze
      includesMethods ⟨[], events⟩).1
    let outline' := ((Analyzer.ofModel model' profile includesProposed selection).analyze
      includesMethods ⟨[], events'⟩).1
    outline' = { outline with composites := outline'.composites } := by
  intro outline outline'
  have split := (reorders.alike_ofModel profile includesProposed selection).outline_eq
    includesMethods
    ((Analyzer.ofModel model profile includesProposed selection).enrolled includesMethods
      ⟨[], events⟩)
    ((Analyzer.ofModel model' profile includesProposed selection).enrolled includesMethods
      ⟨[], events'⟩)
  rw [reorders.methods_eq profile includesProposed selection once] at split
  exact split

theorem mem_composites_iff (includesMethods : Bool) (events events' : List Event)
    (unambiguous : Ledger.Unambiguous
      ((Analyzer.ofModel model profile includesProposed selection).Gives includesMethods))
    {name : String} (reaches : ((Analyzer.ofModel model profile includesProposed selection).analyze
      includesMethods ⟨[], events⟩).1.Reaches name) (composite : Composite) :
    (name, composite) ∈ ((Analyzer.ofModel model' profile includesProposed selection).analyze
        includesMethods ⟨[], events'⟩).1.composites ↔
      (name, composite) ∈ ((Analyzer.ofModel model profile includesProposed selection).analyze
        includesMethods ⟨[], events⟩).1.composites := by
  have serves := (Analyzer.ofModel model profile includesProposed selection).serves_enrolled
    includesMethods events
  have serves' :=
    reorders.serves_enrolled profile includesProposed selection includesMethods events'
  obtain ⟨_, same⟩ := serves.reaches_and_get?_eq unambiguous serves'
    (Analyzer.reaches_of_outline_reaches reaches)
  have listed_iff {ledger : Ledger} (closed : ledger.IsClosed) :
      (name, composite) ∈ ledger.sortedComposites ↔
        ledger.composites.get? name = some composite := by
    rw [Ledger.sortedComposites, (Text.sortedBy_perm _ _).mem_iff]
    exact ⟨Dictionary.get?_of_mem closed.distinct, Dictionary.mem_of_get?⟩
  exact (listed_iff serves'.closed).trans (same ▸ (listed_iff serves.closed).symm)

theorem composites_eq (includesMethods : Bool) (events events' : List Event)
    (unambiguous : Ledger.Unambiguous
      ((Analyzer.ofModel model profile includesProposed selection).Gives includesMethods))
    (spares : (Analyzer.ofModel model profile includesProposed selection).SparesKeys
      includesMethods) :
    ((Analyzer.ofModel model' profile includesProposed selection).analyze includesMethods
        ⟨[], events'⟩).1.composites =
      ((Analyzer.ofModel model profile includesProposed selection).analyze includesMethods
        ⟨[], events⟩).1.composites := by
  have serves := (Analyzer.ofModel model profile includesProposed selection).serves_enrolled
    includesMethods events
  have serves' :=
    reorders.serves_enrolled profile includesProposed selection includesMethods events'
  apply serves.sortedComposites_eq unambiguous serves'
  · exact fun name => Analyzer.reaches_of_defines_enrolled unambiguous spares
  · exact fun name => reorders.reaches_of_defines_enrolled profile includesProposed selection
      includesMethods events' unambiguous spares

end Analyzed
end ReordersMethods
end Model

namespace Analyzer

/-- The order of methods only shows in definitions of composites.  If no composite name is given
with two definitions, the composites to which the outline leads have the same definitions in any
order, and so have all others, unless composites are within the key of a map that gives way to a
string. -/
theorem analyze_reordersMethods {model model' : Model} (reorders : model.ReordersMethods model')
    (once : (model.methods.map (·.name)).Nodup) (profile : Profile)
    (includesProposed includesMethods : Bool) (selection : Option (List String))
    (events events' : List Event) :
    let analyzer := ofModel model profile includesProposed selection
    let analyzer' := ofModel model' profile includesProposed selection
    let outline := (analyzer.analyze includesMethods ⟨[], events⟩).1
    let outline' := (analyzer'.analyze includesMethods ⟨[], events'⟩).1
    outline' = { outline with composites := outline'.composites } ∧
      (Ledger.Unambiguous (analyzer.Gives includesMethods) →
        (∀ name, outline.Reaches name → ∀ composite,
          (name, composite) ∈ outline'.composites ↔ (name, composite) ∈ outline.composites) ∧
        (analyzer.SparesKeys includesMethods → outline' = outline)) := by
  intro analyzer analyzer' outline outline'
  have others : outline' = { outline with composites := outline'.composites } :=
    reorders.outline_eq_with_composites profile includesProposed selection once includesMethods
      events events'
  refine ⟨others, fun unambiguous => ⟨?_, ?_⟩⟩
  · intro name reaches composite
    exact reorders.mem_composites_iff profile includesProposed selection includesMethods events
      events' unambiguous reaches composite
  · intro spares
    have composites : outline'.composites = outline.composites :=
      reorders.composites_eq profile includesProposed selection includesMethods events events'
        unambiguous spares
    rw [others, composites]

/-- Two methods whose parameters are one union, with its members in either order. -/
theorem analyze_reordersMethods_shared_union :
    let first : Node := .reference (.root "first") "A"
    let second : Node := .reference (.root "second") "B"
    let method (name : String) (members : List Node) : Request :=
      { (default : Request) with method := name, params := some (.union (.root "params") members) }
    let closing := method "close" [first, second]
    let opening := method "open" [second, first]
    let model : Model := { (default : Model) with requests := [closing, opening] }
    let model' : Model := { (default : Model) with requests := [opening, closing] }
    let analyzer (model : Model) : Analyzer := ofModel model Language.go.profile false none
    let outline (model : Model) : Outline := ((analyzer model).analyze true ⟨[], []⟩).1
    model.ReordersMethods model' ∧ (model.methods.map (·.name)).Nodup ∧
      Ledger.Unambiguous ((analyzer model).Gives true) ∧ (analyzer model).SparesKeys true ∧
      (outline model).composites.map (·.1) = ["Or_A_B"] ∧ outline model' = outline model := by
  intro first second method closing opening model model' analyzer outline
  have reorders : model.ReordersMethods model' :=
    ⟨rfl, rfl, rfl, rfl, .swap closing opening [], .refl []⟩
  have once : (model.methods.map (·.name)).Nodup := by decide
  let lowerer := (analyzer model).lowerer
  have inReference {source : Path} {target name : String} {composite : Composite} :
      ¬lowerer.GivesWithin lowerer.entered (.reference source target) name composite := by
    rw [Lowerer.givesWithin_iff]
    rintro (gives | ⟨part, listed, _⟩)
    · cases gives
    · cases listed
  have inUnion {members : List Node} (distinct : lowerer.distinctMembers members = [first, second])
      {name : String} {composite : Composite}
      (given : lowerer.GivesWithin lowerer.entered (.union (.root "params") members) name
        composite) : composite = lowerer.unionOf [first, second] := by
    rcases Lowerer.givesWithin_iff.mp given with gives | ⟨part, listed, given⟩
    · cases gives with
      | union several => rw [distinct]
      | member several listed wrapped =>
          rw [distinct] at listed
          rcases List.mem_pair.mp listed with rfl | rfl <;> cases wrapped
    · have several : lowerer.unionShape members = .several [first, second] := by
        rw [← distinct]
        exact lowerer.unionShape_eq_several (by rw [distinct]; exact Nat.le_refl 2)
      rw [Lowerer.entered, several] at listed
      rcases List.mem_pair.mp listed with rfl | rfl
      · exact absurd given inReference
      · exact absurd given inReference
  have only {name : String} {composite : Composite}
      (given : (analyzer model).Gives true name composite) :
      composite = lowerer.unionOf [first, second] := by
    obtain ⟨node, step, given⟩ := given
    have steps : (analyzer model).steps true =
        [.lower closing.params, .lower opening.params] := by cbv
    rw [steps] at step
    rcases List.mem_pair.mp step with equal | equal
    · obtain rfl := Option.some.inj (AnalysisStep.lower.inj equal)
      exact inUnion (by cbv) given
    · obtain rfl := Option.some.inj (AnalysisStep.lower.inj equal)
      exact inUnion (by cbv) given
  have unambiguous : Ledger.Unambiguous ((analyzer model).Gives true) := by
    intro name one other given given'
    rw [only given, only given']
  have spares : (analyzer model).SparesKeys true :=
    fun node _ => Lowerer.sparesKeys_of_not_scalarMapKeys rfl node
  obtain ⟨_, same⟩ :=
    analyze_reordersMethods reorders once Language.go.profile false true none [] []
  exact ⟨reorders, once, unambiguous, spares, by cbv, (same unambiguous).2 spares⟩

/-- Two methods whose parameters hold different unions, which lend them one name. -/
theorem analyze_reordersMethods_nested_unions :
    let union (members : List Node) : Node := .union (.root "union") members
    let reference (name : String) : Node := .reference (.root "reference") name
    let method (name : String) (members : List Node) : Request :=
      { (default : Request) with
        method := name
        params := some (union [.base (.root "base") "string", union members]) }
    let closing := method "close" [reference "A", reference "B"]
    let opening := method "open" [reference "C", reference "D"]
    let model : Model := { (default : Model) with requests := [closing, opening] }
    let model' : Model := { (default : Model) with requests := [opening, closing] }
    let outline (model : Model) : Outline :=
      ((ofModel model Language.go.profile false none).analyze true ⟨[], []⟩).1
    model.ReordersMethods model' ∧ (model.methods.map (·.name)).Nodup ∧
      (outline model).composites.map (·.1) = ["Or_A_B", "Or_Union_string"] ∧
      (outline model').composites.map (·.1) = ["Or_C_D", "Or_Union_string"] ∧
      outline model' ≠ outline model := by
  intro union reference method closing opening model model' outline
  have reorders : model.ReordersMethods model' :=
    ⟨rfl, rfl, rfl, rfl, .swap closing opening [], .refl []⟩
  have names : (outline model).composites.map (·.1) = ["Or_A_B", "Or_Union_string"] := by cbv
  have names' : (outline model').composites.map (·.1) = ["Or_C_D", "Or_Union_string"] := by cbv
  refine ⟨reorders, by decide, names, names', fun equal => ?_⟩
  rw [equal, names] at names'
  exact absurd names' (by decide)

end Analyzer
end ProtocolCodegen
