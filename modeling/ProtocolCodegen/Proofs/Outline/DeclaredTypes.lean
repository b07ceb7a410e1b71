import Mathlib
import ProtocolCodegen.Proofs.Lowering.References
import ProtocolCodegen.Proofs.Outline.Selection
import ProtocolCodegen.Proofs.Outline.SharedLedger
import ProtocolCodegen.Proofs.Schema.Closures

/-!
# Declared types of an outline

Wherever a declared type stands in an outline, its name is one to which a type of the protocol
refers.  If the selection was closed under references, the outline declares that name, unless the
protocol does not declare it or it is left out as proposed.
-/

namespace ProtocolCodegen

/-- The types that stand in the declarations and methods of a protocol. -/
def Model.types (model : Model) : List Node :=
  model.structures.flatMap (fun declared => declared.properties.map (·.type)) ++
    model.aliases.filterMap (·.type) ++
    model.requests.filterMap (·.params) ++ model.requests.filterMap (·.result) ++
    model.notifications.filterMap (·.params)

namespace Outline

/-- A descriptor stands in an outline, at whatever depth. -/
def Contains (outline : Outline) (descriptor : Descriptor) : Prop :=
  ∃ type, outline.HasType type ∧ descriptor.Within type

/-- An outline declares a name of the schema under an identifier. -/
inductive Declares (outline : Outline) (name identifier : String) : Prop where
  | ofClass {declared : Class} (listed : declared ∈ outline.classes)
      (original : declared.originalName = name) (named : declared.name = identifier)
  | ofEnum {declared : Enum} (listed : declared ∈ outline.enums)
      (original : declared.originalName = name) (named : declared.name = identifier)
  | ofAlias {declared : Alias} (listed : declared ∈ outline.aliases)
      (original : declared.originalName = name) (named : declared.name = identifier)

end Outline

namespace Analyzer

variable {analyzer : Analyzer}

/-- A type of the protocol whose references are selected unless they are left out as proposed. -/
structure Accepts (analyzer : Analyzer) (node : Node) : Prop where
  listed : node ∈ analyzer.model.types
  selected : ∀ name ∈ node.references analyzer.lowerer.includesProposed,
    analyzer.model.Admits analyzer.lowerer.includesProposed name → analyzer.selects name = true

theorem admits_iff {proposed : Bool} :
    analyzer.admits proposed = true ↔
      (proposed = true → analyzer.lowerer.includesProposed = true) := by
  rw [admits]
  cases proposed <;> simp

theorem selects_of_includes {name : String} {proposed : Bool}
    (includes : analyzer.includes name proposed = true) : analyzer.selects name = true :=
  (Bool.and_eq_true_iff.mp includes).2

theorem accepts_of_selectsReferences {node : Node} (listed : node ∈ analyzer.model.types)
    (selects : analyzer.selectsReferences (some node) = true) : analyzer.Accepts node where
  listed := listed
  selected := by
    intro name mentioned _
    have every := List.all_eq_true.mp selects
    exact every name (Node.mem_referenceSet_iff.mpr ⟨node, rfl, mentioned⟩)

section Closed

variable (closed : analyzer.model.IsClosed analyzer.lowerer.includesProposed
  {name | analyzer.selects name = true})

include closed

theorem accepts_property {record : Structure} {property : Property Node}
    (counts : IsLastNamed Structure.name record analyzer.model.structures)
    (selected : analyzer.selects record.name = true)
    (own : property ∈ analyzer.ownProperties record) : analyzer.Accepts property.type := by
  obtain ⟨listed, kept⟩ := List.mem_filter.mp own
  constructor
  · simp only [Model.types, List.mem_append, List.mem_flatMap, List.mem_map]
    exact .inl (.inl (.inl (.inl ⟨record, counts.mem, property, listed, rfl⟩)))
  · intro name mentioned admitted
    have among := Node.mem_referenceSet_iff.mpr ⟨property.type, rfl, mentioned⟩
    exact closed record.name selected name
      (.ofProperty counts listed (admits_iff.mp kept) among admitted)

theorem accepts_alias (distinct : analyzer.model.declaredNames.Nodup) {declared : TypeAlias}
    (generated : declared ∈ analyzer.aliases) {node : Node} (typed : declared.type = some node) :
    analyzer.Accepts node := by
  obtain ⟨listed, includes⟩ := mem_aliases_iff.mp generated
  constructor
  · simp only [Model.types, List.mem_append, List.mem_filterMap]
    exact .inl (.inl (.inl (.inr ⟨declared, listed, typed⟩)))
  · intro name mentioned admitted
    have unrecorded : ∀ other ∈ analyzer.model.structures, other.name ≠ declared.name :=
      fun other known => Model.structure_name_ne_alias_name distinct known listed
    have counts := isLastNamed_of_nodup (Model.nodup_aliases distinct) listed
    have among : name ∈
        Node.referenceSet analyzer.lowerer.includesProposed declared.type :=
      Node.mem_referenceSet_iff.mpr ⟨node, typed, mentioned⟩
    exact closed declared.name (selects_of_includes includes) name
      (.ofAlias unrecorded counts among admitted)

/-- With a closed selection, all that the types of generated declarations and methods refer to is
selected, unless it is left out. -/
theorem accepts_lowered (distinct : analyzer.model.declaredNames.Nodup)
    (admitted : ∀ child ∈ analyzer.model.structures, ∀ parent,
      analyzer.model.Inherits child parent →
        analyzer.model.Admits analyzer.lowerer.includesProposed parent.name)
    {includesMethods : Bool} {node : Node}
    (step : AnalysisStep.lower (some node) ∈ analyzer.steps includesMethods) :
    analyzer.Accepts node := by
  rcases lower_mem_steps_cases step with
    ⟨declared, generated, record, above, property, own, rfl⟩ | ⟨declared, generated, typed⟩ |
    ⟨request, generated, typed⟩ | ⟨notification, generated, typed⟩
  · obtain ⟨listed, includes⟩ := mem_structures_iff.mp generated
    have counts := isLastNamed_of_nodup (Model.nodup_structures distinct) listed
    obtain ⟨selected, recordCounts⟩ := Model.mem_of_mem_lineage closed admitted counts
      (selects_of_includes includes) above
    exact accepts_property closed recordCounts selected own
  · exact accepts_alias closed distinct generated typed
  · obtain ⟨listed, kept⟩ := List.mem_filter.mp generated
    simp only [Bool.and_eq_true] at kept
    rcases typed with params | result
    · refine accepts_of_selectsReferences ?_ (params ▸ kept.1.2)
      simp only [Model.types, List.mem_append, List.mem_filterMap]
      exact .inl (.inl (.inr ⟨request, listed, params⟩))
    · refine accepts_of_selectsReferences ?_ (result ▸ kept.2)
      simp only [Model.types, List.mem_append, List.mem_filterMap]
      exact .inl (.inr ⟨request, listed, result⟩)
  · obtain ⟨listed, kept⟩ := List.mem_filter.mp generated
    simp only [Bool.and_eq_true] at kept
    refine accepts_of_selectsReferences ?_ (typed ▸ kept.2)
    simp only [Model.types, List.mem_append, List.mem_filterMap]
    exact .inr ⟨notification, listed, typed⟩

end Closed

/-- A declaration that is selected and not left out is in the outline. -/
theorem declares_of_selects {includesMethods : Bool} {ledger : Ledger} {name : String}
    {proposed : Bool} (declared : (name, proposed) ∈ analyzer.model.declarations)
    (admitted : analyzer.admits proposed = true) (selected : analyzer.selects name = true) :
    (analyzer.outline includesMethods ledger).Declares name (analyzer.typeName name) := by
  have includes : analyzer.includes name proposed = true :=
    Bool.and_eq_true_iff.mpr ⟨admitted, selected⟩
  simp only [Model.declarations, List.mem_append, List.mem_map, Prod.mk.injEq] at declared
  rcases declared with (⟨record, listed, rfl, rfl⟩ | ⟨enumeration, listed, rfl, rfl⟩) |
    ⟨shorthand, listed, rfl, rfl⟩
  · have generated := mem_structures_iff.mpr ⟨listed, includes⟩
    exact .ofClass (List.mem_map_of_mem generated) rfl rfl
  · have generated := mem_enumerations_iff.mpr ⟨listed, includes⟩
    exact .ofEnum (List.mem_map_of_mem generated) rfl rfl
  · have generated := mem_aliases_iff.mpr ⟨listed, includes⟩
    exact .ofAlias (List.mem_map_of_mem generated) rfl rfl

/-- The declared types of an outline whose composites all come from its own analysis are references
of types that were lowered. -/
theorem exists_lowered_of_contains {includesMethods : Bool} {events : List Event}
    {descriptor : Descriptor}
    (contains : ((analyzer.analyze includesMethods ⟨[], events⟩).1).Contains descriptor)
    (named : descriptor.kind = .named) (includesProposed : Bool) :
    ∃ node, AnalysisStep.lower (some node) ∈ analyzer.steps includesMethods ∧
      ∃ name ∈ node.references includesProposed,
        descriptor.name = analyzer.lowerer.profile.naming.typeName name := by
  obtain ⟨type, stands, within⟩ := contains
  rcases lowered_of_hasType stands with ⟨node, step, rfl⟩ | ⟨entry, listed, inside⟩
  · cases node with
    | some node =>
        exact ⟨node, step,
          analyzer.lowerer.namesAmong_descriptor includesProposed node descriptor within named⟩
    | none =>
        obtain ⟨name, among, _⟩ := Lowerer.namesAmong_anything [] descriptor within named
        cases among
  · obtain ⟨node, step, gives⟩ := analyzer.givesInSteps_of_mem_enrolled listed
    exact ⟨node, step,
      Lowerer.namesAmong_of_givesWithin gives includesProposed type inside descriptor within named⟩

/-- The analyzer for requested names and all to which they lead, or else for all declarations. -/
def ofRequested (model : Model) (profile : Profile) (includesProposed : Bool)
    (requested : Option (List String)) : Analyzer :=
  .ofModel model profile includesProposed (requested.map (model.closure includesProposed))

theorem isClosed_selects (model : Model) (profile : Profile) (includesProposed : Bool)
    (requested : Option (List String)) :
    model.IsClosed includesProposed
      {name | (ofRequested model profile includesProposed requested).selects name = true} := by
  cases requested with
  | none => exact fun _ _ _ _ => rfl
  | some names =>
      intro source selected target leads
      have source_mem : source ∈ model.closure includesProposed names :=
        selects_some_iff.mp selected
      have target_mem : target ∈ model.closure includesProposed names :=
        model.isClosed_closure includesProposed names source source_mem target leads
      exact selects_some_iff.mpr target_mem

/-- Let the names of declarations be distinct, and let no record take over properties of a proposed
one while these are left out.  If requested names are generated with all to which they lead, every
declared type that stands anywhere in the outline belongs to a name to which the protocol refers,
and the outline declares this name, unless the protocol does not or it is left out as proposed. -/
theorem declares_named_types (model : Model) (profile : Profile)
    (includesProposed includesMethods : Bool) (requested : Option (List String))
    (events : List Event) (distinct : model.declaredNames.Nodup)
    (stable : includesProposed = true ∨ ∀ child ∈ model.structures, ∀ parent,
      model.Inherits child parent → parent.proposed = false) :
    let analyzer := ofRequested model profile includesProposed requested
    let outline := (analyzer.analyze includesMethods ⟨[], events⟩).1
    ∀ descriptor, outline.Contains descriptor → descriptor.kind = .named →
      ∃ name, descriptor.name = profile.naming.typeName name ∧
        (∃ node ∈ model.types, name ∈ node.references includesProposed) ∧
        (outline.Declares name descriptor.name ∨ name ∉ model.declaredNames ∨
          (includesProposed = false ∧ model.isProposed name = true)) := by
  intro analyzer outline descriptor contains named
  have admitted : ∀ child ∈ model.structures, ∀ parent, model.Inherits child parent →
      model.Admits includesProposed parent.name := by
    intro child listed parent inherits proposed
    rcases stable with included | stable
    · exact included
    · have parent_listed := (Model.isLastNamed_of_inherits inherits).mem
      have flagged := Model.proposed_of_isProposed distinct parent_listed proposed
      rw [stable child listed parent inherits] at flagged
      cases flagged
  obtain ⟨node, step, name, mentioned, equal⟩ :=
    exists_lowered_of_contains contains named includesProposed
  have closed := isClosed_selects model profile includesProposed requested
  have accepts : analyzer.Accepts node := accepts_lowered closed distinct admitted step
  refine ⟨name, equal, ⟨node, accepts.listed, mentioned⟩, ?_⟩
  cases flag : model.proposedFlags.get? name with
  | none => exact .inr (.inl (Model.not_mem_declaredNames_of_no_flag flag))
  | some proposed =>
      by_cases leftOut : includesProposed = false ∧ proposed = true
      · obtain ⟨excluded, rfl⟩ := leftOut
        exact .inr (.inr ⟨excluded, Model.isProposed_iff.mpr flag⟩)
      · have kept : proposed = true → includesProposed = true := by
          intro isProposed
          simpa [isProposed] using leftOut
        have admits : model.Admits includesProposed name := by
          intro isProposed
          have same := flag.symm.trans (Model.isProposed_iff.mp isProposed)
          exact kept (Option.some.inj same)
        have selected := accepts.selected name mentioned admits
        left
        rw [equal]
        exact declares_of_selects (Model.mem_declarations_of_flag flag) (admits_iff.mpr kept)
          selected

/-- A type that a requested record takes over from its parent is declared. -/
theorem declares_named_types_inherited :
    let property (name target : String) : Property Node :=
      { (default : Property Node) with name, type := .reference (.root "type") target }
    let base : Structure :=
      { (default : Structure) with name := "Base", properties := [property "start" "Position"] }
    let range : Structure :=
      { (default : Structure) with
        name := "Range"
        properties := [property "draft" "Draft", property "gone" "Gone"]
        parents := [.reference (.root "parent") "Base"] }
    let position : Structure := { (default : Structure) with name := "Position" }
    let draft : Structure := { (default : Structure) with name := "Draft", proposed := true }
    let model : Model :=
      { (default : Model) with structures := [base, range, position, draft] }
    let analyzer := ofRequested model .standard false (some ["Range"])
    let outline := (analyzer.analyze true ⟨[], []⟩).1
    model.declaredNames.Nodup ∧
      (∀ child ∈ model.structures, ∀ parent, model.Inherits child parent →
        parent.proposed = false) ∧
      outline.Contains (.ofName .named "Position") ∧ outline.Declares "Position" "Position" := by
  intro property base range position draft model analyzer outline
  have distinct : model.declaredNames.Nodup := by decide
  have stable : ∀ child ∈ model.structures, ∀ parent ∈ model.lenders child,
      parent.proposed = false := by decide
  have contains : outline.Contains (.ofName .named "Position") := by
    have listed : range ∈ model.structures := .tail _ (.head _)
    have generated : range ∈ analyzer.structures := mem_structures_iff.mpr ⟨listed, by cbv⟩
    have fields : (analyzer.classOf range).fields =
        [analyzer.field "Base" (property "start" "Position"),
          analyzer.field "Range" (property "draft" "Draft"),
          analyzer.field "Range" (property "gone" "Gone")] := by cbv
    have typed : (analyzer.field "Base" (property "start" "Position")).type =
        some (.ofName .named "Position") := by cbv
    exact ⟨_, .field (List.mem_map_of_mem generated) (fields ▸ List.mem_cons_self) typed, .self⟩
  obtain ⟨name, equal, ⟨node, listed, mentioned⟩, declares⟩ := declares_named_types model
    .standard false true (some ["Range"]) [] distinct (.inr stable) _ contains rfl
  have references : model.types.flatMap (Node.references false) =
      ["Position", "Draft", "Gone"] := by cbv
  have among : name ∈ ["Position", "Draft", "Gone"] :=
    references ▸ List.mem_flatMap.mpr ⟨node, listed, mentioned⟩
  have name_eq : name = "Position" := by
    simp only [List.mem_cons, List.not_mem_nil, or_false] at among
    rcases among with rfl | rfl | rfl
    · rfl
    · exact absurd equal (by decide)
    · exact absurd equal (by decide)
  subst name_eq
  rcases declares with declared | undeclared | ⟨_, proposed⟩
  · exact ⟨distinct, stable, contains, declared⟩
  · exact absurd undeclared (by decide)
  · exact absurd proposed (by decide)

end Analyzer
end ProtocolCodegen
