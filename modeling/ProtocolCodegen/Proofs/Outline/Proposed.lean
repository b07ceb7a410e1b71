import Mathlib
import ProtocolCodegen.Generation
import ProtocolCodegen.Proofs.Outline.Selection
import ProtocolCodegen.Proofs.Schema.Closures

/-!
# What is proposed in an outline

While what is proposed is left out, all that is generated is stable: declarations, methods, values
of enumerations, and the properties of records.  A record nevertheless takes over the stable
properties of a proposed parent.  Including what is proposed only adds to an outline.
-/

namespace ProtocolCodegen

namespace Analyzer

/-! ## Stable outlines -/

section Stable

variable {model : Model} {profile : Profile} {selection : Option (List String)}

/-- A field that a record declares as stable. -/
def StableField (analyzer : Analyzer) (origin : Structure) (field : Outline.Field) : Prop :=
  ∃ property ∈ origin.properties, property.proposed = false ∧
    field = analyzer.field origin.name property

theorem admits_stable_iff {proposed : Bool} :
    (ofModel model profile false selection).admits proposed = true ↔ proposed = false := by
  simp [admits, ofModel, Lowerer.ofModel]

theorem mem_ownProperties_stable_iff {record : Structure} {property : Property Node} :
    property ∈ (ofModel model profile false selection).ownProperties record ↔
      property ∈ record.properties ∧ property.proposed = false := by
  rw [ownProperties, List.mem_filter, admits_stable_iff]

theorem stable_of_includes {name : String} {proposed : Bool}
    (includes : (ofModel model profile false selection).includes name proposed = true) :
    proposed = false :=
  admits_stable_iff.mp (Bool.and_eq_true_iff.mp includes).1

theorem stable_of_mem_methods {method : Outline.Method}
    (generated : method ∈ (ofModel model profile false selection).methods) :
    ∃ declared ∈ model.methods, declared.proposed = false ∧
      method = (ofModel model profile false selection).methodOf declared := by
  rw [methods_eq] at generated
  obtain ⟨declared, selected, rfl⟩ := List.mem_map.mp generated
  have admitted := (List.mem_filter.mp selected).1
  rw [admittedMethods, (Text.sortedBy_perm _ _).mem_iff] at admitted
  obtain ⟨listed, admits⟩ := List.mem_filter.mp admitted
  exact ⟨declared, listed, admits_stable_iff.mp admits, rfl⟩

theorem stableField_of_mem {declared : Structure} (stable : declared.proposed = false)
    {field : Outline.Field}
    (owned : field ∈ ((ofModel model profile false selection).classOf declared).fields) :
    ∃ origin, (ofModel model profile false selection).StableField origin field ∧
      Relation.ReflTransGen model.Inherits declared origin ∧
      (origin.proposed = true → Relation.TransGen model.Inherits declared origin) := by
  obtain ⟨origin, above, property, own, rfl⟩ := mem_fields_flattening owned
  obtain ⟨listed, kept⟩ := mem_ownProperties_stable_iff.mp own
  have path := Model.inherits_of_mem_lineage above
  refine ⟨origin, ⟨property, listed, kept, rfl⟩, path, fun proposed => ?_⟩
  rcases Relation.reflTransGen_iff_eq_or_transGen.mp path with rfl | inherits
  · rw [stable] at proposed
    cases proposed
  · exact inherits

theorem mem_names_classOf_stable {declared : Structure} {name : String} :
    name ∈ ((ofModel model profile false selection).classOf declared).fields.map (·.name) ↔
      ∃ origin ∈ model.lineage declared, ∃ property ∈ origin.properties,
        property.proposed = false ∧ property.name = name := by
  refine mem_names_flattening.trans ?_
  simp only [mem_ownProperties_stable_iff, and_assoc]
  rfl

/-- Nothing proposed is generated while it is left out: no declaration, no method, no value and no
property.  Only a record that inherits from a proposed one has fields that this one declares, since
a lineage lends all its stable properties. -/
theorem analyze_stable (model : Model) (profile : Profile) (selection : Option (List String))
    (includesMethods : Bool) (ledger : Ledger) :
    let analyzer := ofModel model profile false selection
    let outline := (analyzer.analyze includesMethods ledger).1
    (∀ generated ∈ outline.classes, ∃ declared ∈ model.structures,
      declared.proposed = false ∧ generated.originalName = declared.name ∧
        (∀ field ∈ generated.fields, ∃ origin, analyzer.StableField origin field ∧
          Relation.ReflTransGen model.Inherits declared origin ∧
          (origin.proposed = true → Relation.TransGen model.Inherits declared origin)) ∧
        ∀ name, name ∈ generated.fields.map (·.name) ↔
          ∃ origin ∈ model.lineage declared, ∃ property ∈ origin.properties,
            property.proposed = false ∧ property.name = name) ∧
    (∀ generated ∈ outline.enums, ∃ declared ∈ model.enumerations,
      declared.proposed = false ∧ generated.originalName = declared.name ∧
        ∀ member ∈ generated.members, ∃ value ∈ declared.values,
          value.proposed = false ∧ member = memberOf value) ∧
    (∀ generated ∈ outline.aliases, ∃ declared ∈ model.aliases,
      declared.proposed = false ∧ generated = analyzer.aliasOf declared) ∧
    ∀ generated ∈ outline.methods, ∃ declared ∈ model.methods,
      declared.proposed = false ∧ generated = analyzer.methodOf declared := by
  intro analyzer outline
  refine ⟨?_, ?_, ?_, ?_⟩
  · intro generated listed
    obtain ⟨declared, among, rfl⟩ := List.mem_map.mp listed
    obtain ⟨known, includes⟩ := mem_structures_iff.mp among
    have stable := stable_of_includes includes
    exact ⟨declared, known, stable, rfl, fun field => stableField_of_mem stable,
      fun name => mem_names_classOf_stable⟩
  · intro generated listed
    obtain ⟨declared, among, rfl⟩ := List.mem_map.mp listed
    obtain ⟨known, includes⟩ := mem_enumerations_iff.mp among
    refine ⟨declared, known, stable_of_includes includes, rfl, fun member kept => ?_⟩
    obtain ⟨value, admitted, rfl⟩ := List.mem_map.mp kept
    obtain ⟨given, admits⟩ := List.mem_filter.mp admitted
    exact ⟨value, given, admits_stable_iff.mp admits, rfl⟩
  · intro generated listed
    obtain ⟨declared, among, rfl⟩ := List.mem_map.mp listed
    obtain ⟨known, includes⟩ := mem_aliases_iff.mp among
    exact ⟨declared, known, stable_of_includes includes, rfl⟩
  · intro generated listed
    cases includesMethods with
    | false => cases listed
    | true => exact stable_of_mem_methods listed

/-- A stable record has a field that a proposed parent declares. -/
theorem analyze_stable_proposed_parent :
    let text (name : String) : Property Node :=
      { (default : Property Node) with name, type := .base (.root "type") "string" }
    let parent : Structure :=
      { (default : Structure) with name := "P", proposed := true, properties := [text "p"] }
    let child : Structure :=
      { (default : Structure) with
        name := "C"
        properties := [text "c"]
        parents := [.reference (.root "parent") "P"] }
    let model : Model := { (default : Model) with structures := [parent, child] }
    let outline := ((ofModel model .standard false none).analyze true ⟨[], []⟩).1
    ∃ generated ∈ outline.classes, ∃ field ∈ generated.fields, ∃ origin ∈ model.structures,
      origin.proposed = true ∧ field.declaredIn = origin.name := by
  intro text parent child model outline
  let analyzer := ofModel model .standard false none
  have generated : child ∈ analyzer.structures :=
    mem_structures_iff.mpr ⟨.tail _ (.head _), by decide⟩
  have fields : (analyzer.classOf child).fields =
      [analyzer.field "P" (text "p"), analyzer.field "C" (text "c")] := by cbv
  have taken : analyzer.field "P" (text "p") ∈ (analyzer.classOf child).fields :=
    fields ▸ List.mem_cons_self
  exact ⟨_, List.mem_map_of_mem generated, _, taken, parent, List.mem_cons_self, rfl, rfl⟩

end Stable

end Analyzer

/-! ## Including what is proposed -/

/-- The names to generate for requested ones: all to which they lead, or these as they are. -/
def Model.expanded (model : Model) (includesProposed resolves : Bool) (requested : List String) :
    List String :=
  if resolves then model.closure includesProposed requested else requested

theorem Model.expanded_mono (model : Model) (resolves : Bool) (requested : List String) :
    model.expanded false resolves requested ⊆ model.expanded true resolves requested := by
  cases resolves with
  | false => exact List.Subset.refl requested
  | true => exact model.closure_mono requested

/-- What a configuration selects. -/
theorem Config.selection_eq (config : Config) (model : Model) :
    (config.selection model).1 =
      if config.types.isEmpty then none
      else some (model.expanded config.includeProposed config.resolveDeps
        config.types.eraseDups) := by
  rw [selection, Model.expanded]
  cases config.types.isEmpty <;> cases config.resolveDeps <;> rfl

/-- An outline has the declarations of another one, with the same fields and members at least. -/
structure Outline.IsPartOf (part whole : Outline) : Prop where
  classes : ∀ declared ∈ part.classes, ∃ declared' ∈ whole.classes,
    declared'.originalName = declared.originalName
  fields : ∀ declared ∈ part.classes, ∀ declared' ∈ whole.classes,
    declared'.originalName = declared.originalName →
      declared.fields.map (·.name) ⊆ declared'.fields.map (·.name)
  enums : ∀ declared ∈ part.enums, ∃ declared' ∈ whole.enums,
    declared'.originalName = declared.originalName
  members : ∀ declared ∈ part.enums, ∀ declared' ∈ whole.enums,
    declared'.originalName = declared.originalName →
      declared.members.Sublist declared'.members
  aliases : ∀ declared ∈ part.aliases, ∃ declared' ∈ whole.aliases,
    declared'.originalName = declared.originalName

namespace Analyzer

/-- An analyzer that leaves out no more of a protocol than another one. -/
structure Grows (part whole : Analyzer) : Prop where
  model : whole.model = part.model
  admits : ∀ proposed, part.admits proposed = true → whole.admits proposed = true
  selects : ∀ name, part.selects name = true → whole.selects name = true

namespace Grows

variable {part whole : Analyzer} (grows : part.Grows whole)

include grows

theorem includes {name : String} {proposed : Bool}
    (included : part.includes name proposed = true) : whole.includes name proposed = true := by
  obtain ⟨admitted, selected⟩ := Bool.and_eq_true_iff.mp included
  exact Bool.and_eq_true_iff.mpr ⟨grows.admits proposed admitted, grows.selects name selected⟩

theorem mem_structures {declared : Structure} (generated : declared ∈ part.structures) :
    declared ∈ whole.structures := by
  obtain ⟨listed, included⟩ := mem_structures_iff.mp generated
  exact mem_structures_iff.mpr ⟨grows.model ▸ listed, grows.includes included⟩

theorem mem_enumerations {declared : Enumeration} (generated : declared ∈ part.enumerations) :
    declared ∈ whole.enumerations := by
  obtain ⟨listed, included⟩ := mem_enumerations_iff.mp generated
  exact mem_enumerations_iff.mpr ⟨grows.model ▸ listed, grows.includes included⟩

theorem mem_aliases {declared : TypeAlias} (generated : declared ∈ part.aliases) :
    declared ∈ whole.aliases := by
  obtain ⟨listed, included⟩ := mem_aliases_iff.mp generated
  exact mem_aliases_iff.mpr ⟨grows.model ▸ listed, grows.includes included⟩

theorem filter_admits_sublist {α : Type} (proposed : α → Bool) (items : List α) :
    (items.filter fun item => part.admits (proposed item)).Sublist
      (items.filter fun item => whole.admits (proposed item)) :=
  List.monotone_filter_right items fun item => grows.admits (proposed item)

theorem names_classOf (declared : Structure) :
    (part.classOf declared).fields.map (·.name) ⊆ (whole.classOf declared).fields.map (·.name) := by
  intro name listed
  obtain ⟨origin, above, property, own, named⟩ := mem_names_flattening.mp listed
  have kept := (grows.filter_admits_sublist Property.proposed origin.properties).subset own
  exact mem_names_flattening.mpr ⟨origin, grows.model ▸ above, property, kept, named⟩

theorem members_enumOf (declared : Enumeration) :
    (part.enumOf declared).members.Sublist (whole.enumOf declared).members :=
  (grows.filter_admits_sublist EnumValue.proposed declared.values).map memberOf

theorem map_method_methods (all : part.selection = none) (all' : whole.selection = none) :
    (part.methods.map (·.method)).Sublist (whole.methods.map (·.method)) := by
  rw [map_method_methods_of_all all, map_method_methods_of_all all']
  apply Text.map_sortedBy_sublist
  rw [grows.model]
  exact (grows.filter_admits_sublist ProtocolMethod.proposed part.model.methods).map _

/-- Names of records and enumerations have to be distinct, since declarations of one name may have
different fields and members. -/
theorem isPartOf_analyze (structures : (part.model.structures.map (·.name)).Nodup)
    (enumerations : (part.model.enumerations.map (·.name)).Nodup) (includesMethods : Bool)
    (ledger ledger' : Ledger) :
    (part.analyze includesMethods ledger).1.IsPartOf (whole.analyze includesMethods ledger').1 := by
  constructor
  · intro generated listed
    obtain ⟨declared, among, rfl⟩ := List.mem_map.mp listed
    exact ⟨_, List.mem_map_of_mem (grows.mem_structures among), rfl⟩
  · intro generated listed generated' listed' equal
    obtain ⟨declared, among, rfl⟩ := List.mem_map.mp listed
    obtain ⟨declared', among', rfl⟩ := List.mem_map.mp listed'
    have known := (mem_structures_iff.mp among).1
    have known' := grows.model ▸ (mem_structures_iff.mp among').1
    obtain rfl : declared' = declared := List.inj_on_of_nodup_map structures known' known equal
    exact grows.names_classOf declared'
  · intro generated listed
    obtain ⟨declared, among, rfl⟩ := List.mem_map.mp listed
    exact ⟨_, List.mem_map_of_mem (grows.mem_enumerations among), rfl⟩
  · intro generated listed generated' listed' equal
    obtain ⟨declared, among, rfl⟩ := List.mem_map.mp listed
    obtain ⟨declared', among', rfl⟩ := List.mem_map.mp listed'
    have known := (mem_enumerations_iff.mp among).1
    have known' := grows.model ▸ (mem_enumerations_iff.mp among').1
    obtain rfl : declared' = declared := List.inj_on_of_nodup_map enumerations known' known equal
    exact grows.members_enumOf declared'
  · intro generated listed
    obtain ⟨declared, among, rfl⟩ := List.mem_map.mp listed
    exact ⟨_, List.mem_map_of_mem (grows.mem_aliases among), rfl⟩

end Grows

theorem grows_ofModel {model : Model} {profile : Profile}
    {selection selection' : Option (List String)}
    (more : ∀ name, (ofModel model profile false selection).selects name = true →
      (ofModel model profile true selection').selects name = true) :
    (ofModel model profile false selection).Grows (ofModel model profile true selection') where
  model := rfl
  admits := fun _ _ => rfl
  selects := more

theorem grows_expanded (model : Model) (profile : Profile) (resolves : Bool)
    (requested : Option (List String)) :
    (ofModel model profile false (requested.map (model.expanded false resolves))).Grows
      (ofModel model profile true (requested.map (model.expanded true resolves))) := by
  apply grows_ofModel
  cases requested with
  | none => exact fun _ _ => rfl
  | some names =>
      intro name selected
      have expanded := selects_some_iff.mp selected
      exact selects_some_iff.mpr (model.expanded_mono resolves names expanded)

/-- Including what is proposed only adds: to the names that are generated, to the declarations of an
outline and, if all are generated, to its methods.  Without a request all are generated. -/
theorem analyze_including_proposed (model : Model) (profile : Profile) (resolves : Bool)
    (requested : Option (List String)) (includesMethods : Bool) (ledger ledger' : Ledger)
    (structures : (model.structures.map (·.name)).Nodup)
    (enumerations : (model.enumerations.map (·.name)).Nodup) :
    let analyzer (includesProposed : Bool) := ofModel model profile includesProposed
      (requested.map (model.expanded includesProposed resolves))
    let stable := ((analyzer false).analyze includesMethods ledger).1
    let full := ((analyzer true).analyze includesMethods ledger').1
    (∀ names ∈ requested,
        model.expanded false resolves names ⊆ model.expanded true resolves names) ∧
      stable.IsPartOf full ∧
      (requested = none →
        (stable.methods.map (·.method)).Sublist (full.methods.map (·.method))) := by
  intro analyzer stable full
  have grows : (analyzer false).Grows (analyzer true) :=
    grows_expanded model profile resolves requested
  refine ⟨fun names _ => model.expanded_mono resolves names, ?_, ?_⟩
  · exact grows.isPartOf_analyze structures enumerations includesMethods ledger ledger'
  · rintro rfl
    cases includesMethods with
    | false => exact .slnil
    | true => exact grows.map_method_methods rfl rfl

/-- A requested record leads to a second one by a proposed property. -/
theorem analyze_including_proposed_property :
    let property (name target : String) (proposed : Bool) : Property Node :=
      { (default : Property Node) with
        name, proposed
        type := .reference (.root "type") target }
    let edit : Structure :=
      { (default : Structure) with
        name := "Edit"
        properties := [property "range" "Range" false, property "draft" "Draft" true] }
    let range : Structure := { (default : Structure) with name := "Range" }
    let draft : Structure := { (default : Structure) with name := "Draft" }
    let model : Model := { (default : Model) with structures := [edit, range, draft] }
    let outline (includesProposed : Bool) : Outline :=
      ((ofModel model .standard includesProposed
        (some (model.closure includesProposed ["Edit"]))).analyze true ⟨[], []⟩).1
    (model.structures.map (·.name)).Nodup ∧ (model.enumerations.map (·.name)).Nodup ∧
      (outline false).classes.map (·.originalName) = ["Edit", "Range"] ∧
      (outline true).classes.map (·.originalName) = ["Draft", "Edit", "Range"] ∧
      (outline false).IsPartOf (outline true) := by
  intro property edit range draft model outline
  have structures : (model.structures.map (·.name)).Nodup := by decide
  have enumerations : (model.enumerations.map (·.name)).Nodup := by decide
  obtain ⟨_, isPart, _⟩ := analyze_including_proposed model .standard true (some ["Edit"]) true
    ⟨[], []⟩ ⟨[], []⟩ structures enumerations
  exact ⟨structures, enumerations, by cbv, by cbv, isPart⟩

end Analyzer
end ProtocolCodegen
