import ProtocolCodegen.Proofs.Outline.Agreement
import ProtocolCodegen.Proofs.Outline.WrittenTypes

/-!
# Analyses with changed types

Which declarations are generated, in which order they stand and how they are named does not depend
on how types are lowered.  Where one lowerer changes each type of a protocol that another one gives,
the outlines and the ledgers of the two analyses differ in these types alone.
-/

namespace ProtocolCodegen

theorem map_eq_map_map {α β γ : Type} {change : β → γ} {make : α → β} {make' : α → γ}
    {items : List α} (each : ∀ item ∈ items, make' item = change (make item)) :
    items.map make' = (items.map make).map change := by
  rw [List.map_map]
  exact List.map_congr_left each

/-! ## Outlines with changed types -/

namespace Outline

variable (change : Descriptor → Descriptor)

/-- A field of a changed type. -/
def Field.mapTypes (field : Field) : Field :=
  { field with type := field.type.map change }

/-- A class whose fields have changed types. -/
def Class.mapTypes (declared : Class) : Class :=
  { declared with fields := declared.fields.map (·.mapTypes change) }

/-- An alias of a changed type. -/
def Alias.mapTypes (declared : Alias) : Alias :=
  { declared with target := declared.target.map change }

/-- A method with parameters and answers of changed types. -/
def Method.mapTypes (method : Method) : Method :=
  { method with
    params := method.params.map change
    result := method.result.map change }

/-- An outline in which nothing is changed but types. -/
def mapTypes (outline : Outline) : Outline :=
  { outline with
    classes := outline.classes.map (·.mapTypes change)
    aliases := outline.aliases.map (·.mapTypes change)
    methods := outline.methods.map (·.mapTypes change)
    composites := outline.composites.map fun entry => (entry.1, entry.2.mapTypes change) }

end Outline

/-- A state of flattening with fields of changed types. -/
def Flattening.mapTypes (change : Descriptor → Descriptor) (state : Flattening) : Flattening :=
  { state with fields := state.fields.map (·.mapTypes change) }

namespace Analyzer

theorem addField_map (change : Descriptor → Descriptor) (fields : List Outline.Field)
    (field : Outline.Field) :
    addField (fields.map (·.mapTypes change)) (field.mapTypes change) =
      (addField fields field).map (·.mapTypes change) := by
  rw [addField, addField, List.map_append, List.filter_map]
  rfl

theorem addFields_map (change : Descriptor → Descriptor) (fields added : List Outline.Field) :
    addFields (fields.map (·.mapTypes change)) (added.map (·.mapTypes change)) =
      (addFields fields added).map (·.mapTypes change) := by
  rw [addFields, addFields, List.foldl_map]
  exact List.foldl_hom _ (addField_map change)

/-! ## Analyses with changed types -/

/-- Of two analyzers of a protocol that select alike, the second changes its types. -/
structure Retypes (change : Descriptor → Descriptor) (analyzer analyzer' : Analyzer) : Prop where
  model : analyzer'.model = analyzer.model
  selection : analyzer'.selection = analyzer.selection
  lowerer : Lowerer.Retypes change analyzer.model.referencedNames analyzer.lowerer analyzer'.lowerer

namespace Retypes

variable {change : Descriptor → Descriptor} {analyzer analyzer' : Analyzer}
  (retypes : Retypes change analyzer analyzer')

include retypes

theorem choosesAlike : analyzer.ChoosesAlike analyzer' where
  naming := retypes.lowerer.shares.naming
  includesProposed := retypes.lowerer.shares.includesProposed
  selection := retypes.selection
  sortedStructures := by rw [retypes.model]
  sortedEnumerations := by rw [retypes.model]
  sortedAliases := by rw [retypes.model]

theorem descriptor_eq {node : Node} (stands : analyzer.model.HasNode node) :
    analyzer'.lowerer.descriptor node = change (analyzer.lowerer.descriptor node) :=
  retypes.lowerer.descriptor_eq (Model.references_subset_of_hasNode stands)

theorem map_descriptor {node : Option Node}
    (stands : ∀ whole, node = some whole → analyzer.model.HasNode whole) :
    node.map analyzer'.lowerer.descriptor =
      (node.map analyzer.lowerer.descriptor).map change := by
  cases node with
  | none => rfl
  | some whole => exact congrArg some (retypes.descriptor_eq (stands whole rfl))

theorem descriptorOf_eq {node : Option Node}
    (stands : ∀ whole, node = some whole → analyzer.model.HasNode whole) :
    analyzer'.lowerer.descriptorOf node = change (analyzer.lowerer.descriptorOf node) := by
  cases node with
  | none => exact retypes.lowerer.anything_eq
  | some whole => exact retypes.descriptor_eq (stands whole rfl)

theorem enrollOf_mapTypes {node : Option Node}
    (stands : ∀ whole, node = some whole → analyzer.model.HasNode whole) (ledger : Ledger) :
    analyzer'.lowerer.enrollOf node (ledger.mapTypes change) =
      (analyzer.lowerer.enrollOf node ledger).mapTypes change := by
  cases node with
  | none => rfl
  | some whole =>
      exact retypes.lowerer.enroll_mapTypes (Model.references_subset_of_hasNode (stands whole rfl))
        ledger

theorem field_eq {declared : Structure} {property : Property Node}
    (known : declared ∈ analyzer.model.structures) (own : property ∈ declared.properties) :
    analyzer'.field declared.name property =
      (analyzer.field declared.name property).mapTypes change := by
  rw [field, field, retypes.descriptor_eq (Model.hasNode_property known own)]
  rfl

theorem inherit_mapTypes {flatten flatten' : Structure → List String → Flattening}
    (each : ∀ declared ∈ analyzer.model.structures, ∀ seen,
      flatten' declared seen = (flatten declared seen).mapTypes change)
    (child : String) (state : Flattening) (parent : Node) :
    analyzer'.inherit flatten' child (state.mapTypes change) parent =
      (analyzer.inherit flatten child state parent).mapTypes change := by
  cases parent with
  | reference source name =>
      rw [inherit, inherit, retypes.model]
      cases found : analyzer.model.declaredStructure? name with
      | none => rfl
      | some declared =>
          have known := (Model.declaredStructure?_eq_some_iff.mp found).2.mem
          simp only [Flattening.mapTypes, each declared known, addFields_map]
  | _ => rfl

theorem foldl_inherit_mapTypes {flatten flatten' : Structure → List String → Flattening}
    (each : ∀ declared ∈ analyzer.model.structures, ∀ seen,
      flatten' declared seen = (flatten declared seen).mapTypes change)
    (child : String) (state : Flattening) (parents : List Node) :
    parents.foldl (analyzer'.inherit flatten' child) (state.mapTypes change) =
      (parents.foldl (analyzer.inherit flatten child) state).mapTypes change :=
  List.foldl_hom _ (retypes.inherit_mapTypes each child)

/-- Flattening enters the same records in the same order. -/
theorem flatten_eq (depth : Nat) {declared : Structure}
    (known : declared ∈ analyzer.model.structures) (seen : List String) :
    analyzer'.flatten depth declared seen =
      (analyzer.flatten depth declared seen).mapTypes change := by
  induction depth generalizing declared seen with
  | zero => rfl
  | succ depth induction =>
      have inherited : (declared.parents ++ declared.mixins).foldl
          (analyzer'.inherit (analyzer'.flatten depth) declared.name)
            ⟨[], declared.name :: seen, []⟩ =
          ((declared.parents ++ declared.mixins).foldl
            (analyzer.inherit (analyzer.flatten depth) declared.name)
              ⟨[], declared.name :: seen, []⟩).mapTypes change :=
        retypes.foldl_inherit_mapTypes (fun _ => induction) declared.name
          ⟨[], declared.name :: seen, []⟩ (declared.parents ++ declared.mixins)
      have own : (declared.properties.filter fun property =>
            analyzer.admits property.proposed).map (analyzer'.field declared.name) =
          ((declared.properties.filter fun property =>
            analyzer.admits property.proposed).map (analyzer.field declared.name)).map
              (·.mapTypes change) :=
        map_eq_map_map fun property kept =>
          retypes.field_eq known (List.mem_of_mem_filter kept)
      rw [flatten, flatten]
      split
      · rfl
      · simp only [inherited, retypes.choosesAlike.admits_eq, own, Flattening.mapTypes,
          addFields_map]

theorem flattening_eq {declared : Structure} (known : declared ∈ analyzer.model.structures) :
    analyzer'.flattening declared = (analyzer.flattening declared).mapTypes change := by
  rw [flattening, flattening, retypes.model, retypes.flatten_eq _ known]

theorem classOf_eq {declared : Structure} (known : declared ∈ analyzer.model.structures) :
    analyzer'.classOf declared = (analyzer.classOf declared).mapTypes change := by
  rw [classOf, classOf, retypes.choosesAlike.typeName_eq, retypes.flattening_eq known]
  rfl

theorem aliasOf_eq {declared : TypeAlias} (known : declared ∈ analyzer.model.aliases) :
    analyzer'.aliasOf declared = (analyzer.aliasOf declared).mapTypes change := by
  rw [aliasOf, aliasOf, retypes.choosesAlike.typeName_eq,
    retypes.descriptorOf_eq fun _ => Model.hasNode_alias known]
  rfl

theorem requestOf_eq {request : Request} (known : request ∈ analyzer.model.requests) :
    analyzer'.requestOf request = (analyzer.requestOf request).mapTypes change := by
  rw [requestOf, requestOf,
    retypes.map_descriptor fun _ typed => Model.hasNode_request known (.inl typed),
    retypes.map_descriptor fun _ typed => Model.hasNode_request known (.inr typed)]
  rfl

theorem notificationOf_eq {notification : Notification}
    (known : notification ∈ analyzer.model.notifications) :
    analyzer'.notificationOf notification =
      (analyzer.notificationOf notification).mapTypes change := by
  rw [notificationOf, notificationOf,
    retypes.map_descriptor fun _ => Model.hasNode_notification known]
  rfl

theorem methods_eq : analyzer'.methods = analyzer.methods.map (·.mapTypes change) := by
  have requests : analyzer.requests.map analyzer'.requestOf =
      (analyzer.requests.map analyzer.requestOf).map (·.mapTypes change) :=
    map_eq_map_map fun request kept => retypes.requestOf_eq (List.mem_of_mem_filter kept)
  have notifications : analyzer.notifications.map analyzer'.notificationOf =
      (analyzer.notifications.map analyzer.notificationOf).map (·.mapTypes change) :=
    map_eq_map_map fun notification kept =>
      retypes.notificationOf_eq (List.mem_of_mem_filter kept)
  have chooses := retypes.choosesAlike
  rw [methods, methods, chooses.requests_eq (by rw [retypes.model]),
    chooses.notifications_eq (by rw [retypes.model]), requests, notifications, ← List.map_append,
    Text.sortedBy_map]
  rfl

/-- The same types are lowered in the same order. -/
theorem steps_eq (includesMethods : Bool) :
    analyzer'.steps includesMethods = analyzer.steps includesMethods := by
  have chooses := retypes.choosesAlike
  have flattened : analyzer.structures.flatMap (fun declared =>
        (analyzer'.flattening declared).steps) =
      analyzer.structures.flatMap fun declared => (analyzer.flattening declared).steps := by
    refine List.flatMap_congr fun declared generated => ?_
    rw [retypes.flattening_eq (mem_structures_iff.mp generated).1]
    rfl
  rw [steps, steps, declarationSteps, declarationSteps, methodSteps, methodSteps,
    chooses.structures_eq, chooses.aliases_eq, chooses.requests_eq (by rw [retypes.model]),
    chooses.notifications_eq (by rw [retypes.model]), flattened]

theorem run_mapTypes {includesMethods : Bool} {step : AnalysisStep}
    (taken : step ∈ analyzer.steps includesMethods) (ledger : Ledger) :
    step.run analyzer'.lowerer (ledger.mapTypes change) =
      (step.run analyzer.lowerer ledger).mapTypes change := by
  cases step with
  | lower node =>
      refine retypes.enrollOf_mapTypes (fun whole typed => ?_) ledger
      exact hasNode_of_lowered (typed ▸ taken)
  | unknownParent child parent => rfl

theorem enrolled_mapTypes (includesMethods : Bool) (ledger : Ledger) :
    analyzer'.enrolled includesMethods (ledger.mapTypes change) =
      (analyzer.enrolled includesMethods ledger).mapTypes change := by
  rw [enrolled, enrolled, retypes.steps_eq]
  exact foldl_hom_of_mem (fun step taken => retypes.run_mapTypes taken) ledger

theorem outline_mapTypes (includesMethods : Bool) (ledger : Ledger) :
    analyzer'.outline includesMethods (ledger.mapTypes change) =
      (analyzer.outline includesMethods ledger).mapTypes change := by
  have chooses := retypes.choosesAlike
  have classes : analyzer.structures.map analyzer'.classOf =
      (analyzer.structures.map analyzer.classOf).map (·.mapTypes change) :=
    map_eq_map_map fun declared generated =>
      retypes.classOf_eq (mem_structures_iff.mp generated).1
  have aliases : analyzer.aliases.map analyzer'.aliasOf =
      (analyzer.aliases.map analyzer.aliasOf).map (·.mapTypes change) :=
    map_eq_map_map fun declared generated =>
      retypes.aliasOf_eq (mem_aliases_iff.mp generated).1
  have methods : (if includesMethods then analyzer'.methods else []) =
      (if includesMethods then analyzer.methods else []).map (·.mapTypes change) := by
    cases includesMethods with
    | false => rfl
    | true => exact retypes.methods_eq
  simp only [outline, retypes.model, chooses.structures_eq, chooses.enumerations_eq,
    chooses.aliases_eq, chooses.enumOf_eq, classes, aliases, methods,
    Ledger.sortedComposites_mapTypes, Outline.mapTypes]

/-- Only types change in the outline and in the ledger. -/
theorem analyze_mapTypes (includesMethods : Bool) (ledger : Ledger) :
    analyzer'.analyze includesMethods (ledger.mapTypes change) =
      ((analyzer.analyze includesMethods ledger).1.mapTypes change,
        (analyzer.analyze includesMethods ledger).2.mapTypes change) := by
  simp only [analyze, retypes.enrolled_mapTypes, retypes.outline_mapTypes, Outline.mapTypes,
    List.length_map, Ledger.log_mapTypes]

end Retypes
end Analyzer
end ProtocolCodegen
