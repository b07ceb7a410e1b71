import ProtocolCodegen.Generation
import ProtocolCodegen.Proofs.Lowering.Unplaced
import ProtocolCodegen.Proofs.Outline.Retyping

/-!
# Outlines of protocols without places

Once a protocol is read, nothing looks at where its types stand.  Without these places every type is
lowered alike, the same declarations are generated, and the same is told and written.
-/

namespace ProtocolCodegen

/-! ## Analyses -/

/-- A step that lowers a type without its place. -/
def AnalysisStep.unplaced : AnalysisStep → AnalysisStep
  | .lower node => .lower (node.map Node.unplaced)
  | .unknownParent child parent => .unknownParent child parent

theorem AnalysisStep.run_unplaced (lowerer : Lowerer) (ledger : Ledger) (step : AnalysisStep) :
    step.unplaced.run lowerer ledger = step.run lowerer ledger := by
  cases step with
  | lower node => exact lowerer.enrollOf_unplaced node ledger
  | unknownParent child parent => rfl

/-- A state of flattening whose steps lower types without their places. -/
def Flattening.unplaced (state : Flattening) : Flattening :=
  { state with steps := state.steps.map AnalysisStep.unplaced }

namespace Analyzer

/-- The analyzer of a protocol without places. -/
def unplaced (analyzer : Analyzer) : Analyzer :=
  { analyzer with model := analyzer.model.unplaced }

variable (analyzer : Analyzer)

theorem field_unplaced (declaredIn : String) (property : Property Node) :
    analyzer.unplaced.field declaredIn property.unplaced = analyzer.field declaredIn property := by
  rw [field, field, unplaced, Property.unplaced, Lowerer.descriptor_unplaced]

theorem inherit_unplaced {flatten flatten' : Structure → List String → Flattening}
    (each : ∀ declared seen, flatten' declared.unplaced seen = (flatten declared seen).unplaced)
    (child : String) (state : Flattening) (parent : Node) :
    analyzer.unplaced.inherit flatten' child state.unplaced parent.unplaced =
      (analyzer.inherit flatten child state parent).unplaced := by
  cases parent with
  | reference source name =>
      rw [Node.unplaced, inherit, inherit, unplaced, Model.declaredStructure?_unplaced]
      cases analyzer.model.declaredStructure? name with
      | none => simp [Flattening.unplaced, AnalysisStep.unplaced]
      | some declared => simp [Flattening.unplaced, each]
  | _ => rfl

theorem foldl_inherit_unplaced {flatten flatten' : Structure → List String → Flattening}
    (each : ∀ declared seen, flatten' declared.unplaced seen = (flatten declared seen).unplaced)
    (child : String) (state : Flattening) (parents : List Node) :
    (parents.map Node.unplaced).foldl (analyzer.unplaced.inherit flatten' child) state.unplaced =
      (parents.foldl (analyzer.inherit flatten child) state).unplaced := by
  induction parents generalizing state with
  | nil => rfl
  | cons parent rest induction =>
      rw [List.map_cons, List.foldl_cons, List.foldl_cons, analyzer.inherit_unplaced each,
        induction]

/-- Flattening enters the same records in the same order. -/
theorem flatten_unplaced (depth : Nat) (declared : Structure) (seen : List String) :
    analyzer.unplaced.flatten depth declared.unplaced seen =
      (analyzer.flatten depth declared seen).unplaced := by
  induction depth generalizing declared seen with
  | zero => rfl
  | succ depth induction =>
      have inherited : ((declared.parents ++ declared.mixins).map Node.unplaced).foldl
          (analyzer.unplaced.inherit (analyzer.unplaced.flatten depth) declared.name)
            ⟨[], declared.name :: seen, []⟩ =
          ((declared.parents ++ declared.mixins).foldl
            (analyzer.inherit (analyzer.flatten depth) declared.name)
              ⟨[], declared.name :: seen, []⟩).unplaced :=
        analyzer.foldl_inherit_unplaced induction declared.name
          ⟨[], declared.name :: seen, []⟩ (declared.parents ++ declared.mixins)
      have own : (declared.properties.map Property.unplaced).filter
            (fun property => analyzer.unplaced.admits property.proposed) =
          (declared.properties.filter fun property =>
            analyzer.admits property.proposed).map Property.unplaced := List.filter_map
      have fields (properties : List (Property Node)) :
          (properties.map Property.unplaced).map (analyzer.unplaced.field declared.name) =
            properties.map (analyzer.field declared.name) := by
        rw [List.map_map]
        exact List.map_congr_left fun property _ => analyzer.field_unplaced declared.name property
      rw [flatten, flatten]
      simp only [Structure.unplaced, ← List.map_append]
      split
      · rfl
      · rw [inherited, own, fields]
        simp [Flattening.unplaced, AnalysisStep.unplaced, Property.unplaced, Function.comp_def]

theorem flattening_unplaced (declared : Structure) :
    analyzer.unplaced.flattening declared.unplaced = (analyzer.flattening declared).unplaced := by
  have length : analyzer.unplaced.model.structures.length = analyzer.model.structures.length :=
    List.length_map _
  rw [flattening, flattening, length, flatten_unplaced]

theorem classOf_unplaced (declared : Structure) :
    analyzer.unplaced.classOf declared.unplaced = analyzer.classOf declared := by
  rw [classOf, classOf, flattening_unplaced]
  rfl

theorem enumOf_unplaced (declared : Enumeration) :
    analyzer.unplaced.enumOf declared.unplaced = analyzer.enumOf declared := by
  have category : enumCategory (declared.type.map Node.unplaced) = enumCategory declared.type := by
    rcases declared.type with _ | ⟨_ | _ | _ | _ | _ | _ | _ | _ | _⟩ <;> rfl
  rw [enumOf, enumOf, Enumeration.unplaced, category]
  rfl

theorem aliasOf_unplaced (declared : TypeAlias) :
    analyzer.unplaced.aliasOf declared.unplaced = analyzer.aliasOf declared := by
  rw [aliasOf, aliasOf, unplaced, TypeAlias.unplaced, Lowerer.descriptorOf_unplaced]
  rfl

theorem requestOf_unplaced (request : Request) :
    analyzer.unplaced.requestOf request.unplaced = analyzer.requestOf request := by
  rw [requestOf, requestOf, unplaced, Request.unplaced, Lowerer.map_descriptor_unplaced,
    Lowerer.map_descriptor_unplaced]

theorem notificationOf_unplaced (notification : Notification) :
    analyzer.unplaced.notificationOf notification.unplaced =
      analyzer.notificationOf notification := by
  rw [notificationOf, notificationOf, unplaced, Notification.unplaced,
    Lowerer.map_descriptor_unplaced]

/-! ## Selected declarations -/

theorem selectsReferences_unplaced (node : Option Node) :
    analyzer.unplaced.selectsReferences (node.map Node.unplaced) =
      analyzer.selectsReferences node := by
  rw [selectsReferences, selectsReferences, Node.referenceSet_unplaced]
  rfl

theorem structures_unplaced :
    analyzer.unplaced.structures = analyzer.structures.map Structure.unplaced := by
  rw [structures, structures, unplaced, Model.unplaced, Text.sortedBy_map, List.filter_map]
  rfl

theorem enumerations_unplaced :
    analyzer.unplaced.enumerations = analyzer.enumerations.map Enumeration.unplaced := by
  rw [enumerations, enumerations, unplaced, Model.unplaced, Text.sortedBy_map, List.filter_map]
  rfl

theorem aliases_unplaced :
    analyzer.unplaced.aliases = analyzer.aliases.map TypeAlias.unplaced := by
  rw [aliases, aliases, unplaced, Model.unplaced, Text.sortedBy_map, List.filter_map]
  rfl

theorem requests_unplaced :
    analyzer.unplaced.requests = analyzer.requests.map Request.unplaced := by
  have kept (request : Request) :
      (analyzer.unplaced.admits request.unplaced.proposed &&
          analyzer.unplaced.selectsReferences request.unplaced.params &&
          analyzer.unplaced.selectsReferences request.unplaced.result) =
        (analyzer.admits request.proposed && analyzer.selectsReferences request.params &&
          analyzer.selectsReferences request.result) := by
    simp only [Request.unplaced, selectsReferences_unplaced]
    rfl
  rw [requests, requests, unplaced, Model.unplaced, List.filter_map]
  exact congrArg (List.map _) (List.filter_congr fun request _ => kept request)

theorem notifications_unplaced :
    analyzer.unplaced.notifications = analyzer.notifications.map Notification.unplaced := by
  have kept (notification : Notification) :
      (analyzer.unplaced.admits notification.unplaced.proposed &&
          analyzer.unplaced.selectsReferences notification.unplaced.params) =
        (analyzer.admits notification.proposed &&
          analyzer.selectsReferences notification.params) := by
    simp only [Notification.unplaced, selectsReferences_unplaced]
    rfl
  rw [notifications, notifications, unplaced, Model.unplaced, List.filter_map]
  exact congrArg (List.map _) (List.filter_congr fun notification _ => kept notification)

theorem methods_unplaced : analyzer.unplaced.methods = analyzer.methods := by
  rw [methods, methods, requests_unplaced, notifications_unplaced, List.map_map, List.map_map]
  exact congrArg₂ (fun requests notifications =>
      Text.sortedBy (·.method) (requests ++ notifications))
    (List.map_congr_left fun request _ => analyzer.requestOf_unplaced request)
    (List.map_congr_left fun notification _ => analyzer.notificationOf_unplaced notification)

/-! ## Steps -/

theorem declarationSteps_unplaced :
    analyzer.unplaced.declarationSteps =
      analyzer.declarationSteps.map AnalysisStep.unplaced := by
  have flattened : (analyzer.structures.map Structure.unplaced).flatMap
        (fun declared => (analyzer.unplaced.flattening declared).steps) =
      (analyzer.structures.flatMap fun declared =>
        (analyzer.flattening declared).steps).map AnalysisStep.unplaced := by
    rw [List.flatMap_map, List.map_flatMap]
    refine List.flatMap_congr fun declared _ => ?_
    rw [flattening_unplaced]
    rfl
  rw [declarationSteps, declarationSteps, structures_unplaced, aliases_unplaced, flattened,
    List.map_append, List.map_map, List.map_map]
  rfl

theorem lowerPresent_unplaced (node : Option Node) :
    lowerPresent (node.map Node.unplaced) = (lowerPresent node).map AnalysisStep.unplaced := by
  cases node <;> rfl

theorem methodSteps_unplaced :
    analyzer.unplaced.methodSteps = analyzer.methodSteps.map AnalysisStep.unplaced := by
  rw [methodSteps, methodSteps, requests_unplaced, notifications_unplaced, List.map_append,
    List.map_flatMap, List.map_flatMap, List.flatMap_map, List.flatMap_map]
  simp only [Request.unplaced, Notification.unplaced, lowerPresent_unplaced, List.map_append]

theorem steps_unplaced (includesMethods : Bool) :
    analyzer.unplaced.steps includesMethods =
      (analyzer.steps includesMethods).map AnalysisStep.unplaced := by
  rw [steps, steps, declarationSteps_unplaced, methodSteps_unplaced, List.map_append]
  split <;> rfl

theorem enrolled_unplaced (includesMethods : Bool) (ledger : Ledger) :
    analyzer.unplaced.enrolled includesMethods ledger =
      analyzer.enrolled includesMethods ledger := by
  rw [enrolled, enrolled, steps_unplaced, List.foldl_map]
  simp only [AnalysisStep.run_unplaced]
  rfl

theorem outline_unplaced (includesMethods : Bool) (ledger : Ledger) :
    analyzer.unplaced.outline includesMethods ledger =
      analyzer.outline includesMethods ledger := by
  simp only [outline, structures_unplaced, enumerations_unplaced, aliases_unplaced,
    methods_unplaced, List.map_map, Function.comp_def, classOf_unplaced, enumOf_unplaced,
    aliasOf_unplaced]
  rfl

/-- An analysis does not look at where types stand. -/
theorem analyze_unplaced (includesMethods : Bool) (ledger : Ledger) :
    analyzer.unplaced.analyze includesMethods ledger =
      analyzer.analyze includesMethods ledger := by
  rw [analyze, analyze, enrolled_unplaced, outline_unplaced]

theorem ofModel_unplaced (model : Model) (profile : Profile) (includesProposed : Bool)
    (selection : Option (List String)) :
    ofModel model.unplaced profile includesProposed selection =
      (ofModel model profile includesProposed selection).unplaced := by
  rw [ofModel, ofModel, Lowerer.ofModel, Lowerer.ofModel, model.proposedFlags_unplaced]
  rfl

end Analyzer

/-! ## Generations -/

section Generation

variable (config : Config) (language : Language) (model : Model)

theorem Config.selection_unplaced : config.selection model.unplaced = config.selection model := by
  simp only [Config.selection, model.resolve_unplaced, model.undeclared_unplaced]

theorem Config.outline_unplaced (profile : Profile) :
    config.outline language profile model.unplaced = config.outline language profile model := by
  simp only [Config.outline, config.selection_unplaced, Analyzer.ofModel_unplaced,
    Analyzer.analyze_unplaced]

/-- A generation does not look at where types stand. -/
theorem generate_unplaced (languageName : String) (command : Except FileError String) :
    generate config language languageName model.unplaced command =
      generate config language languageName model command := by
  have version : model.unplaced.version = model.version := rfl
  simp only [generate, config.outline_unplaced, version]

end Generation
end ProtocolCodegen
