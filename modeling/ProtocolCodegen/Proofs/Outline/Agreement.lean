import ProtocolCodegen.Proofs.Lowering.Agreement
import ProtocolCodegen.Proofs.Outline.Selection

/-!
# Analyzers that agree

What an analyzer looks up of a protocol are the records of names, its types in the order of their
names, and its methods.  Analyzers that find the same and lower types alike give the same outline of
every declaration and lower the same types in the same order.
-/

namespace ProtocolCodegen

namespace Analyzer

/-! ## The same choice -/

/-- Two analyzers that choose the same declarations in the same order and name them alike. -/
structure ChoosesAlike (analyzer analyzer' : Analyzer) : Prop where
  naming : analyzer'.lowerer.profile.naming = analyzer.lowerer.profile.naming
  includesProposed : analyzer'.lowerer.includesProposed = analyzer.lowerer.includesProposed
  selection : analyzer'.selection = analyzer.selection
  sortedStructures : Text.sortedBy (·.name) analyzer'.model.structures =
    Text.sortedBy (·.name) analyzer.model.structures
  sortedEnumerations : Text.sortedBy (·.name) analyzer'.model.enumerations =
    Text.sortedBy (·.name) analyzer.model.enumerations
  sortedAliases : Text.sortedBy (·.name) analyzer'.model.aliases =
    Text.sortedBy (·.name) analyzer.model.aliases

namespace ChoosesAlike

variable {analyzer analyzer' : Analyzer} (chooses : analyzer.ChoosesAlike analyzer')

include chooses

theorem admits_eq : analyzer'.admits = analyzer.admits := by
  funext proposed
  rw [admits, admits, chooses.includesProposed]

theorem selects_eq : analyzer'.selects = analyzer.selects := by
  funext name
  rw [selects, selects, chooses.selection]

theorem includes_eq (name : String) (proposed : Bool) :
    analyzer'.includes name proposed = analyzer.includes name proposed := by
  rw [includes, includes, chooses.admits_eq, chooses.selects_eq]

theorem selectsReferences_eq (node : Option Node) :
    analyzer'.selectsReferences node = analyzer.selectsReferences node := by
  rw [selectsReferences, selectsReferences, chooses.selects_eq, chooses.includesProposed]

theorem selectsMethod_eq : analyzer'.selectsMethod = analyzer.selectsMethod := by
  funext method
  rw [selectsMethod, selectsMethod, chooses.selects_eq, chooses.includesProposed]

theorem typeName_eq (name : String) : analyzer'.typeName name = analyzer.typeName name := by
  rw [typeName, typeName, chooses.naming]

theorem enumOf_eq : analyzer'.enumOf = analyzer.enumOf := by
  funext declared
  rw [enumOf, enumOf, chooses.typeName_eq, chooses.admits_eq]

theorem structures_eq : analyzer'.structures = analyzer.structures := by
  simp only [structures, chooses.sortedStructures, chooses.includes_eq]

theorem enumerations_eq : analyzer'.enumerations = analyzer.enumerations := by
  simp only [enumerations, chooses.sortedEnumerations, chooses.includes_eq]

theorem aliases_eq : analyzer'.aliases = analyzer.aliases := by
  simp only [aliases, chooses.sortedAliases, chooses.includes_eq]

theorem requests_eq (same : analyzer'.model.requests = analyzer.model.requests) :
    analyzer'.requests = analyzer.requests := by
  simp only [requests, same, chooses.admits_eq, chooses.selectsReferences_eq]

theorem notifications_eq (same : analyzer'.model.notifications = analyzer.model.notifications) :
    analyzer'.notifications = analyzer.notifications := by
  simp only [notifications, same, chooses.admits_eq, chooses.selectsReferences_eq]

end ChoosesAlike

/-! ## The same outline -/

/-- Two analyzers that select the same, lower types alike and find the same types in a protocol. -/
structure Alike (analyzer analyzer' : Analyzer) : Prop where
  lowerer : analyzer.lowerer.Alike analyzer'.lowerer
  selection : analyzer'.selection = analyzer.selection
  version : analyzer'.model.version = analyzer.model.version
  declaredStructure? : ∀ name,
    analyzer'.model.declaredStructure? name = analyzer.model.declaredStructure? name
  sortedStructures : Text.sortedBy (·.name) analyzer'.model.structures =
    Text.sortedBy (·.name) analyzer.model.structures
  sortedEnumerations : Text.sortedBy (·.name) analyzer'.model.enumerations =
    Text.sortedBy (·.name) analyzer.model.enumerations
  sortedAliases : Text.sortedBy (·.name) analyzer'.model.aliases =
    Text.sortedBy (·.name) analyzer.model.aliases

namespace Alike

variable {analyzer analyzer' : Analyzer} (alike : analyzer.Alike analyzer')

include alike

theorem choosesAlike : analyzer.ChoosesAlike analyzer' where
  naming := by rw [alike.lowerer.profile]
  includesProposed := alike.lowerer.includesProposed
  selection := alike.selection
  sortedStructures := alike.sortedStructures
  sortedEnumerations := alike.sortedEnumerations
  sortedAliases := alike.sortedAliases

theorem field_eq (declaredIn : String) (property : Property Node) :
    analyzer'.field declaredIn property = analyzer.field declaredIn property := by
  rw [field, field, alike.lowerer.descriptor_eq]

theorem inherit_eq (flatten : Structure → List String → Flattening) (child : String)
    (state : Flattening) (parent : Node) :
    analyzer'.inherit flatten child state parent =
      analyzer.inherit flatten child state parent := by
  cases parent with
  | reference source name => rw [inherit, inherit, alike.declaredStructure?]
  | _ => rfl

theorem flatten_eq (depth : Nat) (declared : Structure) (seen : List String) :
    analyzer'.flatten depth declared seen = analyzer.flatten depth declared seen := by
  induction depth generalizing declared seen with
  | zero => rfl
  | succ depth induction =>
      have deeper : analyzer'.flatten depth = analyzer.flatten depth := by
        funext declared seen
        exact induction declared seen
      have inherits : analyzer'.inherit (analyzer.flatten depth) declared.name =
          analyzer.inherit (analyzer.flatten depth) declared.name := by
        funext state parent
        exact alike.inherit_eq _ _ state parent
      have fields : analyzer'.field declared.name = analyzer.field declared.name :=
        funext (alike.field_eq declared.name)
      simp only [flatten, deeper, inherits, fields, alike.choosesAlike.admits_eq]

theorem flattening_eq (declared : Structure) :
    analyzer'.flattening declared = analyzer.flattening declared := by
  have lengths := congrArg List.length alike.sortedStructures
  rw [(Text.sortedBy_perm _ _).length_eq, (Text.sortedBy_perm _ _).length_eq] at lengths
  rw [flattening, flattening, lengths, alike.flatten_eq]

theorem classOf_eq (declared : Structure) :
    analyzer'.classOf declared = analyzer.classOf declared := by
  rw [classOf, classOf, alike.choosesAlike.typeName_eq, alike.flattening_eq]

theorem aliasOf_eq (declared : TypeAlias) :
    analyzer'.aliasOf declared = analyzer.aliasOf declared := by
  rw [aliasOf, aliasOf, alike.choosesAlike.typeName_eq, alike.lowerer.descriptorOf_eq]

theorem requestOf_eq (request : Request) :
    analyzer'.requestOf request = analyzer.requestOf request := by
  rw [requestOf, requestOf, funext alike.lowerer.descriptor_eq]

theorem notificationOf_eq (notification : Notification) :
    analyzer'.notificationOf notification = analyzer.notificationOf notification := by
  rw [notificationOf, notificationOf, funext alike.lowerer.descriptor_eq]

theorem methodOf_eq : analyzer'.methodOf = analyzer.methodOf := by
  funext method
  cases method with
  | request declared => exact alike.requestOf_eq declared
  | notification declared => exact alike.notificationOf_eq declared

theorem declarationSteps_eq : analyzer'.declarationSteps = analyzer.declarationSteps := by
  have chooses := alike.choosesAlike
  simp only [declarationSteps, chooses.structures_eq, chooses.aliases_eq, alike.flattening_eq]

theorem run_eq (ledger : Ledger) (step : AnalysisStep) :
    step.run analyzer'.lowerer ledger = step.run analyzer.lowerer ledger := by
  cases step with
  | lower node => exact alike.lowerer.enrollOf_eq node ledger
  | unknownParent child parent => rfl

/-- The outlines of two analyzers that agree differ in methods and composites at most. -/
theorem outline_eq (includesMethods : Bool) (ledger ledger' : Ledger) :
    analyzer'.outline includesMethods ledger' =
      { analyzer.outline includesMethods ledger with
        methods := if includesMethods then analyzer'.methods else []
        composites := ledger'.sortedComposites } := by
  have chooses := alike.choosesAlike
  simp only [outline, alike.version, chooses.structures_eq, chooses.enumerations_eq,
    chooses.aliases_eq, chooses.enumOf_eq, funext alike.classOf_eq, funext alike.aliasOf_eq]

/-- Analyzers that agree and find the same methods do the same with a ledger. -/
theorem analyze_eq (sameRequests : analyzer'.model.requests = analyzer.model.requests)
    (sameNotifications : analyzer'.model.notifications = analyzer.model.notifications)
    (includesMethods : Bool) (ledger : Ledger) :
    analyzer'.analyze includesMethods ledger = analyzer.analyze includesMethods ledger := by
  have requests := alike.choosesAlike.requests_eq sameRequests
  have notifications := alike.choosesAlike.notifications_eq sameNotifications
  have steps_eq : analyzer'.steps includesMethods = analyzer.steps includesMethods := by
    rw [steps, steps, alike.declarationSteps_eq, methodSteps, methodSteps, requests,
      notifications]
  have methods_eq : analyzer'.methods = analyzer.methods := by
    rw [methods, methods, requests, notifications, funext alike.requestOf_eq,
      funext alike.notificationOf_eq]
  have run_eq : AnalysisStep.run analyzer'.lowerer = AnalysisStep.run analyzer.lowerer := by
    funext ledger step
    exact alike.run_eq ledger step
  have enrolled_eq : analyzer'.enrolled includesMethods ledger =
      analyzer.enrolled includesMethods ledger := by
    rw [enrolled, enrolled, run_eq, steps_eq]
  have outline_eq (final : Ledger) :
      analyzer'.outline includesMethods final = analyzer.outline includesMethods final := by
    rw [alike.outline_eq includesMethods final final, methods_eq]
    rfl
  simp only [analyze, enrolled_eq, outline_eq]

end Alike
end Analyzer
end ProtocolCodegen
