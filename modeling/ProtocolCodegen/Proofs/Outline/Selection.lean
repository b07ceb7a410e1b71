import ProtocolCodegen.Proofs.Outline.Flattening
import ProtocolCodegen.Proofs.Text.Order

/-!
# Selections of an outline

A selection leaves out declarations and methods and changes none that it keeps.  It can be made
before or after the declarations are analyzed and put in order.
-/

namespace ProtocolCodegen

/-- A method of a protocol. -/
inductive ProtocolMethod where
  /-- A method that is answered. -/
  | request (declared : Request)
  /-- A method that is not answered. -/
  | notification (declared : Notification)

namespace ProtocolMethod

/-- Name of the method on the wire. -/
def name : ProtocolMethod → String
  | .request declared => declared.method
  | .notification declared => declared.method

/-- Whether the method is not stable yet. -/
def proposed : ProtocolMethod → Bool
  | .request declared => declared.proposed
  | .notification declared => declared.proposed

/-- The names to which the parameters and the answer refer. -/
def references (includesProposed : Bool) : ProtocolMethod → List String
  | .request declared => Node.referenceSet includesProposed declared.params ++
      Node.referenceSet includesProposed declared.result
  | .notification declared => Node.referenceSet includesProposed declared.params

end ProtocolMethod

/-- The methods of a protocol, requests first. -/
def Model.methods (model : Model) : List ProtocolMethod :=
  model.requests.map .request ++ model.notifications.map .notification

namespace Analyzer

/-! ## What is generated -/

variable {analyzer : Analyzer}

theorem mem_structures_iff {declared : Structure} :
    declared ∈ analyzer.structures ↔
      declared ∈ analyzer.model.structures ∧
        analyzer.includes declared.name declared.proposed = true := by
  rw [structures, List.mem_filter, (Text.sortedBy_perm _ _).mem_iff]

theorem mem_enumerations_iff {declared : Enumeration} :
    declared ∈ analyzer.enumerations ↔
      declared ∈ analyzer.model.enumerations ∧
        analyzer.includes declared.name declared.proposed = true := by
  rw [enumerations, List.mem_filter, (Text.sortedBy_perm _ _).mem_iff]

theorem mem_aliases_iff {declared : TypeAlias} :
    declared ∈ analyzer.aliases ↔
      declared ∈ analyzer.model.aliases ∧
        analyzer.includes declared.name declared.proposed = true := by
  rw [aliases, List.mem_filter, (Text.sortedBy_perm _ _).mem_iff]

/-- The outline of a method. -/
def methodOf (analyzer : Analyzer) : ProtocolMethod → Outline.Method
  | .request declared => analyzer.requestOf declared
  | .notification declared => analyzer.notificationOf declared

/-- The methods that are not left out as proposed, in the order of their names. -/
def admittedMethods (analyzer : Analyzer) : List ProtocolMethod :=
  Text.sortedBy (·.name) (analyzer.model.methods.filter fun method =>
    analyzer.admits method.proposed)

/-- Whether all names to which a method refers are selected. -/
def selectsMethod (analyzer : Analyzer) (method : ProtocolMethod) : Bool :=
  (method.references analyzer.lowerer.includesProposed).all analyzer.selects

theorem method_methodOf (analyzer : Analyzer) (method : ProtocolMethod) :
    (analyzer.methodOf method).method = method.name := by
  cases method <;> rfl

theorem map_requestOf (analyzer : Analyzer) :
    analyzer.requests.map analyzer.requestOf =
      (((analyzer.model.requests.map .request).filter fun method =>
        analyzer.admits method.proposed).filter analyzer.selectsMethod).map analyzer.methodOf := by
  rw [List.filter_filter, List.filter_map, List.map_map, requests]
  congr 1
  refine List.filter_congr fun declared _ => ?_
  simp [selectsMethod, ProtocolMethod.references, ProtocolMethod.proposed, selectsReferences,
    Bool.and_comm, Bool.and_assoc]

theorem map_notificationOf (analyzer : Analyzer) :
    analyzer.notifications.map analyzer.notificationOf =
      (((analyzer.model.notifications.map .notification).filter fun method =>
        analyzer.admits method.proposed).filter analyzer.selectsMethod).map analyzer.methodOf := by
  rw [List.filter_filter, List.filter_map, List.map_map, notifications]
  congr 1
  refine List.filter_congr fun declared _ => ?_
  simp [selectsMethod, ProtocolMethod.references, ProtocolMethod.proposed, selectsReferences,
    Bool.and_comm]

/-- Methods can be put in order before those are left out that are not selected. -/
theorem methods_eq (analyzer : Analyzer) :
    analyzer.methods =
      (analyzer.admittedMethods.filter analyzer.selectsMethod).map analyzer.methodOf := by
  have generated : analyzer.requests.map analyzer.requestOf ++
      analyzer.notifications.map analyzer.notificationOf =
      ((analyzer.model.methods.filter fun method => analyzer.admits method.proposed).filter
        analyzer.selectsMethod).map analyzer.methodOf := by
    rw [map_requestOf, map_notificationOf, Model.methods, List.filter_append, List.filter_append,
      List.map_append]
  have names : (fun method => (analyzer.methodOf method).method) = ProtocolMethod.name :=
    funext (method_methodOf analyzer)
  rw [methods, generated, Text.sortedBy_map, names, admittedMethods, Text.filter_sortedBy]

theorem methods_of_all (all : analyzer.selection = none) :
    analyzer.methods = analyzer.admittedMethods.map analyzer.methodOf := by
  have selects (name : String) : analyzer.selects name = true := by
    rw [Analyzer.selects, all]
  have every : analyzer.admittedMethods.filter analyzer.selectsMethod = analyzer.admittedMethods :=
    List.filter_eq_self.mpr fun method _ => List.all_eq_true.mpr fun name _ => selects name
  rw [methods_eq, every]

theorem map_method_methods_of_all (all : analyzer.selection = none) :
    analyzer.methods.map (·.method) = analyzer.admittedMethods.map (·.name) := by
  rw [methods_of_all all, List.map_map]
  exact List.map_congr_left fun method _ => method_methodOf analyzer method

/-! ## The whole and a part -/

theorem classOf_ofModel (model : Model) (profile : Profile) (includesProposed : Bool)
    (selection selection' : Option (List String)) (declared : Structure) :
    (ofModel model profile includesProposed selection).classOf declared =
      (ofModel model profile includesProposed selection').classOf declared := by
  have fields : ((ofModel model profile includesProposed selection).flattening declared).fields =
      ((ofModel model profile includesProposed selection').flattening declared).fields := by
    rw [fields_flattening, fields_flattening]
    rfl
  rw [classOf, fields]
  rfl

theorem selects_some_iff {model : Model} {profile : Profile} {includesProposed : Bool}
    {names : List String} {name : String} :
    (ofModel model profile includesProposed (some names)).selects name = true ↔ name ∈ names :=
  List.contains_iff_mem

theorem includes_some (model : Model) (profile : Profile) (includesProposed : Bool)
    (names : List String) (name : String) (proposed : Bool) :
    (ofModel model profile includesProposed (some names)).includes name proposed =
      (decide (name ∈ names) &&
        (ofModel model profile includesProposed none).includes name proposed) := by
  simp [includes, admits, selects, ofModel, Bool.and_comm]

/-- The outlines of the declarations that are selected can be selected by their names. -/
theorem map_includes_some {α β : Type} (model : Model) (profile : Profile)
    (includesProposed : Bool) (names : List String) {name : α → String} (proposed : α → Bool)
    {outlineOf : α → β} (originalName : β → String)
    (named : ∀ declared, originalName (outlineOf declared) = name declared)
    (declarations : List α) :
    (declarations.filter fun declared =>
        (ofModel model profile includesProposed (some names)).includes (name declared)
          (proposed declared)).map outlineOf =
      ((declarations.filter fun declared =>
        (ofModel model profile includesProposed none).includes (name declared)
          (proposed declared)).map outlineOf).filter (originalName · ∈ names) := by
  rw [List.filter_map, List.filter_filter]
  simp only [includes_some, Function.comp_apply, named]

theorem selectsMethod_some (model : Model) (profile : Profile) (includesProposed : Bool)
    (names : List String) :
    (ofModel model profile includesProposed (some names)).selectsMethod = fun method =>
      (method.references includesProposed).all (· ∈ names) := by
  funext method
  have selects_eq : (ofModel model profile includesProposed (some names)).selects =
      fun name => decide (name ∈ names) :=
    funext fun name => List.contains_eq_mem name names
  rw [selectsMethod, selects_eq]
  rfl

/-- A selection only selects.  The outline of some names has the classes, enumerations and aliases
of these names as they stand in the outline of all, and the methods that refer to no others. -/
theorem analyze_selection (model : Model) (profile : Profile)
    (includesProposed includesMethods : Bool) (names : List String) (ledger ledger' : Ledger) :
    let analyzer := ofModel model profile includesProposed none
    let selecting := ofModel model profile includesProposed (some names)
    let whole := (analyzer.analyze includesMethods ledger).1
    let part := (selecting.analyze includesMethods ledger').1
    let methods := if includesMethods then analyzer.admittedMethods else []
    part.classes = whole.classes.filter (·.originalName ∈ names) ∧
      part.enums = whole.enums.filter (·.originalName ∈ names) ∧
      part.aliases = whole.aliases.filter (·.originalName ∈ names) ∧
      whole.methods = methods.map analyzer.methodOf ∧
      part.methods = (methods.filter fun method =>
        (method.references includesProposed).all (· ∈ names)).map analyzer.methodOf := by
  intro analyzer selecting whole part methods
  have same_class : selecting.classOf = analyzer.classOf :=
    funext fun declared => classOf_ofModel model profile includesProposed _ _ declared
  have same_method : selecting.methodOf = analyzer.methodOf :=
    funext fun method => by cases method <;> rfl
  refine ⟨?_, ?_, ?_, ?_, ?_⟩
  · have named (declared : Structure) :
        (analyzer.classOf declared).originalName = declared.name := rfl
    have selected := map_includes_some model profile includesProposed names Structure.proposed
      Outline.Class.originalName named (Text.sortedBy (·.name) model.structures)
    exact (congrArg (selecting.structures.map ·) same_class).trans selected
  · exact map_includes_some _ _ _ _ Enumeration.proposed Outline.Enum.originalName (fun _ => rfl) _
  · exact map_includes_some _ _ _ _ TypeAlias.proposed Outline.Alias.originalName (fun _ => rfl) _
  · cases includesMethods with
    | false => rfl
    | true => exact methods_of_all rfl
  · cases includesMethods with
    | false => rfl
    | true =>
        have kept := methods_eq selecting
        rw [same_method, selectsMethod_some] at kept
        exact kept

end Analyzer
end ProtocolCodegen
