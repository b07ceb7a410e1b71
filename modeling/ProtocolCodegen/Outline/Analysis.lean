import ProtocolCodegen.Config
import ProtocolCodegen.Lowering
import ProtocolCodegen.Outline.Basic
import ProtocolCodegen.Schema.References

/-!
# Analysis

From a protocol to its outline: the selected declarations in the order of their names, records with
the fields that they inherit, and every type lowered.  The outline is a function of the protocol;
only the definitions of composites go through the ledger of the run, in the order in which the types
are lowered.
-/

namespace ProtocolCodegen

/-- A type override that names no base type. -/
structure OverrideError where
  /-- The overridden type. -/
  name : String
  /-- What it is overridden with. -/
  base : String
  deriving DecidableEq, Repr

/-- What is said of a type override that names no base type. -/
def OverrideError.message (error : OverrideError) : String :=
  "Type override for " ++ Text.quoted error.name ++ " names unknown base type " ++
    Text.quoted error.base

/-- The categories of type overrides, which are looked at in the order of their names. -/
def Config.overrideCategories (config : Config) :
    Except OverrideError (Dictionary String Category) :=
  (Text.sortedBy (·.1) config.typeOverrides).mapM fun (name, base) =>
    match Category.ofBaseType? base with
    | some category => .ok (name, category)
    | none => .error ⟨name, base⟩

/-- What an analysis does to the ledger of a run. -/
inductive AnalysisStep where
  /-- A type is lowered. -/
  | lower (node : Option Node)
  /-- A record was found to extend a name that is not a record. -/
  | unknownParent (child parent : String)

/-- The ledger after a step. -/
def AnalysisStep.run (lowerer : Lowerer) (ledger : Ledger) : AnalysisStep → Ledger
  | .lower node => lowerer.enrollOf node ledger
  | .unknownParent child parent => ledger.log (.unknownParent child parent)

/-- How a protocol is analyzed. -/
structure Analyzer where
  /-- The protocol. -/
  model : Model
  /-- How its types are lowered. -/
  lowerer : Lowerer
  /-- Names to generate; absent for all. -/
  selection : Option (List String)

/-- The fields of a record in the course of flattening. -/
structure Flattening where
  /-- Fields so far. -/
  fields : List Outline.Field
  /-- Names of the records that were entered. -/
  seen : List String
  /-- What flattening does to the ledger. -/
  steps : List AnalysisStep

namespace Analyzer

/-- The analyzer of a protocol. -/
def ofModel (model : Model) (profile : Profile) (includesProposed : Bool)
    (selection : Option (List String)) : Analyzer where
  model := model
  lowerer := .ofModel model profile includesProposed
  selection := selection

/-- Whether a declaration is not left out as proposed. -/
def admits (analyzer : Analyzer) (proposed : Bool) : Bool :=
  analyzer.lowerer.includesProposed || !proposed

/-- Whether a name is selected. -/
def selects (analyzer : Analyzer) (name : String) : Bool :=
  match analyzer.selection with
  | none => true
  | some names => names.contains name

/-- Whether a declaration of a name is generated. -/
def includes (analyzer : Analyzer) (name : String) (proposed : Bool) : Bool :=
  analyzer.admits proposed && analyzer.selects name

/-- The identifier of a declared type. -/
def typeName (analyzer : Analyzer) (name : String) : String :=
  analyzer.lowerer.profile.naming.typeName name

/-- The field of a property. -/
def field (analyzer : Analyzer) (declaredIn : String) (property : Property Node) :
    Outline.Field where
  name := property.name
  type := some (analyzer.lowerer.descriptor property.type)
  optional := property.optional
  notes := property.notes
  declaredIn := declaredIn

/-- Adds a field at the end; a field of the same name gives way. -/
def addField (fields : List Outline.Field) (field : Outline.Field) : List Outline.Field :=
  fields.filter (·.name != field.name) ++ [field]

/-- Adds fields one after the other. -/
def addFields (fields added : List Outline.Field) : List Outline.Field :=
  added.foldl addField fields

/-- Adds the fields of a parent, which `flatten` finds.  Only declared records have fields. -/
def inherit (analyzer : Analyzer) (flatten : Structure → List String → Flattening)
    (child : String) (state : Flattening) : Node → Flattening
  | .reference _ name =>
      match analyzer.model.declaredStructure? name with
      | some parent =>
          let inherited := flatten parent state.seen
          { fields := addFields state.fields inherited.fields
            seen := inherited.seen
            steps := state.steps ++ inherited.steps }
      | none => { state with steps := state.steps ++ [.unknownParent child name] }
  | _ => state

/-- The fields of a record: those of its parents and mixins first, then its own.  A record that was
entered before has none, and `depth` bounds the records that are entered within one another. -/
def flatten (analyzer : Analyzer) :
    (depth : Nat) → (declared : Structure) → (seen : List String) → Flattening
  | 0, _, seen => ⟨[], seen, []⟩
  | depth + 1, declared, seen =>
      if declared.name ∈ seen then
        ⟨[], seen, []⟩
      else
        let inherited := (declared.parents ++ declared.mixins).foldl
          (analyzer.inherit (analyzer.flatten depth) declared.name)
          ⟨[], declared.name :: seen, []⟩
        let own := declared.properties.filter fun property => analyzer.admits property.proposed
        { fields := addFields inherited.fields (own.map (analyzer.field declared.name))
          seen := inherited.seen
          steps := inherited.steps ++ own.map fun property => .lower (some property.type) }

/-- The fields of a record.  Records that are entered within one another have different names. -/
def flattening (analyzer : Analyzer) (declared : Structure) : Flattening :=
  analyzer.flatten (analyzer.model.structures.length + 1) declared []

/-- The class of a record. -/
def classOf (analyzer : Analyzer) (declared : Structure) : Outline.Class where
  name := analyzer.typeName declared.name
  originalName := declared.name
  fields := (analyzer.flattening declared).fields
  notes := declared.notes

/-- The category of the values of an enumeration: strings, unless its type is another base type. -/
def enumCategory : Option Node → Category
  | some (.base _ name) => (Category.ofBaseType? name).getD .string
  | _ => .string

/-- The member of an enumeration value. -/
def memberOf (value : EnumValue) : Outline.Member where
  name := value.name
  value := value.value.toJson
  documentation := value.documentation

/-- The outline of an enumeration. -/
def enumOf (analyzer : Analyzer) (declared : Enumeration) : Outline.Enum where
  name := analyzer.typeName declared.name
  originalName := declared.name
  category := enumCategory declared.type
  members := (declared.values.filter fun value => analyzer.admits value.proposed).map memberOf
  supportsCustomValues := declared.supportsCustomValues
  notes := declared.notes

/-- The outline of an alias. -/
def aliasOf (analyzer : Analyzer) (declared : TypeAlias) : Outline.Alias where
  name := analyzer.typeName declared.name
  originalName := declared.name
  target := some (analyzer.lowerer.descriptorOf declared.type)
  notes := declared.notes

/-- The outline of a request. -/
def requestOf (analyzer : Analyzer) (request : Request) : Outline.Method where
  name := Name.ofMethod request.method
  method := request.method
  direction := request.direction
  params := request.params.map analyzer.lowerer.descriptor
  result := request.result.map analyzer.lowerer.descriptor
  isNotification := false
  documentation := request.notes.documentation
  since := request.notes.since

/-- The outline of a notification. -/
def notificationOf (analyzer : Analyzer) (notification : Notification) : Outline.Method where
  name := Name.ofMethod notification.method
  method := notification.method
  direction := notification.direction
  params := notification.params.map analyzer.lowerer.descriptor
  result := none
  isNotification := true
  documentation := notification.notes.documentation
  since := notification.notes.since

/-- Whether every reference of a type that may be missing is selected. -/
def selectsReferences (analyzer : Analyzer) (node : Option Node) : Bool :=
  (Node.referenceSet analyzer.lowerer.includesProposed node).all analyzer.selects

/-- The records that are generated, in the order of their names. -/
def structures (analyzer : Analyzer) : List Structure :=
  (Text.sortedBy (·.name) analyzer.model.structures).filter fun declared =>
    analyzer.includes declared.name declared.proposed

/-- The enumerations that are generated, in the order of their names. -/
def enumerations (analyzer : Analyzer) : List Enumeration :=
  (Text.sortedBy (·.name) analyzer.model.enumerations).filter fun declared =>
    analyzer.includes declared.name declared.proposed

/-- The aliases that are generated, in the order of their names. -/
def aliases (analyzer : Analyzer) : List TypeAlias :=
  (Text.sortedBy (·.name) analyzer.model.aliases).filter fun declared =>
    analyzer.includes declared.name declared.proposed

/-- The requests that are generated: those whose parameters and answers are selected. -/
def requests (analyzer : Analyzer) : List Request :=
  analyzer.model.requests.filter fun request =>
    analyzer.admits request.proposed && analyzer.selectsReferences request.params &&
      analyzer.selectsReferences request.result

/-- The notifications that are generated: those whose parameters are selected. -/
def notifications (analyzer : Analyzer) : List Notification :=
  analyzer.model.notifications.filter fun notification =>
    analyzer.admits notification.proposed && analyzer.selectsReferences notification.params

/-- The methods that are generated, in the order of their names. -/
def methods (analyzer : Analyzer) : List Outline.Method :=
  Text.sortedBy (·.method) <|
    analyzer.requests.map analyzer.requestOf ++
      analyzer.notifications.map analyzer.notificationOf

/-- A step for a type that is lowered only if it is there. -/
def lowerPresent (node : Option Node) : List AnalysisStep :=
  (node.map fun node => [.lower (some node)]).getD []

/-- What the analysis of the declarations does to the ledger. -/
def declarationSteps (analyzer : Analyzer) : List AnalysisStep :=
  analyzer.structures.flatMap (fun declared => (analyzer.flattening declared).steps) ++
    analyzer.aliases.map fun declared => .lower declared.type

/-- What the analysis of the methods does to the ledger. -/
def methodSteps (analyzer : Analyzer) : List AnalysisStep :=
  analyzer.requests.flatMap (fun request =>
      lowerPresent request.params ++ lowerPresent request.result) ++
    analyzer.notifications.flatMap fun notification => lowerPresent notification.params

/-- What the analysis does to the ledger. -/
def steps (analyzer : Analyzer) (includesMethods : Bool) : List AnalysisStep :=
  analyzer.declarationSteps ++ if includesMethods then analyzer.methodSteps else []

/-- The ledger after all types were lowered. -/
def enrolled (analyzer : Analyzer) (includesMethods : Bool) (ledger : Ledger) : Ledger :=
  (analyzer.steps includesMethods).foldl (AnalysisStep.run analyzer.lowerer) ledger

/-- The outline of a protocol with the composites of a ledger. -/
def outline (analyzer : Analyzer) (includesMethods : Bool) (ledger : Ledger) : Outline where
  version := analyzer.model.version
  classes := analyzer.structures.map analyzer.classOf
  enums := analyzer.enumerations.map analyzer.enumOf
  aliases := analyzer.aliases.map analyzer.aliasOf
  methods := if includesMethods then analyzer.methods else []
  composites := ledger.sortedComposites
  comment := []

/-- Analyzes a protocol in the course of a run.  Both parts come of a single pass over the
declarations, as `pass_eq_analyze` says. -/
def analyze (analyzer : Analyzer) (includesMethods : Bool) : StateM Ledger Outline := fun ledger =>
  let ledger := analyzer.enrolled includesMethods ledger
  let outline := analyzer.outline includesMethods ledger
  (outline, ledger.log (.analyzed outline.classes.length outline.enums.length
    outline.aliases.length outline.methods.length outline.composites.length))

end Analyzer
end ProtocolCodegen
