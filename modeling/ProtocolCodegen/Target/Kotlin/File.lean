import ProtocolCodegen.Config
import ProtocolCodegen.Target.Kotlin.Enum
import ProtocolCodegen.Target.Kotlin.Union

/-!
# Kotlin: files

Classes become data classes, aliases type aliases, wrappers data classes with one property, and
methods constants and two interfaces.
-/

namespace ProtocolCodegen.Kotlin

open Outline

/-- The serial name of a property, if its name on the wire is not its own. -/
def serialName? (name : String) : Option String :=
  if Name.withoutMarks name = name then none else some (stringLiteral name)

/-- The lines of a property without the comma that can follow. -/
def propertyLines (field : Field) : Rendering (List String) := do
  let type ← typeTextOf field.type
  let typed := if field.optional then nullable type ++ " = null" else type
  let annotation := (serialName? field.name).map fun name => "    @SerialName(" ++ name ++ ")"
  if annotation.isSome then
    Rendering.require ["kotlinx.serialization.SerialName"]
  return notesComment field.notes "    " ++ annotation.toList ++
    ["    val " ++ fieldName field.name ++ ": " ++ typed]

/-- Lines whose last one is followed by a comma. -/
def addComma (lines : List String) : List String :=
  lines.dropLast ++ [lines.getLast?.getD "" ++ ","]

/-- The lines of properties, with commas between them. -/
def separated : List (List String) → List String
  | [] => []
  | [lines] => lines
  | lines :: rest => addComma lines ++ separated rest

/-- The class of a record. -/
def classText (declared : Outline.Class) : Rendering String := do
  let properties ← declared.fields.mapM propertyLines
  let annotation :=
    if declared.notes.deprecated = "" then []
    else ["@Deprecated(" ++ stringLiteral declared.notes.deprecated ++ ")"]
  return Text.unlines <| notesComment declared.notes "" ++ annotation ++ ["@Serializable"] ++
    if properties.isEmpty then ["class " ++ declared.name]
    else ["data class " ++ declared.name ++ "("] ++ separated properties ++ [")"]

/-- The type alias of an alias. -/
def aliasText (declared : Alias) : Rendering String := do
  let type ← typeTextOf declared.target
  return Text.unlines (notesComment declared.notes "" ++
    ["typealias " ++ declared.name ++ " = " ++ type])

/-- The data class of a wrapper. -/
def wrapperText (name field : String) (wrapped : Descriptor) : Rendering String := do
  let type ← typeText wrapped
  return Text.unlines
    ["@Serializable", "data class " ++ name ++ "(val " ++ field ++ ": " ++ type ++ ")"]

/-- The declaration of a composite. -/
def compositeText : Composite → Rendering String
  | .union name variants => unionText name variants
  | .wrapper name field wrapped => wrapperText name field wrapped

/-- The lines of the documentation of a method, which ends with its name on the wire. -/
def methodDocLines (method : Method) : List String :=
  Layout.addParagraph (docLines method.documentation method.since "") ("Method: " ++ method.method)

/-- The lines of a method of an interface with its comment. -/
def methodLines (method : Method) : Except RenderError (List String) := do
  let result ←
    if method.isNotification || isUnit method.result then .ok ""
    else (typeTextOf method.result).map (": " ++ ·)
  let params ← match method.params with
    | some params => (typeText params).map ("params: " ++ ·)
    | none => .ok ""
  let modifier := if method.isNotification then "" else "suspend "
  return docComment (methodDocLines method) "    " ++
    ["    " ++ modifier ++ "fun " ++ Name.lowerFirst method.name ++ "(" ++ params ++ ")" ++ result]

/-- The lines of an interface, with blank lines between the methods; one without methods is left
out. -/
def interfaceLines (name : String) (methods : List (List String)) : List String :=
  if methods.isEmpty then []
  else
    ["", "interface " ++ name ++ " \x7b"] ++ List.intercalate [""] methods ++ ["\x7d"]

/-- The constants and the interfaces of methods. -/
def methodsText (config : Config) (methods : List Method) : Rendering String := do
  let constants := methods.map fun method =>
    "    const val " ++ Name.screamingSnakeCase method.name ++ " = " ++
      stringLiteral method.method
  let server ← (if config.generateServer then methods.filter (·.toServer) else []).mapM
    fun method => (methodLines method : Rendering (List String))
  let client ← (if config.generateClient then methods.filter (·.toClient) else []).mapM
    fun method => (methodLines method : Rendering (List String))
  return Text.unlines <|
    ["object LspMethods \x7b"] ++ constants ++ ["\x7d"] ++
    interfaceLines "LanguageServer" server ++ interfaceLines "LanguageClient" client

/-- The package of a file. -/
def packageName (config : Config) : String :=
  if config.packageName = "" then "lsp.protocol" else config.packageName

/-- The beginning of a file. -/
def fileStart (config : Config) (comment imports : List String) : String :=
  Layout.header comment ++ "package " ++ packageName config ++ "\n\n" ++
    if imports.isEmpty then "" else Text.unlines (imports.map ("import " ++ ·)) ++ "\n"

/-- The declarations of an outline. -/
def declarations (config : Config) (outline : Outline) : Rendering (List String) := do
  let classes ← outline.classes.mapM classText
  let enums ← outline.enums.mapM enumText
  let aliases ← outline.aliases.mapM aliasText
  let composites ← outline.composites.mapM fun (_, composite) => compositeText composite
  let methods ←
    if outline.methods.isEmpty then pure []
    else List.singleton <$> methodsText config outline.methods
  if !(outline.classes.isEmpty && outline.enums.isEmpty && outline.composites.isEmpty) then
    Rendering.require ["kotlinx.serialization.Serializable"]
  return classes ++ enums ++ aliases ++ composites ++ methods

/-- The Kotlin file of an outline. -/
def fileText (config : Config) (outline : Outline) : Rendering String :=
  let rendering := declarations config outline
  { imports := rendering.imports
    result := rendering.result.map fun texts =>
      Layout.file (fileStart config outline.comment (Text.sortedSet rendering.imports)) texts }

end ProtocolCodegen.Kotlin
