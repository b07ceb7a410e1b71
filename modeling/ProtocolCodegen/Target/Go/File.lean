import ProtocolCodegen.Config
import ProtocolCodegen.Target.Go.Text

/-!
# Go: files

Classes become structs with JSON tags, enumerations typed constants, aliases type aliases, and
unions structs that hold any value and know how to marshal it.  Methods become constants and the two
interfaces.
-/

namespace ProtocolCodegen.Go

open Outline

/-- The line of a struct field. -/
def fieldLine (name type tag : String) : String :=
  "\t" ++ name ++ " " ++ type ++ " `json:\"" ++ tag ++ "\"`"

/-- The lines of a field with its comment. -/
def fieldLines (field : Field) : Except RenderError (List String) := do
  let type ← typeTextOf field.type
  let comment := docComment field.notes.documentation "" field.notes.deprecated "\t"
  let line :=
    if field.optional then
      fieldLine (fieldName field.name) (pointer type) (field.name ++ ",omitempty")
    else
      fieldLine (fieldName field.name) type field.name
  return comment ++ [line]

/-- The struct of a class. -/
def structText (declared : Outline.Class) : Rendering String := do
  let fields ← declared.fields.mapM (fieldLines ·)
  let comment :=
    docComment declared.notes.documentation declared.notes.since declared.notes.deprecated ""
  return Text.unlines <| comment ++
    if fields.isEmpty then
      ["type " ++ declared.name ++ " struct\x7b\x7d"]
    else
      ["type " ++ declared.name ++ " struct \x7b"] ++ fields.flatten ++ ["\x7d"]

/-- The lines of a member with its comment. -/
def memberLines (declared : Enum) (member : Member) : List String :=
  let value :=
    if declared.category.isNumeric then member.value.text else stringLiteral member.value.text
  docComment member.documentation "" "" "\t" ++
    ["\t" ++ declared.name ++ profile.naming.typeName member.name ++ " " ++ declared.name ++
      " = " ++ value]

/-- The type and the constants of an enumeration. -/
def enumText (declared : Enum) : Rendering String :=
  let comment :=
    docComment declared.notes.documentation declared.notes.since declared.notes.deprecated ""
  let type := "type " ++ declared.name ++ " " ++ profile.baseTypes.spell declared.category
  let constants :=
    if declared.members.isEmpty then []
    else ["", "const ("] ++ declared.members.flatMap (memberLines declared) ++ [")"]
  pure (Text.unlines (comment ++ [type] ++ constants))

/-- The type alias of an alias. -/
def aliasText (declared : Alias) : Rendering String := do
  let type ← typeTextOf declared.target
  let comment :=
    docComment declared.notes.documentation declared.notes.since declared.notes.deprecated ""
  return Text.unlines (comment ++ ["type " ++ declared.name ++ " = " ++ type])

/-- The packages that the methods of a union use. -/
def unionImports : List String :=
  ["encoding/json", "fmt"]

/-- The lines of the methods that write and read a union. -/
def marshalLines (name : String) (types : List String) : List String :=
  let typeList := "[" ++ String.intercalate " " types ++ "]"
  let cases := types.flatMap fun type => ["\tcase " ++ type ++ ":", "\t\treturn json.Marshal(x)"]
  let attempts := types.zipIdx.flatMap fun (type, index) =>
    let holder := "h" ++ toString index
    ["\tvar " ++ holder ++ " " ++ type,
      "\tif err := json.Unmarshal(x, &" ++ holder ++ "); err == nil \x7b",
      "\t\tt.Value = " ++ holder,
      "\t\treturn nil",
      "\t\x7d"]
  ["",
    "func (t " ++ name ++ ") MarshalJSON() ([]byte, error) \x7b",
    "\tswitch x := t.Value.(type) \x7b"] ++ cases ++
  ["\tcase nil:",
    "\t\treturn []byte(\"null\"), nil",
    "\t\x7d",
    "\treturn nil, fmt.Errorf(\"type %T not one of " ++ typeList ++ "\", t.Value)",
    "\x7d",
    "",
    "func (t *" ++ name ++ ") UnmarshalJSON(x []byte) error \x7b",
    "\tif string(x) == \"null\" \x7b",
    "\t\tt.Value = nil",
    "\t\treturn nil",
    "\t\x7d"] ++ attempts ++
  ["\treturn fmt.Errorf(\"unmarshal failed to match one of " ++ typeList ++ "\")",
    "\x7d"]

/-- The struct of a union. -/
def unionText (config : Config) (name : String) (variants : List Variant) : Rendering String := do
  if config.generateJson then
    Rendering.require unionImports
  let types ← variants.mapM fun variant => (typeText variant.type : Rendering String)
  return Text.unlines <|
    ["// " ++ name ++ " is a union type for: " ++ String.intercalate " | " types,
      "type " ++ name ++ " struct \x7b",
      "\tValue any `json:\"value\"`",
      "\x7d"] ++
    if config.generateJson then marshalLines name types else []

/-- The struct of a wrapper. -/
def wrapperText (name field : String) (wrapped : Descriptor) : Rendering String := do
  let type ← typeText wrapped
  return Text.unlines
    ["type " ++ name ++ " struct \x7b", fieldLine (fieldName field) type field, "\x7d"]

/-- The declaration of a composite. -/
def compositeText (config : Config) : Composite → Rendering String
  | .union name variants => unionText config name variants
  | .wrapper name field wrapped => wrapperText name field wrapped

/-- The lines of a method of an interface with its comment. -/
def methodLines (method : Method) : Except RenderError (List String) := do
  let arguments ← match method.params with
    | some params => (typeText params).map ("context.Context, " ++ pointer ·)
    | none => .ok "context.Context"
  let returns ←
    if method.isNotification || isVoid method.result then .ok "error"
    else (typeTextOf method.result).map ("(" ++ pointer · ++ ", error)")
  return docComment method.documentation method.since "" "\t" ++
    ["\t" ++ method.name ++ "(" ++ arguments ++ ") " ++ returns]

/-- The lines of an interface; one without methods is left out. -/
def interfaceLines (name description : String) (methods : List (List String)) : List String :=
  if methods.isEmpty then []
  else
    ["", "// " ++ name ++ " defines the LSP " ++ description ++ " interface.",
      "type " ++ name ++ " interface \x7b"] ++ methods.flatten ++ ["\x7d"]

/-- The constants and the interfaces of methods. -/
def methodsText (config : Config) (methods : List Method) : Rendering String := do
  let constants := methods.map fun method =>
    "\tMethod" ++ method.name ++ " = " ++ stringLiteral method.method
  let server ← (if config.generateServer then methods.filter (·.toServer) else []).mapM
    fun method => (methodLines method : Rendering (List String))
  let client ← (if config.generateClient then methods.filter (·.toClient) else []).mapM
    fun method => (methodLines method : Rendering (List String))
  if !server.isEmpty || !client.isEmpty then
    Rendering.require ["context"]
  return Text.unlines <|
    ["// LSP method names.", "const ("] ++ constants ++ [")"] ++
    interfaceLines "Server" "server" server ++ interfaceLines "Client" "client" client

/-- The package of a file. -/
def packageName (config : Config) : String :=
  if config.packageName = "" then "protocol" else config.packageName

/-- The beginning of a file. -/
def fileStart (config : Config) (comment imports : List String) : String :=
  Layout.header comment ++ "package " ++ packageName config ++ "\n\n" ++
    if imports.isEmpty then ""
    else
      Text.unlines <| ["import ("] ++ imports.map (fun name => "\t\"" ++ name ++ "\"") ++ [")", ""]

/-- The declarations of an outline. -/
def declarations (config : Config) (outline : Outline) : Rendering (List String) := do
  let classes ← outline.classes.mapM structText
  let enums ← outline.enums.mapM enumText
  let aliases ← outline.aliases.mapM aliasText
  let composites ← outline.composites.mapM fun (_, composite) => compositeText config composite
  let methods ←
    if outline.methods.isEmpty then pure []
    else List.singleton <$> methodsText config outline.methods
  return classes ++ enums ++ aliases ++ composites ++ methods

/-- The Go file of an outline. -/
def fileText (config : Config) (outline : Outline) : Rendering String :=
  let rendering := declarations config outline
  { imports := rendering.imports
    result := rendering.result.map fun texts =>
      Layout.file (fileStart config outline.comment (Text.sortedSet rendering.imports)) texts }

end ProtocolCodegen.Go
