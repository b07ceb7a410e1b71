import ProtocolCodegen.Config
import ProtocolCodegen.Outline.Basic
import ProtocolCodegen.Target.Proto.Text

/-!
# Proto: files

Classes become messages, enumerations enums whose first member has the number zero, unions messages
with a oneof, and wrappers messages with one field.  Aliases are only listed in a comment, and
methods are left out.
-/

namespace ProtocolCodegen.Proto

open Outline

/-- The comment that lists the aliases. -/
def aliasesText (aliases : AliasTable) (declared : List Alias) : Rendering String := do
  let lines ← declared.mapM fun item => do
    let type ← fieldTextOf aliases item.target
    return "// " ++ item.originalName ++ " -> " ++ type
  return Text.unlines <|
    ["// Type Aliases", "// The following type aliases are mapped to proto3 types:"] ++ lines

/-- A member of a proto enum. -/
structure EnumLine where
  /-- Name of the member. -/
  name : String
  /-- Its number, as it is written. -/
  number : String
  /-- Whether its number is zero. -/
  isZero : Bool
  /-- Its comment. -/
  comment : List String

/-- Whether a value is a whole number; the truth values count as one and zero. -/
def isWhole : Json → Bool
  | .int _ | .bool _ => true
  | _ => false

/-- Whether a value is the number zero. -/
def isZeroValue : Json → Bool
  | .int value => value == 0
  | .bool value => !value
  | _ => false

/-- Whether the members of an enumeration keep their values as numbers. -/
def isNumbered (declared : Enum) : Bool :=
  declared.category.isNumeric && declared.members.all (isWhole ·.value)

/-- The comment of a member, which holds the first line of its documentation. -/
def memberComment (documentation : String) : List String :=
  Layout.commentLines ((Text.lines documentation).headD "") "  "

/-- The members of an enumeration under names that begin with its own name; without values as
numbers they are counted from one. -/
def numberedLines (declared : Enum) (start : String) : List EnumLine :=
  declared.members.zipIdx.map fun (member, index) =>
    let numbered := isNumbered declared
    { name := start ++ "_" ++ Name.screamingSnakeCase member.name
      number := if numbered then member.value.text else toString (index + 1)
      isZero := numbered && isZeroValue member.value
      comment := memberComment member.documentation }

/-- The members of a proto enum: those of number zero first, and one that is added if there is
none. -/
def enumLines (declared : Enum) : List EnumLine :=
  let start := Name.screamingSnakeCase (Name.withoutMarks declared.originalName)
  let lines := numberedLines declared start
  if lines.any (·.isZero) then
    lines.filter (·.isZero) ++ lines.filter (!·.isZero)
  else
    { name := start ++ "_UNSPECIFIED", number := "0", isZero := true, comment := [] } :: lines

/-- The enum of an enumeration. -/
def enumText (declared : Enum) : String :=
  let members := (enumLines declared).flatMap fun line =>
    line.comment ++ ["  " ++ line.name ++ " = " ++ line.number ++ ";"]
  Text.unlines <| Layout.commentLines declared.notes.documentation "" ++
    ["enum " ++ declared.name ++ " \x7b"] ++ members ++ ["\x7d"]

/-- Whether a type is a list or a map, whose absence is that it is empty. -/
def isCollection (type : String) : Bool :=
  ["repeated ", "map<"].any fun start => start.toList.isPrefixOf type.toList

/-- Whether the values of a field can be absent. -/
def isNullable (field : Field) : Bool :=
  field.optional || (field.type.map (·.kind == .optional)).getD false

/-- The type of a field with its label. -/
def labelledType (aliases : AliasTable) (field : Field) : Except RenderError String := do
  let type ← fieldTextOf aliases field.type
  return (if isNullable field && !isCollection type then "optional " else "") ++ type

/-- The lines of a field with its comment. -/
def fieldLines (aliases : AliasTable) (field : Field) (number : Nat) :
    Except RenderError (List String) := do
  let type ← labelledType aliases field
  return Layout.commentLines field.notes.documentation "  " ++
    ["  " ++ type ++ " " ++ fieldName field.name ++ " = " ++ toString number ++ ";"]

/-- The message of a class. -/
def messageText (aliases : AliasTable) (declared : Outline.Class) : Rendering String := do
  let fields ← declared.fields.zipIdx.mapM fun (field, index) =>
    (fieldLines aliases field (index + 1) : Rendering (List String))
  return Text.unlines <| Layout.commentLines declared.notes.documentation "" ++
    ["message " ++ declared.name ++ " \x7b"] ++ fields.flatten ++ ["\x7d"]

/-- The name of a member of a oneof. -/
def variantName (aliases : AliasTable) (variant : Variant) : String :=
  let name := Name.snakeCase variant.ident
  match resolve aliases variant.type with
  | some resolved => if resolved.kind = .scalar then name ++ "_value" else name
  | none => name

/-- The message of a union. -/
def unionText (aliases : AliasTable) (name : String) (variants : List Variant) :
    Rendering String := do
  let fields ← variants.zipIdx.mapM fun (variant, index) => do
    let type ← singleText aliases variant.type
    return "    " ++ type ++ " " ++ variantName aliases variant ++ " = " ++
      toString (index + 1) ++ ";"
  return Text.unlines <|
    ["message " ++ name ++ " \x7b", "  oneof value \x7b"] ++ fields ++ ["  \x7d", "\x7d"]

/-- The lines of the message of a wrapper. -/
def wrapperLines (aliases : AliasTable) (name field : String) (wrapped : Descriptor) :
    Except RenderError (List String) := do
  let type ← fieldText aliases wrapped
  return ["message " ++ name ++ " \x7b", "  " ++ type ++ " " ++ field ++ " = 1;", "\x7d"]

/-- The messages of the unions among composites. -/
def unionsTexts (aliases : AliasTable) (composites : List (String × Composite)) :
    Rendering (List String) :=
  (composites.filterMap fun
    | (_, .union name variants) => some (name, variants)
    | _ => none).mapM fun (name, variants) => unionText aliases name variants

/-- The messages of the wrappers among composites. -/
def wrappersTexts (aliases : AliasTable) (composites : List (String × Composite)) :
    Rendering (List String) := do
  let wrappers ← (composites.filterMap fun
    | (_, .wrapper name field wrapped) => some (name, field, wrapped)
    | _ => none).mapM fun (name, field, wrapped) =>
      (wrapperLines aliases name field wrapped : Rendering (List String))
  if wrappers.isEmpty then
    return []
  else
    return [Text.unlines <| "// Helper messages for collections proto3 cannot nest directly" ::
      List.intercalate [""] wrappers]

/-- The package of a file. -/
def packageName (config : Config) : String :=
  if config.packageName = "" then "lsp" else config.packageName

/-- The beginning of a file. -/
def fileStart (config : Config) (comment : List String) : String :=
  Layout.header comment ++ "syntax = \"proto3\";\n\npackage " ++ packageName config ++ ";\n\n" ++
    (if config.goPackage = "" then ""
      else "option go_package = \"" ++ config.goPackage ++ "\";\n\n") ++
    "// Well-known types for dynamic values\nimport \"google/protobuf/struct.proto\";\n\n"

/-- The types that the aliases of an outline stand for; of equal names the last one counts. -/
def aliasTable (outline : Outline) : AliasTable :=
  Dictionary.ofList (outline.aliases.map fun declared => (declared.name, declared.target))

/-- The declarations of an outline. -/
def declarations (outline : Outline) : Rendering (List String) := do
  let aliases := aliasTable outline
  let listed ←
    if outline.aliases.isEmpty then pure []
    else List.singleton <$> aliasesText aliases outline.aliases
  let messages ← outline.classes.mapM (messageText aliases)
  let unions ← unionsTexts aliases outline.composites
  let wrappers ← wrappersTexts aliases outline.composites
  return listed ++ outline.enums.map enumText ++ messages ++ unions ++ wrappers

/-- The proto file of an outline. -/
def fileText (config : Config) (outline : Outline) : Rendering String := do
  return Layout.file (fileStart config outline.comment) (← declarations outline)

end ProtocolCodegen.Proto
