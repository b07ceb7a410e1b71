import ProtocolCodegen.Outline.Basic
import ProtocolCodegen.Profile
import ProtocolCodegen.Target.Layout
import ProtocolCodegen.Target.Rendering

/-!
# Go: texts

How base types, types, strings, names and comments are written in Go.
-/

namespace ProtocolCodegen.Go

/-- What lowering needs to know of Go. -/
def profile : Profile where
  name := "go"
  baseTypes := {
    spellings := [
      (.string, "string"),
      (.integer, "int32"),
      (.uinteger, "uint32"),
      (.decimal, "float64"),
      (.boolean, "bool"),
      (.null, "any"),
      (.any, "any"),
      (.object, "map[string]any"),
      (.array, "[]any")]
    idents := [(.null, "Null"), (.object, "LSPObject"), (.array, "LSPArray")]
    anyType := "any"
    anyIdent := "any" }
  naming := .standard
  overrides := [("LSPAny", .any), ("LSPObject", .object), ("LSPArray", .array)]
  wrapsMapArrays := false
  wrapsUnionCollections := false
  scalarMapKeys := false

/-- A Go string literal. -/
def stringLiteral (text : String) : String :=
  Text.asciiQuoted text

/-- The comment of a declaration, with paragraphs on its version and its deprecation. -/
def docComment (documentation since deprecated indent : String) : List String :=
  (Layout.docParagraphs "Deprecated: " documentation since deprecated).map
    (Layout.lineComment indent)

/-- Whether the values of a type can be nil. -/
def isNilable (type : String) : Bool :=
  ["*", "[]", "map["].any fun start => start.toList.isPrefixOf type.toList

/-- The pointer to a type, unless its values can be nil or anything. -/
def pointer (type : String) : String :=
  if isNilable type || type == profile.baseTypes.anyType then type else "*" ++ type

/-- The Go type of a descriptor. -/
def typeText : Descriptor → Except RenderError String
  | ⟨.optional, _, _, inner :: _, _⟩ => return pointer (← typeText inner)
  | ⟨.array, _, _, element :: _, _⟩ => return "[]" ++ (← typeText element)
  | ⟨.optional, _, _, [], _⟩ | ⟨.array, _, _, [], _⟩ => .error .noArgument
  | ⟨.map, _, _, [key, value], _⟩ => return "map[" ++ (← typeText key) ++ "]" ++ (← typeText value)
  | ⟨.map, _, _, arguments, _⟩ => .error (.wrongArity arguments.length)
  | ⟨_, name, _, _, _⟩ => .ok (if name = "" then profile.baseTypes.anyType else name)

/-- The Go type of a descriptor that may be missing. -/
def typeTextOf (descriptor : Option Descriptor) : Except RenderError String :=
  match descriptor with
  | some descriptor => typeText descriptor
  | none => .ok profile.baseTypes.anyType

/-- The name of a struct field. -/
def fieldName (name : String) : String :=
  profile.naming.typeName name

/-- Whether a type has no values worth returning. -/
def isVoid : Option Descriptor → Bool
  | some descriptor => descriptor.kind == .scalar && descriptor.category == some .null
  | none => true

end ProtocolCodegen.Go
