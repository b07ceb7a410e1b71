import ProtocolCodegen.Outline.Basic
import ProtocolCodegen.Profile
import ProtocolCodegen.Target.Layout
import ProtocolCodegen.Target.Rendering

/-!
# Kotlin: texts

How base types, types, strings, names and comments are written in Kotlin.
-/

namespace ProtocolCodegen.Kotlin

/-- What lowering needs to know of Kotlin. -/
def profile : Profile where
  name := "kotlin"
  baseTypes := {
    spellings := [
      (.string, "String"),
      (.integer, "Int"),
      (.uinteger, "UInt"),
      (.decimal, "Double"),
      (.boolean, "Boolean"),
      (.null, "Nothing?"),
      (.any, "Any?"),
      (.object, "Map<String, Any?>"),
      (.array, "List<Any?>")]
    idents := [(.null, "Null"), (.any, "Any"), (.object, "Object"), (.array, "Array")]
    anyType := "Any"
    anyIdent := "Any" }
  naming := .standard
  overrides := [
    ("DocumentUri", .string),
    ("URI", .string),
    ("ChangeAnnotationIdentifier", .string),
    ("Pattern", .string),
    ("GlobPattern", .string),
    ("RegularExpressionEngineKind", .string),
    ("ProgressToken", .string),
    ("DocumentSelector", .string)]
  wrapsMapArrays := false
  wrapsUnionCollections := false
  scalarMapKeys := false

/-- One character of a Kotlin string literal: a carriage return is dropped and a line feed becomes a
space. -/
def literalChar (c : Char) : List Char :=
  if c = '\\' || c = '"' || c = '$' then ['\\', c]
  else if c = '\r' then []
  else if c = '\n' then [' ']
  else [c]

/-- The characters of a Kotlin string literal. -/
def literalChars (text : List Char) : List Char :=
  '"' :: text.flatMap literalChar ++ ['"']

/-- A Kotlin string literal. -/
def stringLiteral (text : String) : String :=
  String.ofList (literalChars text.toList)

/-- A text in which no end of a comment stands. -/
def escapeCommentEnd : List Char → List Char
  | '*' :: '/' :: rest => "*&#47;".toList ++ escapeCommentEnd rest
  | c :: rest => c :: escapeCommentEnd rest
  | [] => []

/-- A line of a documentation within a comment. -/
def docLine (line : String) : String :=
  Text.trimEnd (String.ofList (escapeCommentEnd line.toList))

/-- The lines of the documentation of a declaration, with paragraphs on its version and its
deprecation. -/
def docLines (documentation since deprecated : String) : List String :=
  (Layout.docParagraphs "@deprecated " documentation since deprecated).map docLine

/-- The comment around the lines of a documentation; without lines there is no comment. -/
def docComment (lines : List String) (indent : String) : List String :=
  if lines.isEmpty then []
  else
    [indent ++ "/**"] ++ lines.map (fun line => Text.trimEnd (indent ++ " * " ++ line)) ++
      [indent ++ " */"]

/-- The comment of a declaration. -/
def notesComment (notes : Notes) (indent : String) : List String :=
  docComment (docLines notes.documentation notes.since notes.deprecated) indent

/-- The words that cannot be names of properties. -/
def keywords : List String := [
  "as", "break", "class", "continue", "do", "else", "false", "for", "fun", "if", "in",
  "interface", "is", "null", "object", "package", "return", "super", "this", "throw", "true",
  "try", "typealias", "typeof", "val", "var", "when", "while"]

/-- The name of a property; a keyword is quoted. -/
def fieldName (name : String) : String :=
  let plain := Name.withoutMarks name
  if keywords.contains plain then "`" ++ plain ++ "`" else plain

/-- A type whose values can be null. -/
def nullable (type : String) : String :=
  if type.toList.getLast? == some '?' then type else type ++ "?"

/-- The Kotlin type of a descriptor. -/
def typeText : Descriptor → Except RenderError String
  | ⟨.optional, _, _, inner :: _, _⟩ => return nullable (← typeText inner)
  | ⟨.array, _, _, element :: _, _⟩ => return "List<" ++ (← typeText element) ++ ">"
  | ⟨.optional, _, _, [], _⟩ | ⟨.array, _, _, [], _⟩ => .error .noArgument
  | ⟨.map, _, _, [key, value], _⟩ =>
      return "Map<" ++ (← typeText key) ++ ", " ++ (← typeText value) ++ ">"
  | ⟨.map, _, _, arguments, _⟩ => .error (.wrongArity arguments.length)
  | ⟨_, name, _, _, _⟩ => .ok (if name = "" then profile.baseTypes.anyType else name)

/-- The Kotlin type of a descriptor that may be missing. -/
def typeTextOf (descriptor : Option Descriptor) : Except RenderError String :=
  match descriptor with
  | some descriptor => typeText descriptor
  | none => .ok profile.baseTypes.anyType

/-- Whether a type has no values worth returning. -/
def isUnit : Option Descriptor → Bool
  | some descriptor => descriptor.kind == .scalar && descriptor.category == some .null
  | none => true

end ProtocolCodegen.Kotlin
