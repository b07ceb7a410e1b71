import ProtocolCodegen.Name
import ProtocolCodegen.Profile
import ProtocolCodegen.Target.Layout
import ProtocolCodegen.Target.Proto.Alias
import ProtocolCodegen.Target.Rendering

/-!
# Proto: types

How base types, types and names are written in proto3.  A field is a list, a map or a single type,
and a list or map within another type becomes the general list or object.
-/

namespace ProtocolCodegen.Proto

/-- What lowering needs to know of proto3. -/
def profile : Profile where
  name := "proto"
  baseTypes := {
    spellings := [
      (.string, "string"),
      (.integer, "int32"),
      (.uinteger, "uint32"),
      (.decimal, "double"),
      (.boolean, "bool"),
      (.null, "google.protobuf.NullValue"),
      (.any, "google.protobuf.Value"),
      (.object, "google.protobuf.Struct"),
      (.array, "google.protobuf.ListValue")]
    idents := [
      (.string, "String"),
      (.integer, "Int32"),
      (.uinteger, "Uint32"),
      (.decimal, "Double"),
      (.boolean, "Bool"),
      (.null, "Null"),
      (.any, "Value"),
      (.object, "Struct"),
      (.array, "ListValue")]
    anyType := "google.protobuf.Value"
    anyIdent := "Value" }
  naming := { Naming.standard with reserved := [('$', ""), ('_', "X")] }
  overrides := [
    ("DocumentUri", .string),
    ("URI", .string),
    ("ChangeAnnotationIdentifier", .string),
    ("Pattern", .string),
    ("GlobPattern", .string),
    ("RegularExpressionEngineKind", .string),
    ("ProgressToken", .string),
    ("DocumentSelector", .string),
    ("LSPAny", .any),
    ("LSPObject", .object),
    ("LSPArray", .array)]
  wrapsMapArrays := true
  wrapsUnionCollections := true
  scalarMapKeys := true

mutual

/-- Number of descriptors within a descriptor, itself included. -/
def size : Descriptor → Nat
  | ⟨_, _, _, arguments, _⟩ => sizes arguments + 1

/-- Number of descriptors within descriptors. -/
def sizes : List Descriptor → Nat
  | [] => 0
  | descriptor :: rest => size descriptor + sizes rest

end

/-- The spelling of a type that is neither a list, a map nor optional. -/
def plainText (descriptor : Descriptor) : String :=
  if descriptor.name = "" then profile.baseTypes.anyType else descriptor.name

/-- The spelling of a type that must be single. -/
def singleTextWithin (aliases : AliasTable) : Nat → Descriptor → Except RenderError String
  | 0, _ => .error .endless
  | fuel + 1, descriptor =>
      match resolve aliases descriptor with
      | none => .ok profile.baseTypes.anyType
      | some resolved =>
          match resolved.kind, resolved.arguments with
          | .optional, inner :: _ => singleTextWithin aliases fuel inner
          | .optional, [] => .error .noArgument
          | .array, _ => .ok (profile.baseTypes.spell .array)
          | .map, _ => .ok (profile.baseTypes.spell .object)
          | _, _ => .ok (plainText resolved)

/-- The spelling of the type of a field. -/
def fieldTextWithin (aliases : AliasTable) : Nat → Descriptor → Except RenderError String
  | 0, _ => .error .endless
  | fuel + 1, descriptor =>
      match resolve aliases descriptor with
      | none => .ok profile.baseTypes.anyType
      | some resolved =>
          match resolved.kind, resolved.arguments with
          | .optional, inner :: _ => fieldTextWithin aliases fuel inner
          | .array, element :: _ =>
              return "repeated " ++ (← singleTextWithin aliases fuel element)
          | .optional, [] | .array, [] => .error .noArgument
          | .map, [key, value] => do
              let key ← fieldTextWithin aliases fuel key
              let value ← singleTextWithin aliases fuel value
              return "map<" ++ key ++ ", " ++ value ++ ">"
          | .map, arguments => .error (.wrongArity arguments.length)
          | _, _ => .ok (plainText resolved)

/-- A bound on the steps that the spelling of a type takes unless it has no end.  A step goes from
one descriptor within the type or within an alias to another one, spelled as a field or as single;
one that was met before comes again and again. -/
def spellingBound (aliases : AliasTable) (descriptor : Descriptor) : Nat :=
  2 * (size descriptor + sizes (aliases.filterMap (·.2))) + 2

/-- The spelling of a type that must be single. -/
def singleText (aliases : AliasTable) (descriptor : Descriptor) : Except RenderError String :=
  singleTextWithin aliases (spellingBound aliases descriptor) descriptor

/-- The spelling of the type of a field. -/
def fieldText (aliases : AliasTable) (descriptor : Descriptor) : Except RenderError String :=
  fieldTextWithin aliases (spellingBound aliases descriptor) descriptor

/-- The spelling of the type of a field that may be missing. -/
def fieldTextOf (aliases : AliasTable) (descriptor : Option Descriptor) :
    Except RenderError String :=
  match descriptor with
  | some descriptor => fieldText aliases descriptor
  | none => .ok profile.baseTypes.anyType

/-- The name of a field. -/
def fieldName (name : String) : String :=
  Name.snakeCase (Name.withoutMarks name)

end ProtocolCodegen.Proto
