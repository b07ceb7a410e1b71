import ProtocolCodegen.Number.Numeral
import ProtocolCodegen.Target.Kotlin.Text

/-!
# Kotlin: enumerations

An enumeration of strings becomes an enum class whose members have serial names.  Any other becomes
an enum class over a value, with a serializer that writes the value.
-/

namespace ProtocolCodegen.Kotlin

open Outline

/-- The floating-point number of a data value. -/
def toBinary64 : Json → Except RenderError Binary64
  | .float value => .ok value
  | .int value =>
      match Binary64.ofInt? value with
      | some number => .ok number
      | none => .error .tooLarge
  | .bool value => .ok (.ofDecimal false (if value then 1 else 0) 0)
  | .str text =>
      match Numeral.read? text with
      | some number => .ok number
      | none => .error (.notNumeral text)
  | _ => .error .notNumeric

/-- The value of a member as it is written in code. -/
def memberValue (declared : Enum) (member : Member) : Except RenderError String :=
  match declared.category with
  | .string => .ok (stringLiteral member.value.text)
  | .decimal => return (← toBinary64 member.value).text
  | .uinteger => .ok (member.value.text ++ "u")
  | _ => .ok member.value.text

/-- The lines of a member, of which the last takes the mark that ends the member; `written` writes
the value and the name. -/
def memberLines (written : (name value : String) → List String)
    (member : Member × String) (isLast : Bool) : List String :=
  let lines := written (Name.screamingSnakeCase member.1.name) member.2
  let mark := if isLast then ";" else ","
  docComment (docLines member.1.documentation "" "") "    " ++
    lines.dropLast ++ [lines.getLast?.getD "" ++ mark]

/-- The lines of members. -/
def membersLines (written : (name value : String) → List String) :
    List (Member × String) → List String
  | [] => []
  | [member] => memberLines written member true
  | member :: rest => memberLines written member false ++ membersLines written rest

/-- The lines of an enum class of strings. -/
def stringEnumLines (name : String) (members : List (Member × String)) : List String :=
  ["@Serializable", "enum class " ++ name ++ " \x7b"] ++
    membersLines (fun name value => ["    @SerialName(" ++ value ++ ")", "    " ++ name]) members ++
    ["\x7d"]

/-- How the values of a category are written and read. -/
structure SerialCalls where
  /-- The kind of primitive. -/
  kind : String
  /-- The call that writes a value. -/
  encode : String
  /-- The call that reads a value. -/
  decode : String

/-- How the values of a category of a Kotlin type are written and read. -/
def serialCalls (category : Category) (type : String) : SerialCalls :=
  if category = .decimal then
    ⟨"DOUBLE", "encodeDouble(value.value)", "decodeDouble()"⟩
  else
    ⟨"INT", "encodeInt(value.value.toInt())", "decodeInt().to" ++ type ++ "()"⟩

/-- The lines of an enum class over a value and of its serializer. -/
def valueEnumLines (category : Category) (name : String) (members : List (Member × String)) :
    List String :=
  let type := profile.baseTypes.spell category
  let calls := serialCalls category type
  ["@Serializable(with = " ++ name ++ "Serializer::class)",
    "enum class " ++ name ++ "(val value: " ++ type ++ ") \x7b"] ++
  (if members.isEmpty then ["    ;"]
    else membersLines (fun name value => ["    " ++ name ++ "(" ++ value ++ ")"]) members) ++
  ["",
    "    companion object \x7b",
    "        fun fromValue(value: " ++ type ++ "): " ++ name ++ " =",
    "            entries.first \x7b it.value == value \x7d",
    "    \x7d",
    "\x7d",
    "",
    "object " ++ name ++ "Serializer : KSerializer<" ++ name ++ "> \x7b",
    "    override val descriptor: SerialDescriptor =",
    "        PrimitiveSerialDescriptor(\"" ++ name ++ "\", PrimitiveKind." ++ calls.kind ++ ")",
    "",
    "    override fun serialize(encoder: Encoder, value: " ++ name ++ ") \x7b",
    "        encoder." ++ calls.encode,
    "    \x7d",
    "",
    "    override fun deserialize(decoder: Decoder): " ++ name ++ " =",
    "        " ++ name ++ ".fromValue(decoder." ++ calls.decode ++ ")",
    "\x7d"]

/-- The names that an enum class uses. -/
def enumImports (isString : Bool) : List String :=
  if isString then ["kotlinx.serialization.SerialName"]
  else [
    "kotlinx.serialization.KSerializer",
    "kotlinx.serialization.descriptors.PrimitiveKind",
    "kotlinx.serialization.descriptors.PrimitiveSerialDescriptor",
    "kotlinx.serialization.descriptors.SerialDescriptor",
    "kotlinx.serialization.encoding.Decoder",
    "kotlinx.serialization.encoding.Encoder"]

/-- The enum class of an enumeration. -/
def enumText (declared : Enum) : Rendering String := do
  let members ← declared.members.mapM fun member => do
    let value ← memberValue declared member
    return (member, value)
  Rendering.require (enumImports declared.isString)
  return Text.unlines <| notesComment declared.notes "" ++
    if declared.isString then stringEnumLines declared.name members
    else valueEnumLines declared.category declared.name members

end ProtocolCodegen.Kotlin
