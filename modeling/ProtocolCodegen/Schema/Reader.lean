import ProtocolCodegen.Json.Encoding
import ProtocolCodegen.Schema.Fault
import ProtocolCodegen.Schema.Model

/-!
# Reading a schema

A schema is read from the value of a JSON document.  The first fault in the order in which the parts
of a declaration are read is the one that is reported.  Keys that have no meaning are ignored.
-/

namespace ProtocolCodegen

/-- What reading a part of a schema yields. -/
abbrev Reading (α : Type) := Except SchemaError α

namespace Reading

/-- Reports a fault at a place. -/
def fail {α : Type} (fault : Fault) (path : Path) : Reading α :=
  .error ⟨fault, path⟩

/-- The fields of a value that must be an object. -/
def object (path : Path) : Json → Reading (Dictionary String Json)
  | .obj fields => .ok fields
  | value => fail (.notObject value.typeName) path

/-- The items of a value that must be an array. -/
def array (path : Path) : Json → Reading (List Json)
  | .arr items => .ok items
  | value => fail (.notArray value.typeName) path

/-- The string under a key, which is empty if the key is absent. -/
def string (fields : Dictionary String Json) (key : String) (path : Path) : Reading String :=
  match fields.get? key with
  | none => .ok ""
  | some (.str value) => .ok value
  | some value => fail (.notString value.typeName) (path.field key)

/-- Whether the value under a key counts as true. -/
def flag (fields : Dictionary String Json) (key : String) : Bool :=
  ((fields.get? key).map Json.isTruthy).getD false

/-- The value under a key, unless it is absent or null. -/
def present? (fields : Dictionary String Json) (key : String) : Option Json :=
  match fields.get? key with
  | some .null => none
  | found => found

/-- The array under a key; an absent one is empty, and null is not an array. -/
def arrayField (fields : Dictionary String Json) (key : String) (path : Path) :
    Reading (List Json) :=
  match fields.get? key with
  | none => .ok []
  | some value => array (path.field key) value

/-- The description of a declaration. -/
def notes (fields : Dictionary String Json) (path : Path) : Reading Notes := do
  let documentation ← string fields "documentation" path
  let since ← string fields "since" path
  let deprecated ← string fields "deprecated" path
  return { documentation, since, deprecated }

/-- Reads the items of an array, which stand at consecutive indices. -/
def each {α : Type} (read : Path → Json → Reading α) (path : Path) (index : Nat) :
    List Json → Reading (List α)
  | [] => .ok []
  | value :: rest => do
      let item ← read (path.item index) value
      let items ← each read path (index + 1) rest
      return item :: items

end Reading

open Reading

theorem Json.sizeOf_get? {key : String} {fields : List (String × Json)} {value : Json}
    (found : Dictionary.get? key fields = some value) : sizeOf value < sizeOf fields := by
  induction fields with
  | nil => simp at found
  | cons entry rest ih =>
      obtain ⟨other, first⟩ := entry
      rw [Dictionary.get?] at found
      split at found
      · obtain rfl := Option.some.inj found
        simp
        omega
      · have := ih found
        simp
        omega

theorem Reading.sizeOf_present? {key : String} {fields : List (String × Json)} {value : Json}
    (found : present? fields key = some value) : sizeOf value < sizeOf fields := by
  rw [present?] at found
  split at found
  · simp at found
  · exact Json.sizeOf_get? found

theorem Reading.sizeOf_present_array? {key : String} {fields : List (String × Json)}
    {values : List Json} (found : present? fields key = some (.arr values)) :
    sizeOf values < sizeOf fields := by
  have := sizeOf_present? found
  simp at this
  omega

theorem Json.sizeOf_get_array? {key innerKey : String} {fields inner : List (String × Json)}
    {values : List Json} (found : Dictionary.get? key fields = some (.obj inner))
    (foundInner : Dictionary.get? innerKey inner = some (.arr values)) :
    sizeOf values < sizeOf fields := by
  have := sizeOf_get? found
  have := sizeOf_get? foundInner
  simp at *
  omega

namespace Node

mutual

/-- The type node of a value at a place. -/
def read (path : Path) (value : Json) : Reading Node :=
  match value with
  | .obj fields =>
      match Dictionary.get? "kind" fields with
      | some (.str "base") => return .base path (← string fields "name" path)
      | some (.str "reference") => return .reference path (← string fields "name" path)
      | some (.str "array") =>
          match present : present? fields "element" with
          | none => fail .noElement path
          | some element =>
              have := sizeOf_present? present
              return .array path (← read (path.field "element") element)
      | some (.str "map") =>
          match presentKey : present? fields "key", presentValue : present? fields "value" with
          | some key, some value => do
              have := sizeOf_present? presentKey
              have := sizeOf_present? presentValue
              let key ← read (path.field "key") key
              let value ← read (path.field "value") value
              return .map path key value
          | _, _ => fail .noKeyOrValue path
      | some (.str "literal") =>
          match found : Dictionary.get? "value" fields with
          | some (.obj inner) =>
              match foundInner : Dictionary.get? "properties" inner with
              | none => .ok (.literal path [])
              | some (.arr values) =>
                  have := Json.sizeOf_get_array? found foundInner
                  return .literal path
                    (← readProperties ((path.field "value").field "properties") 0 values)
              | some other =>
                  fail (.notArray other.typeName) ((path.field "value").field "properties")
          | other => fail (.notObject (other.getD .null).typeName) (path.field "value")
      | some (.str "stringLiteral") =>
          match Dictionary.get? "value" fields with
          | some (.str value) => .ok (.constant path value)
          | _ => fail .constantNotString (path.field "value")
      | some (.str "or") => return .union path (← readList path fields "items")
      | some (.str "and") => return .intersection path (← readList path fields "items")
      | some (.str "tuple") => return .tuple path (← readList path fields "items")
      | some (.str kind) => fail (.unknownKind kind) path
      | _ => fail .noKind path
  | value => fail (.notObject value.typeName) path
termination_by (sizeOf value, 0)
decreasing_by all_goals (simp_wf; omega)

/-- The type nodes of the array under a key, which can be absent or null. -/
def readList (path : Path) (fields : List (String × Json)) (key : String) : Reading (List Node) :=
  match present : present? fields key with
  | none => .ok []
  | some (.arr values) =>
      have := sizeOf_present_array? present
      readItems (path.field key) 0 values
  | some other => fail (.notArray other.typeName) (path.field key)
termination_by (sizeOf fields, 1)
decreasing_by omega

/-- The type nodes of values at consecutive indices. -/
def readItems (path : Path) (index : Nat) (values : List Json) : Reading (List Node) :=
  match values with
  | [] => .ok []
  | value :: rest => do
      let node ← read (path.item index) value
      let nodes ← readItems path (index + 1) rest
      return node :: nodes
termination_by (sizeOf values, 2)
decreasing_by all_goals (simp_wf; omega)

/-- The properties of values at consecutive indices. -/
def readProperties (path : Path) (index : Nat) (values : List Json) :
    Reading (List (Property Node)) :=
  match values with
  | [] => .ok []
  | value :: rest => do
      let property ← readProperty (path.item index) value
      let properties ← readProperties path (index + 1) rest
      return property :: properties
termination_by (sizeOf values, 2)
decreasing_by all_goals (simp_wf; omega)

/-- The property of a value at a place. -/
def readProperty (path : Path) (value : Json) : Reading (Property Node) :=
  match value with
  | .obj fields =>
      match present : present? fields "type" with
      | none => fail .noType path
      | some inner => do
          have := sizeOf_present? present
          let name ← string fields "name" path
          let type ← read (path.field "type") inner
          let notes ← Reading.notes fields path
          return {
            name
            type
            optional := flag fields "optional"
            proposed := flag fields "proposed"
            notes
          }
  | value => fail (.notObject value.typeName) path
termination_by (sizeOf value, 1)
decreasing_by all_goals (simp_wf; omega)

end

/-- The type node under a key, which can be absent or null. -/
def readOptional (fields : Dictionary String Json) (key : String) (path : Path) :
    Reading (Option Node) :=
  match present? fields key with
  | none => .ok none
  | some value => return some (← read (path.field key) value)

end Node

/-- The record of a value at a place. -/
def Structure.read (path : Path) (value : Json) : Reading Structure := do
  let fields ← object path value
  let values ← arrayField fields "properties" path
  let properties ← Node.readProperties (path.field "properties") 0 values
  let name ← string fields "name" path
  let parents ← Node.readList path fields "extends"
  let mixins ← Node.readList path fields "mixins"
  let notes ← Reading.notes fields path
  return { name, properties, parents, mixins, proposed := flag fields "proposed", notes }

/-- Whether the values of an enumeration of a type must be whole numbers. -/
def Enumeration.isIntegral : Option Node → Bool
  | some (.base _ name) => name == "integer" || name == "uinteger"
  | _ => false

/-- The constant of a value at a place; a floating-point number that is whole becomes an integer. -/
def Constant.read (integral : Bool) (path : Path) : Option Json → Reading Constant
  | some (.str value) => .ok (.text value)
  | some (.int value) => .ok (.int value)
  | some (.float value) =>
      match value.toInt? with
      | some whole => .ok (.int whole)
      | none => if integral then fail (.valueNotWhole value) path else .ok (.float value)
  | _ => fail .valueNotScalar path

/-- The enumeration value of a value at a place. -/
def EnumValue.read (integral : Bool) (path : Path) (value : Json) : Reading EnumValue := do
  let fields ← object path value
  let constant ← Constant.read integral (path.field "value") (fields.get? "value")
  let name ← string fields "name" path
  let documentation ← string fields "documentation" path
  let since ← string fields "since" path
  return { name, value := constant, proposed := flag fields "proposed", documentation, since }

/-- The enumeration of a value at a place. -/
def Enumeration.read (path : Path) (value : Json) : Reading Enumeration := do
  let fields ← object path value
  let type ← Node.readOptional fields "type" path
  let items ← arrayField fields "values" path
  let values ← each (EnumValue.read (isIntegral type)) (path.field "values") 0 items
  let name ← string fields "name" path
  let notes ← Reading.notes fields path
  return {
    name
    type
    values
    supportsCustomValues := flag fields "supportsCustomValues"
    proposed := flag fields "proposed"
    notes
  }

/-- The type alias of a value at a place. -/
def TypeAlias.read (path : Path) (value : Json) : Reading TypeAlias := do
  let fields ← object path value
  let name ← string fields "name" path
  let type ← Node.readOptional fields "type" path
  let notes ← Reading.notes fields path
  return { name, type, proposed := flag fields "proposed", notes }

/-- The request of a value at a place. -/
def Request.read (path : Path) (value : Json) : Reading Request := do
  let fields ← object path value
  let method ← string fields "method" path
  let direction ← string fields "messageDirection" path
  let params ← Node.readOptional fields "params" path
  let result ← Node.readOptional fields "result" path
  let partialResult ← Node.readOptional fields "partialResult" path
  let errorData ← Node.readOptional fields "errorData" path
  let registrationMethod ← string fields "registrationMethod" path
  let registrationOptions ← Node.readOptional fields "registrationOptions" path
  let notes ← Reading.notes fields path
  return {
    method
    direction
    params
    result
    partialResult
    errorData
    registrationMethod
    registrationOptions
    proposed := flag fields "proposed"
    notes
  }

/-- The notification of a value at a place. -/
def Notification.read (path : Path) (value : Json) : Reading Notification := do
  let fields ← object path value
  let method ← string fields "method" path
  let direction ← string fields "messageDirection" path
  let params ← Node.readOptional fields "params" path
  let registrationMethod ← string fields "registrationMethod" path
  let registrationOptions ← Node.readOptional fields "registrationOptions" path
  let notes ← Reading.notes fields path
  return {
    method
    direction
    params
    registrationMethod
    registrationOptions
    proposed := flag fields "proposed"
    notes
  }

namespace Model

/-- The declarations of a section, which can be absent or null. -/
def readSection {α : Type} (read : Path → Json → Reading α) (document : Dictionary String Json)
    (key : String) : Reading (List α) :=
  match present? document key with
  | none => .ok []
  | some (.arr values) => each read (.root key) 0 values
  | some _ => fail .sectionNotArray (.root key)

/-- The version in the data about the document, which can be absent or count as false. -/
def readVersion (document : Dictionary String Json) : Reading String :=
  match (document.get? "metaData").filter Json.isTruthy with
  | none => .ok ""
  | some (.obj fields) => .ok (((Dictionary.get? "version" fields).map Json.text).getD "")
  | some _ => fail .metaDataNotObject (.root "metaData")

/-- The protocol of a document. -/
def read (document : Json) : Reading Model :=
  match document with
  | .obj fields => do
      let version ← readVersion fields
      let requests ← readSection Request.read fields "requests"
      let notifications ← readSection Notification.read fields "notifications"
      let structures ← readSection Structure.read fields "structures"
      let enumerations ← readSection Enumeration.read fields "enumerations"
      let aliases ← readSection TypeAlias.read fields "typeAliases"
      return { version, requests, notifications, structures, enumerations, aliases }
  | value => fail (.documentNotObject value.typeName) (.root "")

/-- The protocol of a document that may not be well formed. -/
def readParsed : Option Json → Reading Model
  | none => fail .malformed (.root "")
  | some document => read document

/-- The protocol of a document given as a text. -/
def ofText (document : String) : Reading Model :=
  readParsed (Json.ofText? document)

/-- The protocol of a document given as bytes. -/
def ofBytes (document : ByteArray) : Reading Model :=
  readParsed (Json.ofBytes? document)

end Model
end ProtocolCodegen
