import Mathlib
import ProtocolCodegen.Proofs.Number.Value
import ProtocolCodegen.Proofs.Schema.Readings

/-!
# The grammar of schema documents

Which values are the documents of a protocol, said without a reader, and that the reader accepts
these values and no others.
-/

namespace ProtocolCodegen

namespace Json

/-- A value is an object. -/
def IsObject (value : Json) : Prop :=
  ∃ fields, value = .obj fields

/-- What stands under a key, if anything does, is a string. -/
def MayHaveText (value : Json) (key : String) : Prop :=
  ∀ part, value.field? key = some part → ∃ text, part = .str text

/-- What stands under a key, if anything but null does, satisfies a condition. -/
def MayHave (value : Json) (key : String) (Satisfies : Json → Prop) : Prop :=
  ∀ part, value.field? key = some part → part ≠ .null → Satisfies part

/-- The items that are listed under a key, which are none if the key is absent. -/
inductive Lists (value : Json) (key : String) : List Json → Prop where
  | absent (missing : value.field? key = none) : Lists value key []
  | present {items : List Json} (found : value.field? key = some (.arr items)) :
      Lists value key items

/-- The items that are listed under a key, which are none if the key is absent or null. -/
inductive ListsOrNull (value : Json) (key : String) : List Json → Prop where
  | null (found : value.field? key = some .null) : ListsOrNull value key []
  | lists {items : List Json} (lists : value.Lists key items) : ListsOrNull value key items

theorem ListsOrNull.sizeOf_item {value item : Json} {key : String} {items : List Json}
    (lists : value.ListsOrNull key items) (listed : item ∈ items) : sizeOf item < sizeOf value := by
  rcases lists with _ | _ | found
  · cases listed
  · cases listed
  · exact (Json.sizeOf_item listed).trans (sizeOf_field? found)

mutual

/-- A value is a type. -/
inductive IsType : Json → Prop where
  | tagged {value : Json} (kind : NodeKind) (tag : value.field? "kind" = some (.str kind.tag))
      (payload : HasPayload kind value) : IsType value

/-- A value has what a type of a kind needs. -/
inductive HasPayload : NodeKind → Json → Prop where
  | base {value : Json} (name : value.MayHaveText "name") : HasPayload .base value
  | reference {value : Json} (name : value.MayHaveText "name") : HasPayload .reference value
  | array {value element : Json} (found : value.field? "element" = some element)
      (isType : IsType element) : HasPayload .array value
  | map {value key result : Json} (foundKey : value.field? "key" = some key)
      (foundValue : value.field? "value" = some result) (isTypeKey : IsType key)
      (isTypeValue : IsType result) : HasPayload .map value
  | literal {value inner : Json} {properties : List Json}
      (found : value.field? "value" = some inner) (object : inner.IsObject)
      (lists : inner.Lists "properties" properties)
      (areProperties : ∀ property ∈ properties, IsProperty property) : HasPayload .literal value
  | constant {value : Json} {text : String} (found : value.field? "value" = some (.str text)) :
      HasPayload .constant value
  | union {value : Json} {members : List Json} (lists : value.ListsOrNull "items" members)
      (areTypes : ∀ member ∈ members, IsType member) : HasPayload .union value
  | intersection {value : Json} {members : List Json} (lists : value.ListsOrNull "items" members)
      (areTypes : ∀ member ∈ members, IsType member) : HasPayload .intersection value
  | tuple {value : Json} {members : List Json} (lists : value.ListsOrNull "items" members)
      (areTypes : ∀ member ∈ members, IsType member) : HasPayload .tuple value

/-- A value is a property of a record. -/
inductive IsProperty : Json → Prop where
  | typed {value type : Json} (found : value.field? "type" = some type) (isType : IsType type)
      (texts : ∀ key ∈ ["name", "documentation", "since", "deprecated"], value.MayHaveText key) :
      IsProperty value

end

/-- A value is a record. -/
structure IsStructure (value : Json) : Prop where
  object : value.IsObject
  texts : ∀ key ∈ ["name", "documentation", "since", "deprecated"], value.MayHaveText key
  properties : ∃ items, value.Lists "properties" items ∧ ∀ item ∈ items, item.IsProperty
  parents : ∃ items, value.ListsOrNull "extends" items ∧ ∀ item ∈ items, item.IsType
  mixins : ∃ items, value.ListsOrNull "mixins" items ∧ ∀ item ∈ items, item.IsType

/-- A value is the constant of an enumeration, in which all numbers may have to be whole. -/
inductive IsConstant (whole : Prop) : Json → Prop where
  | text (value : String) : IsConstant whole (.str value)
  | int (value : Int) : IsConstant whole (.int value)
  | float {value : Binary64} (integral : whole → ∃ number : Int, value.value? = some number) :
      IsConstant whole (.float value)

/-- A value is a named constant of an enumeration. -/
structure IsEnumValue (whole : Prop) (value : Json) : Prop where
  constant : ∃ part, value.field? "value" = some part ∧ part.IsConstant whole
  texts : ∀ key ∈ ["name", "documentation", "since"], value.MayHaveText key

/-- The numbers of an enumeration have to be whole. -/
def IsIntegral (value : Json) : Prop :=
  ∃ type, value.field? "type" = some type ∧ type.field? "kind" = some (.str "base") ∧
    ∃ name ∈ ["integer", "uinteger"], type.field? "name" = some (.str name)

/-- A value is an enumeration. -/
structure IsEnumeration (value : Json) : Prop where
  object : value.IsObject
  texts : ∀ key ∈ ["name", "documentation", "since", "deprecated"], value.MayHaveText key
  type : value.MayHave "type" IsType
  values : ∃ items, value.Lists "values" items ∧ ∀ item ∈ items, item.IsEnumValue value.IsIntegral

/-- A value is a name for a type. -/
structure IsTypeAlias (value : Json) : Prop where
  object : value.IsObject
  texts : ∀ key ∈ ["name", "documentation", "since", "deprecated"], value.MayHaveText key
  type : value.MayHave "type" IsType

/-- The keys that hold texts of a method. -/
def methodTexts : List String :=
  ["method", "messageDirection", "registrationMethod", "documentation", "since", "deprecated"]

/-- A value is a method that is answered. -/
structure IsRequest (value : Json) : Prop where
  object : value.IsObject
  texts : ∀ key ∈ methodTexts, value.MayHaveText key
  types : ∀ key ∈ ["params", "result", "partialResult", "errorData", "registrationOptions"],
    value.MayHave key IsType

/-- A value is a method that is not answered. -/
structure IsNotification (value : Json) : Prop where
  object : value.IsObject
  texts : ∀ key ∈ methodTexts, value.MayHaveText key
  types : ∀ key ∈ ["params", "registrationOptions"], value.MayHave key IsType

/-- A value is the document of a protocol. -/
structure IsSchema (document : Json) : Prop where
  object : document.IsObject
  metaData : ∀ data, document.field? "metaData" = some data → data.isTruthy = true → data.IsObject
  requests : ∃ items, document.ListsOrNull "requests" items ∧ ∀ item ∈ items, item.IsRequest
  notifications : ∃ items, document.ListsOrNull "notifications" items ∧
    ∀ item ∈ items, item.IsNotification
  structures : ∃ items, document.ListsOrNull "structures" items ∧ ∀ item ∈ items, item.IsStructure
  enumerations : ∃ items, document.ListsOrNull "enumerations" items ∧
    ∀ item ∈ items, item.IsEnumeration
  aliases : ∃ items, document.ListsOrNull "typeAliases" items ∧ ∀ item ∈ items, item.IsTypeAlias

end Json

/-! ## What the readers accept -/

namespace Reading

variable {α β : Type} {reading : Reading α} {next : α → Reading β} {path : Path}
  {fields : Dictionary String Json} {key : String}

/-- There is no fault. -/
def Succeeds (reading : Reading α) : Prop :=
  ∃ found, reading = .ok found

theorem exists_eq_ok_iff : (∃ found, reading = .ok found) ↔ reading.Succeeds := Iff.rfl

theorem succeeds_ok (found : α) : Succeeds (.ok found) := ⟨found, rfl⟩

theorem succeeds_pure (found : α) : Succeeds (pure found) := ⟨found, rfl⟩

theorem not_succeeds_fail {fault : Fault} : ¬Succeeds (fail fault path : Reading α) := by
  rintro ⟨found, absurd⟩
  cases absurd

theorem succeeds_bind_iff :
    Succeeds (reading >>= next) ↔ ∃ found, reading = .ok found ∧ (next found).Succeeds := by
  simp only [Succeeds, bind_eq_ok_iff]
  constructor
  · rintro ⟨result, found, read, followed⟩
    exact ⟨found, read, result, followed⟩
  · rintro ⟨found, read, result, followed⟩
    exact ⟨result, found, read, followed⟩

theorem succeeds_return_iff {make : α → β} :
    Succeeds (reading >>= fun found => pure (make found)) ↔ reading.Succeeds := by
  simp only [succeeds_bind_iff, succeeds_pure, and_true, exists_eq_ok_iff]

theorem object_eq_ok_iff {value : Json} : object path value = .ok fields ↔ value = .obj fields := by
  cases value <;> simp [object, fail]

theorem array_eq_ok_iff {value : Json} {items : List Json} :
    array path value = .ok items ↔ value = .arr items := by
  cases value <;> simp [array, fail]

theorem string_eq_ok_iff {text : String} :
    string fields key path = .ok text ↔
      fields.get? key = some (.str text) ∨ fields.get? key = none ∧ text = "" := by
  rw [string]
  split
  · rename_i missing
    simp [missing, eq_comm]
  · rename_i value found
    simp [found]
  · rename_i value different found
    refine iff_of_false (fun absurd => by cases absurd) ?_
    rintro (text | missing)
    · exact different _ (Option.some.inj (found.symm.trans text))
    · cases found.symm.trans missing.1

theorem succeeds_string_iff :
    (string fields key path).Succeeds ↔ (Json.obj fields).MayHaveText key := by
  simp only [Succeeds, string_eq_ok_iff]
  constructor
  · rintro ⟨text, found | ⟨missing, _⟩⟩ part other
    · exact ⟨text, Option.some.inj (other.symm.trans found)⟩
    · cases missing.symm.trans other
  · intro mayHaveText
    cases found : fields.get? key with
    | none => exact ⟨"", .inr ⟨rfl, rfl⟩⟩
    | some part =>
        obtain ⟨text, rfl⟩ := mayHaveText part found
        exact ⟨text, .inl rfl⟩

theorem succeeds_notes_iff :
    (notes fields path).Succeeds ↔
      ∀ key ∈ ["documentation", "since", "deprecated"], (Json.obj fields).MayHaveText key := by
  simp only [notes, succeeds_bind_iff, succeeds_pure, and_true, exists_and_right, exists_eq_ok_iff,
    succeeds_string_iff, List.forall_mem_cons, List.not_mem_nil, false_imp_iff, implies_true]

theorem arrayField_eq_ok_iff {items : List Json} :
    arrayField fields key path = .ok items ↔ (Json.obj fields).Lists key items := by
  rw [arrayField]
  split
  · rename_i missing
    constructor
    · rintro ⟨⟩
      exact .absent missing
    · rintro (missing | found)
      · rfl
      · exact absurd (missing.symm.trans found) (by simp)
  · rename_i value found
    rw [array_eq_ok_iff]
    constructor
    · rintro rfl
      exact .present found
    · rintro (missing | other)
      · exact absurd (missing.symm.trans found) (by simp)
      · exact Option.some.inj (found.symm.trans other)

theorem arrayOrNull_eq_ok_iff {items : List Json} :
    arrayOrNull fields key path = .ok items ↔ (Json.obj fields).ListsOrNull key items := by
  by_cases null : fields.get? key = some .null
  · rw [arrayOrNull, present?_eq_none_iff.mpr (.inr null)]
    constructor
    · rintro ⟨⟩
      exact .null null
    · rintro (_ | missing | found)
      · rfl
      · rfl
      · exact absurd (null.symm.trans found) (by simp)
  · have same : arrayOrNull fields key path = arrayField fields key path := by
      rw [arrayOrNull, arrayField]
      cases found : fields.get? key with
      | none => rw [present?_eq_none_iff.mpr (.inl found)]
      | some value => rw [present?_eq_some_iff.mpr ⟨found, fun equal => null (equal ▸ found)⟩]
    rw [same, arrayField_eq_ok_iff]
    constructor
    · exact .lists
    · rintro (found | lists)
      · exact absurd found null
      · exact lists

theorem succeeds_each_iff {read : Path → Json → Reading α} {Accepted : Json → Prop}
    {values : List Json}
    (accepts : ∀ value ∈ values, ∀ path, (read path value).Succeeds ↔ Accepted value)
    (path : Path) (index : Nat) :
    (each read path index values).Succeeds ↔ ∀ value ∈ values, Accepted value := by
  induction values generalizing index with
  | nil => simp only [each, succeeds_ok, List.not_mem_nil, false_imp_iff, implies_true]
  | cons value rest induction =>
      simp only [List.forall_mem_cons] at accepts
      simp only [each, succeeds_bind_iff, succeeds_pure, and_true, exists_and_right,
        exists_eq_ok_iff, accepts.1, induction accepts.2, List.forall_mem_cons]

end Reading

open Reading

namespace Json

theorem IsType.ne_null {value : Json} (isType : value.IsType) : value ≠ .null := by
  rintro rfl
  obtain ⟨kind, tagged, _⟩ := isType
  cases tagged

theorem isType_iff_of_tagged {value : Json} {kind : NodeKind}
    (tagged : value.field? "kind" = some (.str kind.tag)) :
    value.IsType ↔ value.HasPayload kind := by
  constructor
  · rintro ⟨other, tagged', payload⟩
    obtain rfl : other = kind :=
      NodeKind.tag_injective (Json.str.inj (Option.some.inj (tagged'.symm.trans tagged)))
    exact payload
  · exact .tagged kind tagged

end Json

namespace Node

variable {path : Path} {fields : Dictionary String Json} {key : String}

/-- Of the parts of a value, exactly the types are read as types. -/
def ReadsParts (value : Json) : Prop :=
  ∀ part, sizeOf part < sizeOf value → ∀ path, (read path part).Succeeds ↔ part.IsType

theorem ReadsParts.part {value part : Json} (reads : ReadsParts value)
    (less : sizeOf part < sizeOf value) : ReadsParts part :=
  fun inner smaller => reads inner (smaller.trans less)

namespace ReadsParts

variable (reads : ReadsParts (.obj fields))

include reads

theorem present_iff (path : Path) {part : Json} :
    (present? fields key = some part ∧ (read path part).Succeeds) ↔
      (Json.obj fields).field? key = some part ∧ part.IsType := by
  rw [present?_eq_some_iff, and_assoc]
  refine and_congr_right fun found => ?_
  rw [reads part (Json.sizeOf_field? found) path]
  exact ⟨And.right, fun isType => ⟨isType.ne_null, isType⟩⟩

theorem succeeds_readList_iff :
    (readList path fields key).Succeeds ↔
      ∃ items, (Json.obj fields).ListsOrNull key items ∧ ∀ item ∈ items, item.IsType := by
  rw [readList_eq, succeeds_bind_iff]
  simp only [arrayOrNull_eq_ok_iff]
  refine exists_congr fun items => and_congr_right fun lists => ?_
  exact succeeds_each_iff (fun item listed => reads item (lists.sizeOf_item listed)) _ _

theorem succeeds_array_iff :
    (NodeKind.array.read path fields).Succeeds ↔ Json.HasPayload .array (.obj fields) := by
  have step : (NodeKind.array.read path fields).Succeeds ↔
      ∃ element, present? fields "element" = some element ∧
        (read (path.field "element") element).Succeeds := by
    rw [NodeKind.read]
    cases present? fields "element" with
    | none => simp [not_succeeds_fail]
    | some element => simp only [succeeds_return_iff, Option.some.injEq, exists_eq_left']
  rw [step]
  simp only [reads.present_iff]
  constructor
  · rintro ⟨element, found, isType⟩
    exact .array found isType
  · intro payload
    cases payload with
    | array found isType => exact ⟨_, found, isType⟩

theorem succeeds_map_iff :
    (NodeKind.map.read path fields).Succeeds ↔ Json.HasPayload .map (.obj fields) := by
  have step : (NodeKind.map.read path fields).Succeeds ↔
      (∃ key, present? fields "key" = some key ∧ (read (path.field "key") key).Succeeds) ∧
        ∃ value, present? fields "value" = some value ∧
          (read (path.field "value") value).Succeeds := by
    rw [NodeKind.read]
    cases present? fields "key" with
    | none => simp [not_succeeds_fail]
    | some key =>
        cases present? fields "value" with
        | none => simp [not_succeeds_fail]
        | some value =>
            simp only [succeeds_bind_iff, succeeds_pure, and_true, exists_and_right,
              exists_eq_ok_iff, Option.some.injEq, exists_eq_left']
  rw [step]
  simp only [reads.present_iff]
  constructor
  · rintro ⟨⟨key, foundKey, isTypeKey⟩, value, foundValue, isTypeValue⟩
    exact .map foundKey foundValue isTypeKey isTypeValue
  · intro payload
    cases payload with
    | map foundKey foundValue isTypeKey isTypeValue =>
        exact ⟨⟨_, foundKey, isTypeKey⟩, _, foundValue, isTypeValue⟩

theorem succeeds_readProperty_obj_iff (path : Path) :
    (readProperty path (.obj fields)).Succeeds ↔ (Json.obj fields).IsProperty := by
  have step : (readProperty path (.obj fields)).Succeeds ↔
      (∃ type, present? fields "type" = some type ∧ (read (path.field "type") type).Succeeds) ∧
        ∀ key ∈ ["name", "documentation", "since", "deprecated"],
          (Json.obj fields).MayHaveText key := by
    rw [readProperty]
    split
    · rename_i missing
      simp [not_succeeds_fail, missing]
    · rename_i type present
      simp only [present, succeeds_bind_iff, succeeds_pure, and_true, exists_and_right,
        exists_eq_ok_iff, Option.some.injEq, exists_eq_left', succeeds_string_iff,
        succeeds_notes_iff, List.forall_mem_cons]
      exact and_left_comm
  rw [step]
  simp only [reads.present_iff]
  constructor
  · rintro ⟨⟨type, found, isType⟩, texts⟩
    exact .typed found isType texts
  · intro isProperty
    cases isProperty with
    | typed found isType texts => exact ⟨⟨_, found, isType⟩, texts⟩

omit reads in
theorem succeeds_readProperty_iff {value : Json} (reads : ReadsParts value) (path : Path) :
    (readProperty path value).Succeeds ↔ value.IsProperty := by
  cases value with
  | obj fields => exact reads.succeeds_readProperty_obj_iff path
  | _ =>
      rw [readProperty]
      · refine iff_of_false not_succeeds_fail ?_
        rintro ⟨found, _⟩
        cases found
      · intro fields object
        cases object

theorem succeeds_literal_iff :
    (NodeKind.literal.read path fields).Succeeds ↔ Json.HasPayload .literal (.obj fields) := by
  have step : (NodeKind.literal.read path fields).Succeeds ↔
      ∃ inner, fields.get? "value" = some (.obj inner) ∧
        ∃ items, (Json.obj inner).Lists "properties" items ∧
          (each readProperty ((path.field "value").field "properties") 0 items).Succeeds := by
    rw [NodeKind.read]
    split
    · rename_i inner found
      simp only [found, succeeds_bind_iff, succeeds_pure, and_true, exists_eq_ok_iff,
        arrayField_eq_ok_iff, Option.some.injEq, Json.obj.injEq, exists_eq_left']
    · rename_i different
      refine iff_of_false not_succeeds_fail ?_
      rintro ⟨inner, found, _⟩
      exact different inner found
  have accepts {inner : Dictionary String Json} (found : fields.get? "value" = some (.obj inner))
      {items : List Json} (lists : (Json.obj inner).Lists "properties" items) :
      (each readProperty ((path.field "value").field "properties") 0 items).Succeeds ↔
        ∀ item ∈ items, item.IsProperty := by
    refine succeeds_each_iff (fun item listed => succeeds_readProperty_iff (reads.part ?_)) _ _
    exact ((Json.ListsOrNull.lists lists).sizeOf_item listed).trans (Json.sizeOf_field? found)
  rw [step]
  constructor
  · rintro ⟨inner, found, items, lists, succeeds⟩
    exact .literal found ⟨inner, rfl⟩ lists ((accepts found lists).mp succeeds)
  · intro payload
    cases payload with
    | literal found object lists areProperties =>
        obtain ⟨inner, rfl⟩ := object
        exact ⟨inner, found, _, lists, (accepts found lists).mpr areProperties⟩

theorem succeeds_kind_iff (kind : NodeKind) :
    (kind.read path fields).Succeeds ↔ Json.HasPayload kind (.obj fields) := by
  cases kind with
  | base =>
      rw [NodeKind.read, succeeds_return_iff, succeeds_string_iff]
      refine ⟨.base, fun payload => ?_⟩
      cases payload with
      | base name => exact name
  | reference =>
      rw [NodeKind.read, succeeds_return_iff, succeeds_string_iff]
      refine ⟨.reference, fun payload => ?_⟩
      cases payload with
      | reference name => exact name
  | array => exact reads.succeeds_array_iff
  | map => exact reads.succeeds_map_iff
  | literal => exact reads.succeeds_literal_iff
  | constant =>
      rw [NodeKind.read]
      split
      · rename_i text found
        exact iff_of_true (succeeds_ok _) (.constant found)
      · rename_i different
        refine iff_of_false not_succeeds_fail fun payload => ?_
        cases payload with
        | constant found => exact different _ found
  | union =>
      rw [NodeKind.read, succeeds_return_iff, reads.succeeds_readList_iff]
      constructor
      · rintro ⟨items, lists, areTypes⟩
        exact .union lists areTypes
      · intro payload
        cases payload with
        | union lists areTypes => exact ⟨_, lists, areTypes⟩
  | intersection =>
      rw [NodeKind.read, succeeds_return_iff, reads.succeeds_readList_iff]
      constructor
      · rintro ⟨items, lists, areTypes⟩
        exact .intersection lists areTypes
      · intro payload
        cases payload with
        | intersection lists areTypes => exact ⟨_, lists, areTypes⟩
  | tuple =>
      rw [NodeKind.read, succeeds_return_iff, reads.succeeds_readList_iff]
      constructor
      · rintro ⟨items, lists, areTypes⟩
        exact .tuple lists areTypes
      · intro payload
        cases payload with
        | tuple lists areTypes => exact ⟨_, lists, areTypes⟩

end ReadsParts

/-- The reader of types reads the types and nothing else. -/
theorem succeeds_read_iff (path : Path) (value : Json) :
    (read path value).Succeeds ↔ value.IsType := by
  induction value using Json.induction generalizing path with
  | step value induction =>
      by_cases known : ∃ kind : NodeKind, value.field? "kind" = some (.str kind.tag)
      · obtain ⟨kind, tagged⟩ := known
        rw [Json.isType_iff_of_tagged tagged]
        cases value with
        | obj fields =>
            have reads : ReadsParts (.obj fields) := fun part less path => induction part less path
            rw [read_obj kind tagged, reads.succeeds_kind_iff]
        | _ => cases tagged
      · refine iff_of_false ?_ ?_
        · obtain ⟨fault, failed⟩ := read_of_untagged (not_exists.mp known)
          rw [failed]
          exact not_succeeds_fail
        · rintro ⟨kind, tagged, _⟩
          exact known ⟨kind, tagged⟩

theorem readsParts (value : Json) : ReadsParts value :=
  fun part _ path => succeeds_read_iff path part

theorem succeeds_readList_iff :
    (readList path fields key).Succeeds ↔
      ∃ items, (Json.obj fields).ListsOrNull key items ∧ ∀ item ∈ items, item.IsType :=
  (readsParts _).succeeds_readList_iff

theorem succeeds_readProperties_iff (path : Path) (index : Nat) (values : List Json) :
    (readProperties path index values).Succeeds ↔ ∀ value ∈ values, value.IsProperty := by
  rw [readProperties_eq_each]
  exact succeeds_each_iff
    (fun value _ path => (readsParts value).succeeds_readProperty_iff path) path index

theorem succeeds_readOptional_iff :
    (readOptional fields key path).Succeeds ↔ (Json.obj fields).MayHave key Json.IsType := by
  rw [readOptional]
  split
  · rename_i missing
    refine iff_of_true (succeeds_ok _) fun part found different => ?_
    cases missing.symm.trans (present?_eq_some_iff.mpr ⟨found, different⟩)
  · rename_i value present
    obtain ⟨found, different⟩ := present?_eq_some_iff.mp present
    rw [succeeds_return_iff, succeeds_read_iff]
    constructor
    · intro isType part other _
      obtain rfl := Option.some.inj (found.symm.trans other)
      exact isType
    · exact fun mayHave => mayHave value found different

end Node

theorem Structure.succeeds_read_iff (path : Path) (value : Json) :
    (Structure.read path value).Succeeds ↔ value.IsStructure := by
  simp only [Structure.read, succeeds_bind_iff, succeeds_pure, and_true, exists_and_right,
    exists_eq_ok_iff, object_eq_ok_iff, arrayField_eq_ok_iff, succeeds_string_iff,
    succeeds_notes_iff, Node.succeeds_readList_iff, Node.succeeds_readProperties_iff]
  constructor
  · rintro ⟨fields, rfl, items, lists, areProperties, name, parents, mixins, notes⟩
    exact ⟨⟨fields, rfl⟩, List.forall_mem_cons.mpr ⟨name, notes⟩, ⟨items, lists, areProperties⟩,
      parents, mixins⟩
  · rintro ⟨⟨fields, rfl⟩, texts, ⟨items, lists, areProperties⟩, parents, mixins⟩
    obtain ⟨name, notes⟩ := List.forall_mem_cons.mp texts
    exact ⟨fields, rfl, items, lists, areProperties, name, parents, mixins, notes⟩

theorem Constant.succeeds_read_iff (integral : Bool) (path : Path) (found : Option Json) :
    (Constant.read integral path found).Succeeds ↔
      ∃ part, found = some part ∧ part.IsConstant (integral = true) := by
  cases found with
  | none => exact iff_of_false not_succeeds_fail (by simp)
  | some part =>
      simp only [Option.some.injEq, exists_eq_left']
      cases part with
      | str text => exact iff_of_true (succeeds_ok _) (.text text)
      | int value => exact iff_of_true (succeeds_ok _) (.int value)
      | float value =>
          rw [Constant.read]
          cases whole : value.toInt? with
          | some number =>
              have stands := Binary64.toInt?_eq_some_iff.mp whole
              exact iff_of_true (succeeds_ok _) (.float fun _ => ⟨number, stands⟩)
          | none =>
              cases integral with
              | true =>
                  refine iff_of_false not_succeeds_fail ?_
                  rintro (_ | _ | isWhole)
                  obtain ⟨number, stands⟩ := isWhole rfl
                  cases whole.symm.trans (Binary64.toInt?_eq_some_iff.mpr stands)
              | false => exact iff_of_true (succeeds_ok _) (.float (absurd · (by decide)))
      | null | bool | arr | obj =>
          refine iff_of_false not_succeeds_fail ?_
          rintro ⟨⟩

theorem EnumValue.succeeds_read_iff (integral : Bool) (path : Path) (value : Json) :
    (EnumValue.read integral path value).Succeeds ↔ value.IsEnumValue (integral = true) := by
  simp only [EnumValue.read, succeeds_bind_iff, succeeds_pure, and_true, exists_and_right,
    exists_eq_ok_iff, object_eq_ok_iff, succeeds_string_iff, Constant.succeeds_read_iff]
  constructor
  · rintro ⟨fields, rfl, constant, name, documentation, since⟩
    refine ⟨constant, ?_⟩
    simp only [List.forall_mem_cons, List.not_mem_nil, false_imp_iff, implies_true, and_true]
    exact ⟨name, documentation, since⟩
  · rintro ⟨⟨part, found, constant⟩, texts⟩
    simp only [List.forall_mem_cons] at texts
    obtain ⟨name, documentation, since, _⟩ := texts
    cases value with
    | obj fields => exact ⟨fields, rfl, ⟨part, found, constant⟩, name, documentation, since⟩
    | _ => cases found

theorem Enumeration.isIntegral_some_iff {path : Path} {value : Json} {node : Node}
    (read : Node.read path value = .ok node) :
    isIntegral (some node) = true ↔ value.field? "kind" = some (.str "base") ∧
      ∃ name ∈ ["integer", "uinteger"], value.field? "name" = some (.str name) := by
  obtain ⟨tagged, _⟩ := Node.kind_and_source_of_read read
  by_cases base : node.kind = "base"
  · rw [base] at tagged
    cases value with
    | obj fields =>
        rw [Node.read_obj .base tagged] at read
        obtain ⟨text, readText, ⟨⟩⟩ := bind_eq_ok_iff.mp read
        simp only [isIntegral, Bool.or_eq_true, beq_iff_eq]
        constructor
        · intro integral
          refine ⟨tagged, text, List.mem_pair.mpr integral, ?_⟩
          rcases string_eq_ok_iff.mp readText with found | ⟨_, rfl⟩
          · exact found
          · exact absurd integral (by decide)
        · rintro ⟨_, name, listed, named⟩
          rcases string_eq_ok_iff.mp readText with found | ⟨missing, _⟩
          · obtain rfl := Json.str.inj (Option.some.inj (found.symm.trans named))
            exact List.mem_pair.mp listed
          · cases missing.symm.trans named
    | _ => cases tagged
  · refine iff_of_false ?_ ?_
    · cases node with
      | base => exact absurd rfl base
      | _ => exact Bool.false_ne_true
    · rintro ⟨other, _⟩
      exact base (Json.str.inj (Option.some.inj (tagged.symm.trans other)))

theorem Enumeration.isIntegral_iff {path : Path} {fields : Dictionary String Json}
    {type : Option Node} (read : Node.readOptional fields "type" path = .ok type) :
    isIntegral type = true ↔ (Json.obj fields).IsIntegral := by
  rw [Node.readOptional] at read
  split at read
  · rename_i missing
    cases read
    refine iff_of_false Bool.false_ne_true ?_
    rintro ⟨value, found, tagged, _⟩
    have different : value ≠ .null := fun null => by cases null ▸ tagged
    cases missing.symm.trans (present?_eq_some_iff.mpr ⟨found, different⟩)
  · rename_i value present
    obtain ⟨found, _⟩ := present?_eq_some_iff.mp present
    obtain ⟨node, readNode, ⟨⟩⟩ := bind_eq_ok_iff.mp read
    rw [isIntegral_some_iff readNode]
    constructor
    · exact fun integral => ⟨value, found, integral⟩
    · rintro ⟨other, found', integral⟩
      obtain rfl := Option.some.inj (found.symm.trans found')
      exact integral

theorem Enumeration.succeeds_read_iff (path : Path) (value : Json) :
    (Enumeration.read path value).Succeeds ↔ value.IsEnumeration := by
  simp only [Enumeration.read, succeeds_bind_iff, succeeds_pure, and_true, exists_and_right,
    exists_eq_ok_iff, object_eq_ok_iff, arrayField_eq_ok_iff, succeeds_string_iff,
    succeeds_notes_iff,
    succeeds_each_iff fun value _ path => EnumValue.succeeds_read_iff _ path value]
  constructor
  · rintro ⟨fields, rfl, type, read, items, lists, areValues, name, notes⟩
    rw [isIntegral_iff read] at areValues
    exact ⟨⟨fields, rfl⟩, List.forall_mem_cons.mpr ⟨name, notes⟩,
      Node.succeeds_readOptional_iff.mp ⟨type, read⟩, items, lists, areValues⟩
  · rintro ⟨⟨fields, rfl⟩, texts, isType, items, lists, areValues⟩
    obtain ⟨name, notes⟩ := List.forall_mem_cons.mp texts
    obtain ⟨type, read⟩ := Node.succeeds_readOptional_iff.mpr isType
    rw [← isIntegral_iff read] at areValues
    exact ⟨fields, rfl, type, read, items, lists, areValues, name, notes⟩

theorem TypeAlias.succeeds_read_iff (path : Path) (value : Json) :
    (TypeAlias.read path value).Succeeds ↔ value.IsTypeAlias := by
  simp only [TypeAlias.read, succeeds_bind_iff, succeeds_pure, and_true, exists_and_right,
    exists_eq_ok_iff, object_eq_ok_iff, succeeds_string_iff, succeeds_notes_iff,
    Node.succeeds_readOptional_iff]
  constructor
  · rintro ⟨fields, rfl, name, type, notes⟩
    exact ⟨⟨fields, rfl⟩, List.forall_mem_cons.mpr ⟨name, notes⟩, type⟩
  · rintro ⟨⟨fields, rfl⟩, texts, type⟩
    obtain ⟨name, notes⟩ := List.forall_mem_cons.mp texts
    exact ⟨fields, rfl, name, type, notes⟩

theorem Request.succeeds_read_iff (path : Path) (value : Json) :
    (Request.read path value).Succeeds ↔ value.IsRequest := by
  simp only [Request.read, succeeds_bind_iff, succeeds_pure, and_true, exists_and_right,
    exists_eq_ok_iff, object_eq_ok_iff, succeeds_string_iff, succeeds_notes_iff,
    Node.succeeds_readOptional_iff]
  constructor
  · rintro ⟨fields, rfl, method, direction, params, result, partialResult, errorData,
      registrationMethod, registrationOptions, notes⟩
    refine ⟨⟨fields, rfl⟩, ?_, ?_⟩
    · simp only [Json.methodTexts, List.forall_mem_cons] at notes ⊢
      exact ⟨method, direction, registrationMethod, notes⟩
    · simp only [List.forall_mem_cons, List.not_mem_nil, false_imp_iff, implies_true, and_true]
      exact ⟨params, result, partialResult, errorData, registrationOptions⟩
  · rintro ⟨⟨fields, rfl⟩, texts, types⟩
    simp only [Json.methodTexts, List.forall_mem_cons] at texts types ⊢
    obtain ⟨method, direction, registrationMethod, notes⟩ := texts
    obtain ⟨params, result, partialResult, errorData, registrationOptions, _⟩ := types
    exact ⟨fields, rfl, method, direction, params, result, partialResult, errorData,
      registrationMethod, registrationOptions, notes⟩

theorem Notification.succeeds_read_iff (path : Path) (value : Json) :
    (Notification.read path value).Succeeds ↔ value.IsNotification := by
  simp only [Notification.read, succeeds_bind_iff, succeeds_pure, and_true, exists_and_right,
    exists_eq_ok_iff, object_eq_ok_iff, succeeds_string_iff, succeeds_notes_iff,
    Node.succeeds_readOptional_iff]
  constructor
  · rintro ⟨fields, rfl, method, direction, params, registrationMethod, registrationOptions, notes⟩
    refine ⟨⟨fields, rfl⟩, ?_, ?_⟩
    · simp only [Json.methodTexts, List.forall_mem_cons] at notes ⊢
      exact ⟨method, direction, registrationMethod, notes⟩
    · simp only [List.forall_mem_cons, List.not_mem_nil, false_imp_iff, implies_true, and_true]
      exact ⟨params, registrationOptions⟩
  · rintro ⟨⟨fields, rfl⟩, texts, types⟩
    simp only [Json.methodTexts, List.forall_mem_cons] at texts types ⊢
    obtain ⟨method, direction, registrationMethod, notes⟩ := texts
    obtain ⟨params, registrationOptions, _⟩ := types
    exact ⟨fields, rfl, method, direction, params, registrationMethod, registrationOptions, notes⟩

namespace Model

variable {fields : Dictionary String Json}

theorem succeeds_readSection_iff {α : Type} {read : Path → Json → Reading α}
    {Accepted : Json → Prop}
    (accepts : ∀ path value, (read path value).Succeeds ↔ Accepted value) (key : String) :
    (readSection read fields key).Succeeds ↔
      ∃ items, (Json.obj fields).ListsOrNull key items ∧ ∀ item ∈ items, Accepted item := by
  have step : (readSection read fields key).Succeeds ↔
      ∃ items, arrayOrNull fields key (.root key) = .ok items ∧
        (each read (.root key) 0 items).Succeeds := by
    rw [readSection, arrayOrNull]
    cases present? fields key with
    | none => simp [succeeds_ok, each]
    | some value => cases value <;> simp [Reading.array, fail, Succeeds]
  rw [step]
  simp only [arrayOrNull_eq_ok_iff, succeeds_each_iff fun value _ path => accepts path value]

theorem succeeds_readVersion_iff :
    (readVersion fields).Succeeds ↔ ∀ data, fields.get? "metaData" = some data →
      data.isTruthy = true → data.IsObject := by
  rw [readVersion]
  cases fields.get? "metaData" with
  | none => simp [succeeds_ok]
  | some data =>
      simp only [Option.some.injEq, forall_eq']
      by_cases counts : data.isTruthy = true
      · simp only [Option.filter_some, counts, if_true, forall_const]
        cases data with
        | obj fields => exact iff_of_true (succeeds_ok _) ⟨fields, rfl⟩
        | _ =>
            refine iff_of_false not_succeeds_fail ?_
            rintro ⟨fields, ⟨⟩⟩
      · simp only [Option.filter_some, counts, succeeds_ok, false_imp_iff, if_false,
          Bool.false_eq_true]

/-- Reading a document succeeds if and only if it is the document of a protocol: an object with
sections, in which all types, properties, texts and constants have the form they must have. -/
theorem read_succeeds_iff (document : Json) :
    (∃ model, read document = .ok model) ↔ document.IsSchema := by
  rw [exists_eq_ok_iff]
  cases document with
  | obj fields =>
      simp only [read, succeeds_bind_iff, succeeds_pure, and_true, exists_and_right,
        exists_eq_ok_iff, succeeds_readVersion_iff,
        succeeds_readSection_iff Request.succeeds_read_iff,
        succeeds_readSection_iff Notification.succeeds_read_iff,
        succeeds_readSection_iff Structure.succeeds_read_iff,
        succeeds_readSection_iff Enumeration.succeeds_read_iff,
        succeeds_readSection_iff TypeAlias.succeeds_read_iff]
      constructor
      · rintro ⟨metaData, requests, notifications, structures, enumerations, aliases⟩
        exact ⟨⟨fields, rfl⟩, metaData, requests, notifications, structures, enumerations, aliases⟩
      · rintro ⟨_, metaData, requests, notifications, structures, enumerations, aliases⟩
        exact ⟨metaData, requests, notifications, structures, enumerations, aliases⟩
  | _ =>
      refine iff_of_false not_succeeds_fail fun isSchema => ?_
      obtain ⟨fields, object⟩ := isSchema.object
      cases object

end Model

end ProtocolCodegen
