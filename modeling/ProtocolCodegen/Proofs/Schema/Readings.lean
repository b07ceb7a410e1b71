import Mathlib
import ProtocolCodegen.Schema.Reader

/-!
# Reading by kind

The kind of a type decides how the rest of its value is read.  Here the reader of types is put into
that form, that of documents is opened section by section, and induction over the values of a
document is provided.
-/

namespace ProtocolCodegen

namespace Json

/-- Induction over values, where a part is a smaller value. -/
@[elab_as_elim]
theorem induction {motive : Json → Prop}
    (step : ∀ value, (∀ part, sizeOf part < sizeOf value → motive part) → motive value)
    (value : Json) : motive value := by
  induction size : sizeOf value using Nat.strongRecOn generalizing value with
  | ind bound smaller =>
      exact step value fun part less => smaller (sizeOf part) (size ▸ less) part rfl

theorem sizeOf_field? {key : String} {value part : Json} (found : value.field? key = some part) :
    sizeOf part < sizeOf value := by
  cases value with
  | obj fields =>
      have less := sizeOf_get? found
      simp only [Json.obj.sizeOf_spec]
      omega
  | _ => cases found

theorem sizeOf_item {item : Json} {items : List Json} (listed : item ∈ items) :
    sizeOf item < sizeOf (Json.arr items) := by
  have less := List.sizeOf_lt_of_mem listed
  simp only [Json.arr.sizeOf_spec]
  omega

end Json

namespace Reading

variable {α β : Type} {reading : Reading α} {next : α → Reading β}

theorem bind_eq_ok_iff {result : β} :
    reading >>= next = .ok result ↔ ∃ found, reading = .ok found ∧ next found = .ok result := by
  cases reading with
  | ok found => simp [bind, Except.bind]
  | error error => simp [bind, Except.bind]

theorem present?_eq_some_iff {fields : Dictionary String Json} {key : String} {value : Json} :
    present? fields key = some value ↔ fields.get? key = some value ∧ value ≠ .null := by
  rw [present?]
  split
  · rename_i found
    rw [found]
    constructor
    · intro absurd
      cases absurd
    · rintro ⟨null, different⟩
      exact absurd (Option.some.inj null).symm different
  · rename_i different
    constructor
    · rintro found
      exact ⟨found, fun null => different (null ▸ found)⟩
    · exact And.left

theorem present?_eq_none_iff {fields : Dictionary String Json} {key : String} :
    present? fields key = none ↔ fields.get? key = none ∨ fields.get? key = some .null := by
  rw [present?]
  split
  · rename_i found
    simp [found]
  · rename_i different
    constructor
    · exact .inl
    · rintro (missing | null)
      · exact missing
      · exact absurd null different

theorem each_cons_eq_ok_iff {read : Path → Json → Reading α} {path : Path}
    {index : Nat} {value : Json} {rest : List Json} {found : List α} :
    each read path index (value :: rest) = .ok found ↔
      ∃ item items, read (path.item index) value = .ok item ∧
        each read path (index + 1) rest = .ok items ∧ found = item :: items := by
  rw [each, bind_eq_ok_iff]
  constructor
  · rintro ⟨item, first, read⟩
    obtain ⟨items, others, ⟨⟩⟩ := bind_eq_ok_iff.mp read
    exact ⟨item, items, first, others, rfl⟩
  · rintro ⟨item, items, first, others, rfl⟩
    exact ⟨item, first, bind_eq_ok_iff.mpr ⟨items, others, rfl⟩⟩

/-- The array under a key; an absent one is empty, and so is null. -/
def arrayOrNull (fields : Dictionary String Json) (key : String) (path : Path) :
    Reading (List Json) :=
  match present? fields key with
  | none => .ok []
  | some value => array (path.field key) value

end Reading

open Reading

/-- The kinds of types. -/
inductive NodeKind where
  | base | reference | array | map | literal | constant | union | intersection | tuple
  deriving DecidableEq, Repr

namespace NodeKind

/-- The tag of a kind in a document. -/
def tag : NodeKind → String
  | base => "base"
  | reference => "reference"
  | array => "array"
  | map => "map"
  | literal => "literal"
  | constant => "stringLiteral"
  | union => "or"
  | intersection => "and"
  | tuple => "tuple"

theorem tag_injective : Function.Injective tag := by
  intro kind other
  cases kind <;> cases other <;> simp [tag]

/-- How a type of a kind is read from the fields of its value. -/
def read (path : Path) (fields : Dictionary String Json) : NodeKind → Reading Node
  | base => return .base path (← string fields "name" path)
  | reference => return .reference path (← string fields "name" path)
  | array =>
      match present? fields "element" with
      | none => fail .noElement path
      | some element => return .array path (← Node.read (path.field "element") element)
  | map =>
      match present? fields "key", present? fields "value" with
      | some key, some value => do
          let key ← Node.read (path.field "key") key
          let value ← Node.read (path.field "value") value
          return .map path key value
      | _, _ => fail .noKeyOrValue path
  | literal =>
      match fields.get? "value" with
      | some (.obj inner) => do
          let values ← arrayField inner "properties" (path.field "value")
          let properties ← each Node.readProperty ((path.field "value").field "properties") 0 values
          return .literal path properties
      | other => fail (.notObject (other.getD .null).typeName) (path.field "value")
  | constant =>
      match fields.get? "value" with
      | some (.str value) => .ok (.constant path value)
      | _ => fail .constantNotString (path.field "value")
  | union => return .union path (← Node.readList path fields "items")
  | intersection => return .intersection path (← Node.readList path fields "items")
  | tuple => return .tuple path (← Node.readList path fields "items")

theorem kind_and_source_of_read {path : Path} {fields : Dictionary String Json} {kind : NodeKind}
    {node : Node} (read : kind.read path fields = .ok node) :
    node.kind = kind.tag ∧ node.source = path := by
  cases kind with
  | array =>
      rw [NodeKind.read] at read
      split at read
      · cases read
      · obtain ⟨element, _, ⟨⟩⟩ := bind_eq_ok_iff.mp read
        exact ⟨rfl, rfl⟩
  | map =>
      rw [NodeKind.read] at read
      split at read
      · obtain ⟨key, _, read⟩ := bind_eq_ok_iff.mp read
        obtain ⟨value, _, ⟨⟩⟩ := bind_eq_ok_iff.mp read
        exact ⟨rfl, rfl⟩
      · cases read
  | literal =>
      rw [NodeKind.read] at read
      split at read
      · obtain ⟨values, _, read⟩ := bind_eq_ok_iff.mp read
        obtain ⟨properties, _, ⟨⟩⟩ := bind_eq_ok_iff.mp read
        exact ⟨rfl, rfl⟩
      · cases read
  | constant =>
      rw [NodeKind.read] at read
      split at read
      · cases read
        exact ⟨rfl, rfl⟩
      · cases read
  | base | reference | union | intersection | tuple =>
      obtain ⟨part, _, ⟨⟩⟩ := bind_eq_ok_iff.mp read
      exact ⟨rfl, rfl⟩

end NodeKind

namespace Node

theorem readItems_eq_each (path : Path) (index : Nat) (values : List Json) :
    readItems path index values = each read path index values := by
  induction values generalizing index with
  | nil => rw [readItems, each]
  | cons value rest induction => simp only [readItems, each, induction]

theorem readProperties_eq_each (path : Path) (index : Nat) (values : List Json) :
    readProperties path index values = each readProperty path index values := by
  induction values generalizing index with
  | nil => rw [readProperties, each]
  | cons value rest induction => simp only [readProperties, each, induction]

variable {path : Path} {value : Json} {fields : Dictionary String Json}

theorem readList_eq (path : Path) (fields : Dictionary String Json) (key : String) :
    readList path fields key =
      arrayOrNull fields key path >>= each read (path.field key) 0 := by
  rw [readList, arrayOrNull]
  split
  · rename_i missing
    rw [missing]
    rfl
  · rename_i values found
    simp only [found]
    exact readItems_eq_each (path.field key) 0 values
  · rename_i value different found
    rw [found]
    cases value with
    | arr values => exact absurd rfl (different values)
    | _ => rfl

theorem read_obj (kind : NodeKind) (tagged : fields.get? "kind" = some (.str kind.tag)) :
    read path (.obj fields) = kind.read path fields := by
  rw [read]
  cases kind with
  | base => simp only [tagged, NodeKind.tag, NodeKind.read]
  | reference => simp only [tagged, NodeKind.tag, NodeKind.read]
  | array =>
      simp only [tagged, NodeKind.tag, NodeKind.read]
      split <;> simp_all only
  | map =>
      simp only [tagged, NodeKind.tag, NodeKind.read]
      split <;> split <;> simp_all
  | literal =>
      simp only [tagged, NodeKind.tag, NodeKind.read, readProperties_eq_each]
      split
      · split <;> simp_all [arrayField, Reading.array] <;> rfl
      · split <;> simp_all
  | constant =>
      simp only [tagged, NodeKind.tag]
      cases found : fields.get? "value" with
      | none => simp only [NodeKind.read, found]
      | some part => cases part <;> simp only [NodeKind.read, found]
  | union => simp only [tagged, NodeKind.tag, NodeKind.read]
  | intersection => simp only [tagged, NodeKind.tag, NodeKind.read]
  | tuple => simp only [tagged, NodeKind.tag, NodeKind.read]

/-- A value without one of the kinds is a fault where it stands. -/
theorem read_of_untagged
    (untagged : ∀ kind : NodeKind, value.field? "kind" ≠ some (.str kind.tag)) :
    ∃ fault, read path value = fail fault path := by
  cases value with
  | obj fields =>
      rw [read]
      split
      · exact absurd ‹_› (untagged .base)
      · exact absurd ‹_› (untagged .reference)
      · exact absurd ‹_› (untagged .array)
      · exact absurd ‹_› (untagged .map)
      · exact absurd ‹_› (untagged .literal)
      · exact absurd ‹_› (untagged .constant)
      · exact absurd ‹_› (untagged .union)
      · exact absurd ‹_› (untagged .intersection)
      · exact absurd ‹_› (untagged .tuple)
      · exact ⟨_, rfl⟩
      · exact ⟨_, rfl⟩
  | _ =>
      rw [read]
      · exact ⟨_, rfl⟩
      · intro fields object
        cases object

/-- A node has the kind and the place of its value. -/
theorem kind_and_source_of_read {node : Node} (read : read path value = .ok node) :
    value.field? "kind" = some (.str node.kind) ∧ node.source = path := by
  by_cases known : ∃ kind : NodeKind, value.field? "kind" = some (.str kind.tag)
  · obtain ⟨kind, tagged⟩ := known
    cases value with
    | obj fields =>
        rw [read_obj kind tagged] at read
        obtain ⟨same, source⟩ := kind.kind_and_source_of_read read
        rw [tagged, same]
        exact ⟨rfl, source⟩
    | _ => cases tagged
  · obtain ⟨fault, failed⟩ := read_of_untagged (not_exists.mp known)
    rw [failed] at read
    cases read

end Node

namespace Model

/-- What is read of the sections of a document. -/
structure IsReadFrom (fields : Dictionary String Json) (model : Model) : Prop where
  version : readVersion fields = .ok model.version
  requests : readSection Request.read fields "requests" = .ok model.requests
  notifications : readSection Notification.read fields "notifications" = .ok model.notifications
  structures : readSection Structure.read fields "structures" = .ok model.structures
  enumerations : readSection Enumeration.read fields "enumerations" = .ok model.enumerations
  aliases : readSection TypeAlias.read fields "typeAliases" = .ok model.aliases

theorem read_eq_ok_iff {fields : Dictionary String Json} {model : Model} :
    read (.obj fields) = .ok model ↔ model.IsReadFrom fields := by
  rw [read]
  constructor
  · intro found
    obtain ⟨version, ofVersion, found⟩ := bind_eq_ok_iff.mp found
    obtain ⟨requests, ofRequests, found⟩ := bind_eq_ok_iff.mp found
    obtain ⟨notifications, ofNotifications, found⟩ := bind_eq_ok_iff.mp found
    obtain ⟨structures, ofStructures, found⟩ := bind_eq_ok_iff.mp found
    obtain ⟨enumerations, ofEnumerations, found⟩ := bind_eq_ok_iff.mp found
    obtain ⟨aliases, ofAliases, ⟨⟩⟩ := bind_eq_ok_iff.mp found
    exact ⟨ofVersion, ofRequests, ofNotifications, ofStructures, ofEnumerations, ofAliases⟩
  · intro found
    refine bind_eq_ok_iff.mpr ⟨_, found.version, ?_⟩
    refine bind_eq_ok_iff.mpr ⟨_, found.requests, ?_⟩
    refine bind_eq_ok_iff.mpr ⟨_, found.notifications, ?_⟩
    refine bind_eq_ok_iff.mpr ⟨_, found.structures, ?_⟩
    refine bind_eq_ok_iff.mpr ⟨_, found.enumerations, ?_⟩
    exact bind_eq_ok_iff.mpr ⟨_, found.aliases, rfl⟩

end Model
end ProtocolCodegen
