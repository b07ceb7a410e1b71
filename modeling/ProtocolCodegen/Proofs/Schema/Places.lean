import Mathlib
import ProtocolCodegen.Proofs.Schema.Grammar
import ProtocolCodegen.Proofs.Schema.PathText
import ProtocolCodegen.Proofs.Schema.Subnodes

/-!
# Places of types and faults

Every type of a protocol says where in the document it stands, and every fault says where it is.
Following these paths in the document leads to the values that were read there.
-/

namespace ProtocolCodegen

open Reading

namespace Path

variable {document value : Json} {path : Path} {fields : Dictionary String Json} {key : String}

/-- A path that can be read back leads to a value of a document. -/
structure Leads (document : Json) (path : Path) (value : Json) : Prop where
  plain : path.IsPlain
  found : path.value? document = some value

theorem Leads.root (found : document.field? key = some value)
    (plain : IsPlainKey key.toList) : (root key).Leads document value :=
  ⟨plain, found⟩

theorem Leads.field (leads : path.Leads document (.obj fields))
    (found : fields.get? key = some value) (plain : IsPlainKey key.toList) :
    (path.field key).Leads document value where
  plain := ⟨leads.plain, plain⟩
  found := by rw [value?, leads.found]; exact found

theorem Leads.item {items : List Json} {index : Nat} (leads : path.Leads document (.arr items))
    (found : items[index]? = some value) : (path.item index).Leads document value where
  plain := leads.plain
  found := by rw [value?, leads.found]; exact found

/-- A path leads to a value of a document or to a key that an object of the document lacks. -/
inductive IsPlace (document : Json) : Path → Prop where
  | present {path : Path} {value : Json} (leads : path.Leads document value) :
      IsPlace document path
  | missing {parent : Path} {fields : Dictionary String Json} {key : String}
      (leads : parent.Leads document (.obj fields)) (plain : IsPlainKey key.toList)
      (missing : fields.get? key = none) : IsPlace document (parent.field key)

/-- Below an object, every key is a place. -/
theorem Leads.isPlace_field (leads : path.Leads document (.obj fields))
    (plain : IsPlainKey key.toList) : (path.field key).IsPlace document := by
  cases found : fields.get? key with
  | none => exact .missing leads plain found
  | some value => exact .present (leads.field found plain)

/-- Values that stand at the indices of a path. -/
def LeadsToItems (document : Json) (path : Path) (items : List Json) : Prop :=
  ∀ index value, items[index]? = some value → (path.item index).Leads document value

theorem Leads.items_of_lists {items : List Json} (leads : path.Leads document (.obj fields))
    (lists : (Json.obj fields).ListsOrNull key items) (plain : IsPlainKey key.toList) :
    (path.field key).LeadsToItems document items := by
  intro index value listed
  rcases lists with _ | _ | found
  · cases listed
  · cases listed
  · exact (leads.field found plain).item listed

end Path

namespace Reading

variable {α β : Type} {document : Json} {reading : Reading α} {next : α → Reading β}
  {yields : α → Prop} {yields' : β → Prop} {path : Path} {fields : Dictionary String Json}
  {key : String}

/-- What is read in a document satisfies a condition, and a fault is at a place of the document. -/
def Keeps (document : Json) (yields : α → Prop) : Reading α → Prop
  | .ok found => yields found
  | .error error => error.path.IsPlace document

theorem keeps_fail {fault : Fault} (isPlace : path.IsPlace document) :
    Keeps document yields (fail fault path) :=
  isPlace

theorem Keeps.bind (keeps : reading.Keeps document yields)
    (follows : ∀ found, yields found → (next found).Keeps document yields') :
    (reading >>= next).Keeps document yields' := by
  cases reading with
  | ok found => exact follows found keeps
  | error error => exact keeps

theorem Keeps.of_ok {yields' : α → Prop} (keeps : reading.Keeps document yields)
    (gives : ∀ found, reading = .ok found → yields found → yields' found) :
    reading.Keeps document yields' := by
  cases reading with
  | ok found => exact gives found rfl keeps
  | error error => exact keeps

theorem keeps_object {value : Json} (leads : path.Leads document value) :
    (object path value).Keeps document (fun fields => path.Leads document (.obj fields)) := by
  cases value with
  | obj fields => exact leads
  | _ => exact keeps_fail (.present leads)

theorem keeps_string (leads : path.Leads document (.obj fields))
    (plain : Path.IsPlainKey key.toList) :
    (string fields key path).Keeps document fun _ => True := by
  rw [string]
  split
  · trivial
  · trivial
  · exact keeps_fail (leads.isPlace_field plain)

theorem keeps_array (isPlace : path.IsPlace document) (value : Json) :
    (Reading.array path value).Keeps document fun _ => True := by
  cases value with
  | arr items => trivial
  | _ => exact keeps_fail isPlace

theorem keeps_arrayField (leads : path.Leads document (.obj fields))
    (plain : Path.IsPlainKey key.toList) :
    (arrayField fields key path).Keeps document ((Json.obj fields).ListsOrNull key) := by
  have keeps : (arrayField fields key path).Keeps document fun _ => True := by
    rw [arrayField]
    split
    · trivial
    · exact keeps_array (leads.isPlace_field plain) _
  exact keeps.of_ok fun items read _ => .lists (arrayField_eq_ok_iff.mp read)

theorem keeps_arrayOrNull (leads : path.Leads document (.obj fields))
    (plain : Path.IsPlainKey key.toList) :
    (arrayOrNull fields key path).Keeps document ((Json.obj fields).ListsOrNull key) := by
  have keeps : (arrayOrNull fields key path).Keeps document fun _ => True := by
    rw [arrayOrNull]
    split
    · trivial
    · exact keeps_array (leads.isPlace_field plain) _
  exact keeps.of_ok fun items read _ => arrayOrNull_eq_ok_iff.mp read

theorem keeps_notes (leads : path.Leads document (.obj fields)) :
    (notes fields path).Keeps document fun _ => True := by
  refine (keeps_string leads (by simp)).bind fun _ _ => ?_
  refine (keeps_string leads (by simp)).bind fun _ _ => ?_
  refine (keeps_string leads (by simp)).bind fun _ _ => ?_
  trivial

theorem keeps_each {read : Path → Json → Reading α} {values : List Json} {index : Nat}
    (reads : ∀ offset value, values[offset]? = some value →
      (read (path.item (index + offset)) value).Keeps document yields) :
    (each read path index values).Keeps document fun items => ∀ item ∈ items, yields item := by
  induction values generalizing index with
  | nil =>
      intro item listed
      cases listed
  | cons value rest induction =>
      refine (reads 0 value rfl).bind fun item first => ?_
      have readsRest (offset : Nat) (value : Json) (listed : rest[offset]? = some value) :
          (read (path.item (index + 1 + offset)) value).Keeps document yields := by
        rw [Nat.add_assoc, Nat.add_comm 1]
        exact reads (offset + 1) value listed
      refine (induction readsRest).bind fun items others => ?_
      exact List.forall_mem_cons.mpr ⟨first, others⟩

theorem keeps_items {read : Path → Json → Reading α} {values : List Json}
    (leads : path.LeadsToItems document values)
    (reads : ∀ value ∈ values, ∀ path, path.Leads document value →
      (read path value).Keeps document yields) :
    (each read path 0 values).Keeps document fun items => ∀ item ∈ items, yields item := by
  refine keeps_each fun offset value listed => ?_
  rw [Nat.zero_add]
  exact reads value (List.mem_of_getElem? listed) _ (leads offset value listed)

end Reading

namespace Node

variable {document : Json} {path : Path} {fields : Dictionary String Json} {key : String}

/-- A type is what is read where it says that it stands. -/
def IsReadAt (document : Json) (node : Node) : Prop :=
  ∃ fields, node.source.Leads document (.obj fields) ∧ read node.source (.obj fields) = .ok node

/-- A type and all types within it are what is read where they say that they stand. -/
def IsTraced (document : Json) (node : Node) : Prop :=
  ∀ inner, Within parts inner node → inner.IsReadAt document

theorem IsReadAt.isTraced {node : Node} (readAt : node.IsReadAt document)
    (traced : ∀ part ∈ node.parts, part.IsTraced document) : node.IsTraced document := by
  intro inner within
  cases within with
  | self => exact readAt
  | part listed within => exact traced _ listed inner within

/-- The parts of a value are read as types that are traced. -/
def ReadsTraced (document value : Json) : Prop :=
  ∀ part, sizeOf part < sizeOf value → ∀ path, path.Leads document part →
    (read path part).Keeps document (IsTraced document)

theorem ReadsTraced.part {value part : Json} (reads : ReadsTraced document value)
    (less : sizeOf part < sizeOf value) : ReadsTraced document part :=
  fun inner smaller => reads inner (smaller.trans less)

namespace ReadsTraced

variable (reads : ReadsTraced document (.obj fields)) (leads : path.Leads document (.obj fields))

include reads leads

theorem keeps_part {part : Json} (present : present? fields key = some part)
    (plain : Path.IsPlainKey key.toList) :
    (read (path.field key) part).Keeps document (IsTraced document) := by
  have found := (present?_eq_some_iff.mp present).1
  exact reads part (Json.sizeOf_field? found) _ (leads.field found plain)

theorem keeps_readList (plain : Path.IsPlainKey key.toList) :
    (readList path fields key).Keeps document fun nodes =>
      ∀ node ∈ nodes, node.IsTraced document := by
  rw [readList_eq]
  refine (keeps_arrayOrNull leads plain).bind fun items lists => ?_
  refine keeps_items (leads.items_of_lists lists plain) fun item listed path leadsItem => ?_
  exact reads item (lists.sizeOf_item listed) path leadsItem

theorem keeps_readProperty_obj :
    (readProperty path (.obj fields)).Keeps document fun property =>
      property.type.IsTraced document := by
  rw [readProperty]
  split
  · exact keeps_fail (.present leads)
  · rename_i value present
    refine (keeps_string leads (by simp)).bind fun name _ => ?_
    refine (reads.keeps_part leads present (by simp)).bind fun type traced => ?_
    exact (keeps_notes leads).bind fun notes _ => traced

omit reads leads in
theorem keeps_readProperty {value : Json} (reads : ReadsTraced document value)
    (leads : path.Leads document value) :
    (readProperty path value).Keeps document fun property => property.type.IsTraced document := by
  cases value with
  | obj fields => exact reads.keeps_readProperty_obj leads
  | _ =>
      rw [readProperty]
      · exact keeps_fail (.present leads)
      · intro fields object
        cases object

theorem keeps_literal :
    (NodeKind.literal.read path fields).Keeps document fun node =>
      ∀ part ∈ node.parts, part.IsTraced document := by
  rw [NodeKind.read]
  split
  · rename_i inner found
    have leadsInner : (path.field "value").Leads document (.obj inner) :=
      leads.field found (by simp)
    refine (keeps_arrayField leadsInner (by simp)).bind fun items lists => ?_
    have readsItem : ∀ item ∈ items, ∀ path, path.Leads document item →
        (readProperty path item).Keeps document fun property =>
          property.type.IsTraced document := by
      intro item listed path leadsItem
      have less : sizeOf item < sizeOf (Json.obj fields) :=
        (lists.sizeOf_item listed).trans (Json.sizeOf_field? found)
      exact keeps_readProperty (reads.part less) leadsItem
    have leadsItems := leadsInner.items_of_lists lists (by simp)
    refine (keeps_items leadsItems readsItem).bind fun properties traced part listed => ?_
    obtain ⟨property, among, rfl⟩ := List.mem_map.mp listed
    exact traced property among
  · exact keeps_fail (leads.isPlace_field (by simp))

theorem keeps_kind (kind : NodeKind) :
    (kind.read path fields).Keeps document fun node =>
      ∀ part ∈ node.parts, part.IsTraced document := by
  cases kind with
  | base =>
      refine (keeps_string leads (by simp)).bind fun name _ part listed => ?_
      cases listed
  | reference =>
      refine (keeps_string leads (by simp)).bind fun name _ part listed => ?_
      cases listed
  | array =>
      rw [NodeKind.read]
      split
      · exact keeps_fail (.present leads)
      · rename_i value present
        refine (reads.keeps_part leads present (by simp)).bind fun element traced part listed => ?_
        obtain rfl := List.mem_singleton.mp listed
        exact traced
  | map =>
      rw [NodeKind.read]
      split
      · rename_i key value presentKey presentValue
        refine (reads.keeps_part leads presentKey (by simp)).bind fun key tracedKey => ?_
        refine (reads.keeps_part leads presentValue (by simp)).bind
          fun value tracedValue part listed => ?_
        rcases List.mem_pair.mp listed with rfl | rfl
        · exact tracedKey
        · exact tracedValue
      · exact keeps_fail (.present leads)
  | literal => exact reads.keeps_literal leads
  | constant =>
      rw [NodeKind.read]
      split
      · intro part listed
        cases listed
      · exact keeps_fail (leads.isPlace_field (by simp))
  | union => exact (reads.keeps_readList leads (by simp)).bind fun members traced => traced
  | intersection => exact (reads.keeps_readList leads (by simp)).bind fun members traced => traced
  | tuple => exact (reads.keeps_readList leads (by simp)).bind fun members traced => traced

end ReadsTraced

theorem keeps_read {value : Json} (leads : path.Leads document value) :
    (read path value).Keeps document (IsTraced document) := by
  induction value using Json.induction generalizing path with
  | step value induction =>
      by_cases known : ∃ kind : NodeKind, value.field? "kind" = some (.str kind.tag)
      · obtain ⟨kind, tagged⟩ := known
        cases value with
        | obj fields =>
            have reads : ReadsTraced document (.obj fields) :=
              fun part less path leads => induction part less leads
            have keeps := reads.keeps_kind leads kind
            rw [← read_obj kind tagged] at keeps
            refine keeps.of_ok fun node read traced => IsReadAt.isTraced ?_ traced
            obtain ⟨_, source⟩ := kind_and_source_of_read read
            rw [IsReadAt, source]
            exact ⟨fields, leads, read⟩
        | _ => cases tagged
      · obtain ⟨fault, failed⟩ : ∃ fault, read path value = fail fault path :=
          read_of_untagged (not_exists.mp known)
        rw [failed]
        exact keeps_fail (.present leads)

theorem keeps_readOptional (leads : path.Leads document (.obj fields))
    (plain : Path.IsPlainKey key.toList) :
    (readOptional fields key path).Keeps document fun type =>
      ∀ node, type = some node → node.IsTraced document := by
  rw [readOptional]
  split
  · intro node absurd
    cases absurd
  · rename_i value present
    have found := (present?_eq_some_iff.mp present).1
    refine (keeps_read (leads.field found plain)).bind fun node traced other same => ?_
    obtain rfl := Option.some.inj same
    exact traced

theorem readsTraced (document value : Json) : ReadsTraced document value :=
  fun _ _ _ leads => keeps_read leads

theorem keeps_readProperties {items : List Json} (leads : path.LeadsToItems document items) :
    (readProperties path 0 items).Keeps document fun properties =>
      ∀ property ∈ properties, property.type.IsTraced document := by
  rw [readProperties_eq_each]
  exact keeps_items leads fun item _ path => (readsTraced document item).keeps_readProperty

end Node

/-! ## Declarations -/

/-- The types that a record has. -/
def Structure.types (declared : Structure) : List Node :=
  declared.properties.map (·.type) ++ declared.parents ++ declared.mixins

/-- The types that a request has. -/
def Request.types (declared : Request) : List Node :=
  [declared.params, declared.result, declared.partialResult, declared.errorData,
    declared.registrationOptions].reduceOption

/-- The types that a notification has. -/
def Notification.types (declared : Notification) : List Node :=
  [declared.params, declared.registrationOptions].reduceOption

theorem Constant.keeps_read {document : Json} {path : Path} (integral : Bool)
    (isPlace : path.IsPlace document) (found : Option Json) :
    (Constant.read integral path found).Keeps document fun _ => True := by
  unfold Constant.read
  split
  · trivial
  · trivial
  · split
    · trivial
    · split
      · exact keeps_fail isPlace
      · trivial
  · exact keeps_fail isPlace

section Declarations

variable {document value : Json} {path : Path} (leads : path.Leads document value)

include leads

theorem Structure.keeps_read :
    (Structure.read path value).Keeps document fun declared =>
      ∀ node ∈ declared.types, node.IsTraced document := by
  refine (keeps_object leads).bind fun fields leads => ?_
  have reads := Node.readsTraced document (.obj fields)
  refine (keeps_arrayField leads (by simp)).bind fun items lists => ?_
  have leadsItems := leads.items_of_lists lists (by simp)
  refine (Node.keeps_readProperties leadsItems).bind fun properties ofProperties => ?_
  refine (keeps_string leads (by simp)).bind fun name _ => ?_
  refine (reads.keeps_readList leads (by simp)).bind fun parents ofParents => ?_
  refine (reads.keeps_readList leads (by simp)).bind fun mixins ofMixins => ?_
  refine (keeps_notes leads).bind fun notes _ node listed => ?_
  simp only [Structure.types, List.mem_append, List.mem_map] at listed
  rcases listed with (⟨property, among, rfl⟩ | among) | among
  · exact ofProperties property among
  · exact ofParents node among
  · exact ofMixins node among

theorem EnumValue.keeps_read (integral : Bool) :
    (EnumValue.read integral path value).Keeps document fun _ => True := by
  refine (keeps_object leads).bind fun fields leads => ?_
  have isPlace : (path.field "value").IsPlace document := leads.isPlace_field (by simp)
  refine (Constant.keeps_read integral isPlace _).bind fun constant _ => ?_
  refine (keeps_string leads (by simp)).bind fun name _ => ?_
  refine (keeps_string leads (by simp)).bind fun documentation _ => ?_
  exact (keeps_string leads (by simp)).bind fun since _ => trivial

theorem Enumeration.keeps_read :
    (Enumeration.read path value).Keeps document fun declared =>
      ∀ node, declared.type = some node → node.IsTraced document := by
  refine (keeps_object leads).bind fun fields leads => ?_
  refine (Node.keeps_readOptional leads (by simp)).bind fun type traced => ?_
  refine (keeps_arrayField leads (by simp)).bind fun items lists => ?_
  have leadsItems := leads.items_of_lists lists (by simp)
  have readsItem : ∀ item ∈ items, ∀ path, path.Leads document item →
      (EnumValue.read (isIntegral type) path item).Keeps document fun _ => True :=
    fun item _ path leads => EnumValue.keeps_read leads (isIntegral type)
  refine (keeps_items leadsItems readsItem).bind fun values _ => ?_
  refine (keeps_string leads (by simp)).bind fun name _ => ?_
  exact (keeps_notes leads).bind fun notes _ => traced

theorem TypeAlias.keeps_read :
    (TypeAlias.read path value).Keeps document fun declared =>
      ∀ node, declared.type = some node → node.IsTraced document := by
  refine (keeps_object leads).bind fun fields leads => ?_
  refine (keeps_string leads (by simp)).bind fun name _ => ?_
  refine (Node.keeps_readOptional leads (by simp)).bind fun type traced => ?_
  exact (keeps_notes leads).bind fun notes _ => traced

theorem Request.keeps_read :
    (Request.read path value).Keeps document fun declared =>
      ∀ node ∈ declared.types, node.IsTraced document := by
  refine (keeps_object leads).bind fun fields leads => ?_
  refine (keeps_string leads (by simp)).bind fun method _ => ?_
  refine (keeps_string leads (by simp)).bind fun direction _ => ?_
  refine (Node.keeps_readOptional leads (by simp)).bind fun params ofParams => ?_
  refine (Node.keeps_readOptional leads (by simp)).bind fun result ofResult => ?_
  refine (Node.keeps_readOptional leads (by simp)).bind fun partialResult ofPartialResult => ?_
  refine (Node.keeps_readOptional leads (by simp)).bind fun errorData ofErrorData => ?_
  refine (keeps_string leads (by simp)).bind fun registrationMethod _ => ?_
  refine (Node.keeps_readOptional leads (by simp)).bind fun registrationOptions ofOptions => ?_
  refine (keeps_notes leads).bind fun notes _ node listed => ?_
  simp only [Request.types, List.reduceOption_mem_iff, List.mem_cons, List.not_mem_nil,
    or_false] at listed
  rcases listed with typed | typed | typed | typed | typed
  · exact ofParams node typed.symm
  · exact ofResult node typed.symm
  · exact ofPartialResult node typed.symm
  · exact ofErrorData node typed.symm
  · exact ofOptions node typed.symm

theorem Notification.keeps_read :
    (Notification.read path value).Keeps document fun declared =>
      ∀ node ∈ declared.types, node.IsTraced document := by
  refine (keeps_object leads).bind fun fields leads => ?_
  refine (keeps_string leads (by simp)).bind fun method _ => ?_
  refine (keeps_string leads (by simp)).bind fun direction _ => ?_
  refine (Node.keeps_readOptional leads (by simp)).bind fun params ofParams => ?_
  refine (keeps_string leads (by simp)).bind fun registrationMethod _ => ?_
  refine (Node.keeps_readOptional leads (by simp)).bind fun registrationOptions ofOptions => ?_
  refine (keeps_notes leads).bind fun notes _ node listed => ?_
  simp only [Notification.types, List.reduceOption_mem_iff, List.mem_cons, List.not_mem_nil,
    or_false] at listed
  rcases listed with typed | typed
  · exact ofParams node typed.symm
  · exact ofOptions node typed.symm

end Declarations

namespace Model

/-- All types that are written in the declarations and methods of a protocol. -/
def writtenTypes (model : Model) : List Node :=
  model.requests.flatMap Request.types ++ model.notifications.flatMap Notification.types ++
    model.structures.flatMap Structure.types ++ model.enumerations.filterMap (·.type) ++
    model.aliases.filterMap (·.type)

/-- A type stands in a protocol, at whatever depth. -/
def HasNode (model : Model) (node : Node) : Prop :=
  ∃ outer ∈ model.writtenTypes, Node.Within Node.parts node outer

variable {fields : Dictionary String Json}

theorem keeps_readSection {α : Type} {yields : α → Prop} {read : Path → Json → Reading α}
    (reads : ∀ {path value}, path.Leads (.obj fields) value →
      (read path value).Keeps (.obj fields) yields)
    (key : String) (plain : Path.IsPlainKey key.toList) :
    (readSection read fields key).Keeps (.obj fields) fun items => ∀ item ∈ items, yields item := by
  rw [readSection]
  split
  · intro item listed
    cases listed
  · rename_i values present
    have found := (present?_eq_some_iff.mp present).1
    have leads : (Path.root key).Leads (.obj fields) (.arr values) := .root found plain
    exact keeps_items (fun index value listed => leads.item listed) fun item _ path => reads
  · rename_i value _ present
    have found := (present?_eq_some_iff.mp present).1
    exact keeps_fail (.present (.root found plain))

theorem keeps_readVersion : (readVersion fields).Keeps (.obj fields) fun _ => True := by
  rw [readVersion]
  split
  · trivial
  · trivial
  · rename_i value _ kept
    have found := (Option.filter_eq_some_iff.mp kept).1
    exact keeps_fail (.present (.root found (by simp)))

theorem keeps_read : (read (.obj fields)).Keeps (.obj fields) fun model =>
    ∀ node, model.HasNode node → node.IsReadAt (.obj fields) := by
  rw [read]
  refine keeps_readVersion.bind fun version _ => ?_
  refine (keeps_readSection Request.keeps_read "requests" (by simp)).bind
    fun requests inRequests => ?_
  refine (keeps_readSection Notification.keeps_read "notifications" (by simp)).bind
    fun notifications inNotifications => ?_
  refine (keeps_readSection Structure.keeps_read "structures" (by simp)).bind
    fun structures inStructures => ?_
  refine (keeps_readSection Enumeration.keeps_read "enumerations" (by simp)).bind
    fun enumerations inEnumerations => ?_
  refine (keeps_readSection TypeAlias.keeps_read "typeAliases" (by simp)).bind
    fun aliases inAliases => ?_
  rintro node ⟨outer, listed, within⟩
  refine (?_ : outer.IsTraced (.obj fields)) node within
  simp only [writtenTypes, List.mem_append, List.mem_flatMap, List.mem_filterMap] at listed
  rcases listed with (((⟨declared, among, typed⟩ | ⟨declared, among, typed⟩) |
    ⟨declared, among, typed⟩) | ⟨declared, among, typed⟩) | ⟨declared, among, typed⟩
  · exact inRequests declared among outer typed
  · exact inNotifications declared among outer typed
  · exact inStructures declared among outer typed
  · exact inEnumerations declared among outer typed
  · exact inAliases declared among outer typed

end Model

end ProtocolCodegen
