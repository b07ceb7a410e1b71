import Mathlib
import ProtocolCodegen.Proofs.Schema.Grammar
import ProtocolCodegen.Proofs.Schema.Unplaced

/-!
# Reading in another place

A value that is read in one place of a document is read in every other, as the same thing but for
what it says of its place.  Documents that list the items of some sections in another order are
therefore read as protocols that list the same declarations in another order.
-/

namespace ProtocolCodegen

namespace Reading

variable {α β γ δ : Type} {forget : α → β} {forget' : γ → δ}

/-- What one reading yields another one yields as well, but for what is forgotten of it. -/
def Repeats (forget : α → β) (reading reading' : Reading α) : Prop :=
  ∀ found, reading = .ok found → ∃ found', reading' = .ok found' ∧ forget found' = forget found

theorem repeats_ok {found found' : α} (same : forget found' = forget found) :
    Repeats forget (.ok found) (.ok found') := by
  rintro _ ⟨⟩
  exact ⟨found', rfl, same⟩

theorem repeats_fail {fault : Fault} {path : Path} {reading' : Reading α} :
    Repeats forget (fail fault path) reading' := by
  intro found read
  cases read

theorem Repeats.bind {reading reading' : Reading α} {next next' : α → Reading γ}
    (repeats : reading.Repeats forget reading')
    (follows : ∀ found found', forget found' = forget found →
      (next found).Repeats forget' (next' found')) :
    (reading >>= next).Repeats forget' (reading' >>= next') := by
  intro result read
  obtain ⟨found, first, second⟩ := bind_eq_ok_iff.mp read
  obtain ⟨found', first', same⟩ := repeats found first
  obtain ⟨result', second', same'⟩ := follows found found' same result second
  exact ⟨result', bind_eq_ok_iff.mpr ⟨found', first', second'⟩, same'⟩

/-- Where nothing is forgotten, what follows is given the same. -/
theorem Repeats.bind_same {reading reading' : Reading α} {next next' : α → Reading γ}
    (repeats : reading.Repeats id reading')
    (follows : ∀ found, reading = .ok found → (next found).Repeats forget' (next' found)) :
    (reading >>= next).Repeats forget' (reading' >>= next') := by
  intro result read
  obtain ⟨found, first, second⟩ := bind_eq_ok_iff.mp read
  obtain ⟨_, first', rfl⟩ := repeats found first
  obtain ⟨result', second', same⟩ := follows _ first result second
  exact ⟨result', bind_eq_ok_iff.mpr ⟨_, first', second'⟩, same⟩

section Leaves

variable {path path' : Path} {fields : Dictionary String Json} {key : String}

theorem repeats_object {value : Json} : (object path value).Repeats id (object path' value) := by
  cases value with
  | obj fields => exact repeats_ok rfl
  | _ => exact repeats_fail

theorem repeats_array {value : Json} :
    (Reading.array path value).Repeats id (Reading.array path' value) := by
  cases value with
  | arr items => exact repeats_ok rfl
  | _ => exact repeats_fail

theorem repeats_string : (string fields key path).Repeats id (string fields key path') := by
  rw [string, string]
  split
  · exact repeats_ok rfl
  · exact repeats_ok rfl
  · exact repeats_fail

theorem repeats_arrayField :
    (arrayField fields key path).Repeats id (arrayField fields key path') := by
  rw [arrayField, arrayField]
  split
  · exact repeats_ok rfl
  · exact repeats_array

theorem repeats_arrayOrNull :
    (arrayOrNull fields key path).Repeats id (arrayOrNull fields key path') := by
  rw [arrayOrNull, arrayOrNull]
  split
  · exact repeats_ok rfl
  · exact repeats_array

theorem repeats_notes : (notes fields path).Repeats id (notes fields path') := by
  refine repeats_string.bind_same fun documentation _ => ?_
  refine repeats_string.bind_same fun since _ => ?_
  refine repeats_string.bind_same fun deprecated _ => ?_
  exact repeats_ok rfl

end Leaves

section Items

variable {read : Path → Json → Reading α}

theorem repeats_each {values : List Json}
    (reads : ∀ value ∈ values, ∀ path path',
      (read path value).Repeats forget (read path' value))
    (path path' : Path) (index index' : Nat) :
    (each read path index values).Repeats (List.map forget) (each read path' index' values) := by
  induction values generalizing index index' with
  | nil => exact repeats_ok rfl
  | cons value rest induction =>
      rw [List.forall_mem_cons] at reads
      rw [each, each]
      refine (reads.1 _ _).bind fun item item' same => ?_
      refine (induction reads.2 _ _).bind fun items items' others => ?_
      refine repeats_ok ?_
      rw [List.map_cons, List.map_cons, same, others]

/-- Items that stand in another order are read in that order. -/
theorem exists_each_of_perm
    (reads : ∀ value path path', (read path value).Repeats forget (read path' value))
    {values values' : List Json} (reordered : values'.Perm values) {path : Path} {index : Nat}
    {items : List α} (found : each read path index values = .ok items) (path' : Path)
    (index' : Nat) :
    ∃ items', each read path' index' values' = .ok items' ∧
      (items'.map forget).Perm (items.map forget) := by
  -- The places are not fixed, since items move away from theirs and middle orders are read too.
  induction reordered generalizing path index items path' index' with
  | nil =>
      cases found
      exact ⟨[], rfl, .refl _⟩
  | cons value reordered induction =>
      obtain ⟨item, rest, first, others, rfl⟩ := each_cons_eq_ok_iff.mp found
      obtain ⟨item', first', same⟩ := reads value _ (path'.item index') item first
      obtain ⟨rest', others', perm⟩ := induction others path' (index' + 1)
      refine ⟨item' :: rest', each_cons_eq_ok_iff.mpr ⟨item', rest', first', others', rfl⟩, ?_⟩
      rw [List.map_cons, List.map_cons, same]
      exact perm.cons (forget item)
  | swap value other values =>
      obtain ⟨item, _, first, readRest, rfl⟩ := each_cons_eq_ok_iff.mp found
      obtain ⟨next, rest, second, others, rfl⟩ := each_cons_eq_ok_iff.mp readRest
      obtain ⟨next', first', sameNext⟩ := reads other _ (path'.item index') next second
      obtain ⟨item', second', sameItem⟩ := reads value _ (path'.item (index' + 1)) item first
      obtain ⟨rest', others', same⟩ := repeats_each (fun value _ => reads value)
        path path' _ (index' + 1 + 1) rest others
      have readRest' : each read path' (index' + 1) (value :: values) = .ok (item' :: rest') :=
        each_cons_eq_ok_iff.mpr ⟨item', rest', second', others', rfl⟩
      refine ⟨next' :: item' :: rest', ?_, ?_⟩
      · exact each_cons_eq_ok_iff.mpr ⟨next', item' :: rest', first', readRest', rfl⟩
      · simp only [List.map_cons, sameNext, sameItem, same]
        exact .swap _ _ _
  | trans reordered reordered' induction induction' =>
      obtain ⟨middle, read', perm'⟩ := induction' found path' index'
      obtain ⟨items', read, perm⟩ := induction read' path' index'
      exact ⟨items', read, perm.trans perm'⟩

end Items

end Reading

open Reading

/-! ## Types -/

namespace Node

variable {path path' : Path} {fields : Dictionary String Json} {key : String}

/-- The parts of a value are read in every place as the same types. -/
def RepeatsParts (value : Json) : Prop :=
  ∀ part, sizeOf part < sizeOf value → ∀ path path',
    (read path part).Repeats unplaced (read path' part)

theorem RepeatsParts.part {value part : Json} (repeats : RepeatsParts value)
    (less : sizeOf part < sizeOf value) : RepeatsParts part :=
  fun inner smaller => repeats inner (smaller.trans less)

namespace RepeatsParts

variable (repeats : RepeatsParts (.obj fields))

include repeats

theorem present {part : Json} (found : present? fields key = some part) (path path' : Path) :
    (read path part).Repeats unplaced (read path' part) :=
  repeats part (Json.sizeOf_field? (present?_eq_some_iff.mp found).1) path path'

theorem readList :
    (readList path fields key).Repeats (List.map unplaced) (readList path' fields key) := by
  rw [readList_eq, readList_eq]
  refine repeats_arrayOrNull.bind_same fun items read => ?_
  have lists := arrayOrNull_eq_ok_iff.mp read
  refine repeats_each (fun item listed path path' => ?_) _ _ 0 0
  exact repeats item (lists.sizeOf_item listed) path path'

theorem readProperty_obj :
    (readProperty path (.obj fields)).Repeats Property.unplaced
      (readProperty path' (.obj fields)) := by
  rw [readProperty, readProperty]
  split
  · exact repeats_fail
  · rename_i value found
    refine repeats_string.bind_same fun name _ => ?_
    refine (repeats.present found _ _).bind fun type type' same => ?_
    refine repeats_notes.bind_same fun notes _ => ?_
    refine repeats_ok ?_
    rw [Property.unplaced, same, Property.unplaced]

omit repeats in
theorem readProperty {value : Json} (repeats : RepeatsParts value) (path path' : Path) :
    (readProperty path value).Repeats Property.unplaced (readProperty path' value) := by
  cases value with
  | obj fields => exact repeats.readProperty_obj
  | _ =>
      rw [Node.readProperty]
      · exact repeats_fail
      · intro fields object
        cases object

theorem literal :
    (NodeKind.literal.read path fields).Repeats unplaced (NodeKind.literal.read path' fields) := by
  rw [NodeKind.read, NodeKind.read]
  split
  · rename_i inner found
    refine repeats_arrayField.bind_same fun items read => ?_
    have lists : (Json.obj inner).ListsOrNull "properties" items :=
      .lists (arrayField_eq_ok_iff.mp read)
    have readsItem : ∀ item ∈ items, ∀ path path',
        (Node.readProperty path item).Repeats Property.unplaced (Node.readProperty path' item) := by
      intro item listed
      have less : sizeOf item < sizeOf (Json.obj fields) :=
        (lists.sizeOf_item listed).trans (Json.sizeOf_field? found)
      exact (repeats.part less).readProperty
    refine (repeats_each readsItem _ _ 0 0).bind fun properties properties' same => ?_
    refine repeats_ok ?_
    rw [unplaced, unplaced, unplacedProperties_eq_map, unplacedProperties_eq_map, same]
  · exact repeats_fail

theorem kind (kind : NodeKind) :
    (kind.read path fields).Repeats unplaced (kind.read path' fields) := by
  cases kind with
  | base | reference => exact repeats_string.bind_same fun name _ => repeats_ok rfl
  | array =>
      rw [NodeKind.read, NodeKind.read]
      split
      · exact repeats_fail
      · rename_i value found
        refine (repeats.present found _ _).bind fun element element' same => repeats_ok ?_
        rw [unplaced, unplaced, same]
  | map =>
      rw [NodeKind.read, NodeKind.read]
      split
      · rename_i key value foundKey foundValue
        refine (repeats.present foundKey _ _).bind fun key key' sameKey => ?_
        refine (repeats.present foundValue _ _).bind fun value value' sameValue => repeats_ok ?_
        rw [unplaced, unplaced, sameKey, sameValue]
      · exact repeats_fail
  | literal => exact repeats.literal
  | constant =>
      rw [NodeKind.read, NodeKind.read]
      split
      · exact repeats_ok rfl
      · exact repeats_fail
  | union | intersection | tuple =>
      refine repeats.readList.bind fun members members' same => repeats_ok ?_
      rw [unplaced, unplaced, unplacedMembers_eq_map, unplacedMembers_eq_map, same]

end RepeatsParts

/-- A type that is read in one place is read in every place. -/
theorem repeats_read (value : Json) (path path' : Path) :
    (read path value).Repeats unplaced (read path' value) := by
  induction value using Json.induction generalizing path path' with
  | step value induction =>
      by_cases known : ∃ kind : NodeKind, value.field? "kind" = some (.str kind.tag)
      · obtain ⟨kind, tagged⟩ := known
        cases value with
        | obj fields =>
            have repeats : RepeatsParts (.obj fields) := induction
            rw [read_obj kind tagged, read_obj kind tagged]
            exact repeats.kind kind
        | _ => cases tagged
      · obtain ⟨fault, failed⟩ : ∃ fault, read path value = fail fault path :=
          read_of_untagged (not_exists.mp known)
        rw [failed]
        exact repeats_fail

theorem repeatsParts (value : Json) : RepeatsParts value :=
  fun part _ => repeats_read part

theorem repeats_readProperties (values : List Json) (path path' : Path) :
    (readProperties path 0 values).Repeats (List.map Property.unplaced)
      (readProperties path' 0 values) := by
  rw [readProperties_eq_each, readProperties_eq_each]
  exact repeats_each (fun value _ => (repeatsParts value).readProperty) path path' 0 0

theorem repeats_readList (fields : Dictionary String Json) (key : String) (path path' : Path) :
    (readList path fields key).Repeats (List.map unplaced) (readList path' fields key) :=
  (repeatsParts (.obj fields)).readList

theorem repeats_readOptional (fields : Dictionary String Json) (key : String)
    (path path' : Path) :
    (readOptional fields key path).Repeats (Option.map unplaced)
      (readOptional fields key path') := by
  rw [readOptional, readOptional]
  split
  · exact repeats_ok rfl
  · rename_i value found
    refine (repeats_read value _ _).bind fun node node' same => repeats_ok ?_
    rw [Option.map_some, Option.map_some, same]

end Node

/-! ## Declarations -/

section Declarations

variable (value : Json) (path path' : Path)

theorem Structure.repeats_read :
    (Structure.read path value).Repeats Structure.unplaced (Structure.read path' value) := by
  refine repeats_object.bind_same fun fields _ => ?_
  refine repeats_arrayField.bind_same fun values _ => ?_
  refine (Node.repeats_readProperties values _ _).bind fun properties properties' own => ?_
  refine repeats_string.bind_same fun name _ => ?_
  refine (Node.repeats_readList fields _ _ _).bind fun parents parents' extended => ?_
  refine (Node.repeats_readList fields _ _ _).bind fun mixins mixins' mixed => ?_
  refine repeats_notes.bind_same fun notes _ => repeats_ok ?_
  rw [Structure.unplaced, own, extended, mixed, Structure.unplaced]

theorem EnumValue.repeats_read (integral : Bool) :
    (EnumValue.read integral path value).Repeats id (EnumValue.read integral path' value) := by
  refine repeats_object.bind_same fun fields _ => ?_
  have constant : (Constant.read integral (path.field "value") (fields.get? "value")).Repeats id
      (Constant.read integral (path'.field "value") (fields.get? "value")) := by
    unfold Constant.read
    split
    · exact repeats_ok rfl
    · exact repeats_ok rfl
    · split
      · exact repeats_ok rfl
      · split
        · exact repeats_fail
        · exact repeats_ok rfl
    · exact repeats_fail
  refine constant.bind_same fun constant _ => ?_
  refine repeats_string.bind_same fun name _ => ?_
  refine repeats_string.bind_same fun documentation _ => ?_
  exact repeats_string.bind_same fun since _ => repeats_ok rfl

theorem Enumeration.isIntegral_unplaced (type : Option Node) :
    isIntegral (type.map Node.unplaced) = isIntegral type := by
  rcases type with _ | ⟨_ | _ | _ | _ | _ | _ | _ | _ | _⟩ <;> rfl

theorem Enumeration.repeats_read :
    (Enumeration.read path value).Repeats Enumeration.unplaced (Enumeration.read path' value) := by
  refine repeats_object.bind_same fun fields _ => ?_
  refine (Node.repeats_readOptional fields _ _ _).bind fun type type' same => ?_
  refine repeats_arrayField.bind_same fun items _ => ?_
  have integral : isIntegral type' = isIntegral type := by
    rw [← isIntegral_unplaced, same, isIntegral_unplaced]
  have values : (each (EnumValue.read (isIntegral type)) (path.field "values") 0 items).Repeats id
      (each (EnumValue.read (isIntegral type')) (path'.field "values") 0 items) := by
    rw [integral, ← List.map_id_fun]
    exact repeats_each (fun value _ path path' => EnumValue.repeats_read value path path' _) _ _ 0 0
  refine values.bind_same fun values _ => ?_
  refine repeats_string.bind_same fun name _ => ?_
  refine repeats_notes.bind_same fun notes _ => repeats_ok ?_
  rw [Enumeration.unplaced, same, Enumeration.unplaced]

theorem TypeAlias.repeats_read :
    (TypeAlias.read path value).Repeats TypeAlias.unplaced (TypeAlias.read path' value) := by
  refine repeats_object.bind_same fun fields _ => ?_
  refine repeats_string.bind_same fun name _ => ?_
  refine (Node.repeats_readOptional fields _ _ _).bind fun type type' same => ?_
  refine repeats_notes.bind_same fun notes _ => repeats_ok ?_
  rw [TypeAlias.unplaced, same, TypeAlias.unplaced]

theorem Request.repeats_read :
    (Request.read path value).Repeats Request.unplaced (Request.read path' value) := by
  refine repeats_object.bind_same fun fields _ => ?_
  have types := Node.repeats_readOptional fields
  refine repeats_string.bind_same fun method _ => ?_
  refine repeats_string.bind_same fun direction _ => ?_
  refine (types _ _ _).bind fun params params' sameParams => ?_
  refine (types _ _ _).bind fun result result' sameResult => ?_
  refine (types _ _ _).bind fun partialResult partialResult' samePartialResult => ?_
  refine (types _ _ _).bind fun errorData errorData' sameErrorData => ?_
  refine repeats_string.bind_same fun registrationMethod _ => ?_
  refine (types _ _ _).bind fun options options' sameOptions => ?_
  refine repeats_notes.bind_same fun notes _ => repeats_ok ?_
  rw [Request.unplaced, sameParams, sameResult, samePartialResult, sameErrorData, sameOptions,
    Request.unplaced]

theorem Notification.repeats_read :
    (Notification.read path value).Repeats Notification.unplaced
      (Notification.read path' value) := by
  refine repeats_object.bind_same fun fields _ => ?_
  have types := Node.repeats_readOptional fields
  refine repeats_string.bind_same fun method _ => ?_
  refine repeats_string.bind_same fun direction _ => ?_
  refine (types _ _ _).bind fun params params' sameParams => ?_
  refine repeats_string.bind_same fun registrationMethod _ => ?_
  refine (types _ _ _).bind fun options options' sameOptions => ?_
  refine repeats_notes.bind_same fun notes _ => repeats_ok ?_
  rw [Notification.unplaced, sameParams, sameOptions, Notification.unplaced]

end Declarations

/-! ## Documents -/

/-- Two documents that differ at most in the order in which some sections list their items. -/
def ReordersSections (sections : List String) (fields fields' : Dictionary String Json) : Prop :=
  ∀ key, fields'.get? key = fields.get? key ∨
    key ∈ sections ∧ ∃ values values', fields.get? key = some (.arr values) ∧
      fields'.get? key = some (.arr values') ∧ values'.Perm values

theorem ReordersSections.symm {sections : List String} {fields fields' : Dictionary String Json}
    (reorders : ReordersSections sections fields fields') :
    ReordersSections sections fields' fields := by
  intro key
  rcases reorders key with same | ⟨free, values, values', listed, listed', reordered⟩
  · exact .inl same.symm
  · exact .inr ⟨free, values', values, listed', listed, reordered.symm⟩

/-- A list and the same list in another order, or just the same unless it may be reordered. -/
structure Reordered {α : Type} (mayBe : Prop) (items items' : List α) : Prop where
  perm : items'.Perm items
  same : ¬mayBe → items' = items

namespace Model

/-- Two protocols that differ at most in the order in which some sections list their items. -/
structure Reorders (sections : List String) (model model' : Model) : Prop where
  version : model'.version = model.version
  requests : Reordered ("requests" ∈ sections) model.requests model'.requests
  notifications : Reordered ("notifications" ∈ sections) model.notifications model'.notifications
  structures : Reordered ("structures" ∈ sections) model.structures model'.structures
  enumerations : Reordered ("enumerations" ∈ sections) model.enumerations model'.enumerations
  aliases : Reordered ("typeAliases" ∈ sections) model.aliases model'.aliases

end Model

namespace ReordersSections

open Model

variable {sections : List String} {fields fields' : Dictionary String Json}
  (reorders : ReordersSections sections fields fields')

include reorders

theorem exists_readSection {α β : Type} {forget : α → β} {read : Path → Json → Reading α}
    (reads : ∀ value path path', (read path value).Repeats forget (read path' value))
    {key : String} {items : List α} (found : readSection read fields key = .ok items) :
    ∃ items', readSection read fields' key = .ok items' ∧
      Reordered (key ∈ sections) (items.map forget) (items'.map forget) := by
  rcases reorders key with same | ⟨free, values, values', listed, listed', reordered⟩
  · refine ⟨items, ?_, .refl _, fun _ => rfl⟩
    rw [← found, readSection, readSection, present?, present?, same]
  · rw [readSection, present?, listed] at found
    obtain ⟨items', read', perm⟩ := exists_each_of_perm reads reordered found (.root key) 0
    refine ⟨items', ?_, perm, fun kept => absurd free kept⟩
    rw [readSection, present?, listed']
    exact read'

/-- A document whose sections list their items in another order is read as a protocol that lists
the same declarations in that order. -/
theorem exists_read (kept : "metaData" ∉ sections) {model : Model}
    (found : Model.read (.obj fields) = .ok model) :
    ∃ model', Model.read (.obj fields') = .ok model' ∧
      model.unplaced.Reorders sections model'.unplaced := by
  have found := read_eq_ok_iff.mp found
  have version : readVersion fields' = .ok model.version := by
    rcases reorders "metaData" with same | ⟨free, _⟩
    · rw [← found.version, readVersion, readVersion, same]
    · exact absurd free kept
  obtain ⟨requests, ofRequests, sameRequests⟩ :=
    reorders.exists_readSection Request.repeats_read found.requests
  obtain ⟨notifications, ofNotifications, sameNotifications⟩ :=
    reorders.exists_readSection Notification.repeats_read found.notifications
  obtain ⟨structures, ofStructures, sameStructures⟩ :=
    reorders.exists_readSection Structure.repeats_read found.structures
  obtain ⟨enumerations, ofEnumerations, sameEnumerations⟩ :=
    reorders.exists_readSection Enumeration.repeats_read found.enumerations
  obtain ⟨aliases, ofAliases, sameAliases⟩ :=
    reorders.exists_readSection TypeAlias.repeats_read found.aliases
  refine ⟨⟨model.version, requests, notifications, structures, enumerations, aliases⟩, ?_, ?_⟩
  · exact read_eq_ok_iff.mpr
      ⟨version, ofRequests, ofNotifications, ofStructures, ofEnumerations, ofAliases⟩
  · exact ⟨rfl, sameRequests, sameNotifications, sameStructures, sameEnumerations, sameAliases⟩

/-- Whether a document is a schema does not depend on the order of the items of its sections. -/
theorem succeeds_read_iff (kept : "metaData" ∉ sections) :
    (Model.read (.obj fields')).Succeeds ↔ (Model.read (.obj fields)).Succeeds := by
  constructor
  · rintro ⟨model', found'⟩
    obtain ⟨model, found, _⟩ := reorders.symm.exists_read kept found'
    exact ⟨model, found⟩
  · rintro ⟨model, found⟩
    obtain ⟨model', found', _⟩ := reorders.exists_read kept found
    exact ⟨model', found'⟩

end ReordersSections
end ProtocolCodegen
