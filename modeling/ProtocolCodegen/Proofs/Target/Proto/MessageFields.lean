import Mathlib
import ProtocolCodegen.Proofs.Target.Rendering
import ProtocolCodegen.Proofs.Text.SnakeCase
import ProtocolCodegen.Target.Proto.File

/-!
# Proto: fields of messages

A message has one field for each field of its class, in order and numbered from one.  The names of
its fields are the names of the properties in another case, so that they are different as long as
these begin with small letters and hold no underscores.
-/

namespace ProtocolCodegen.Proto

open Outline

/-- A field as it stands in a message. -/
structure WrittenField where
  /-- Its type, with its label if it has one. -/
  type : String
  /-- Its name. -/
  name : String
  /-- Its number. -/
  number : Nat

/-- The line of a field. -/
def WrittenField.line (indent : String) (field : WrittenField) : String :=
  indent ++ field.type ++ " " ++ field.name ++ " = " ++ toString field.number ++ ";"

/-- Fields are written for items, one for each in order, and numbered in order from a number. -/
structure AreWritten {α : Type} (spell : α → Except RenderError String) (name : α → String)
    (first : Nat) (items : List α) (fields : List WrittenField) : Prop where
  types : fields.map (Except.ok ·.type) = items.map spell
  names : fields.map (·.name) = items.map name
  numbers : fields.map (·.number) = List.range' first items.length

section Fields

variable {α β : Type} {spell : α → Except RenderError String} {name : α → String} {first : Nat}

theorem areWritten_nil {fields : List WrittenField} :
    AreWritten spell name first [] fields ↔ fields = [] := by
  constructor
  · intro written
    exact List.map_eq_nil_iff.mp written.names
  · rintro rfl
    exact ⟨rfl, rfl, rfl⟩

theorem areWritten_cons {item : α} {rest : List α} {fields : List WrittenField} :
    AreWritten spell name first (item :: rest) fields ↔
      ∃ type others, spell item = .ok type ∧ AreWritten spell name (first + 1) rest others ∧
        fields = ⟨type, name item, first⟩ :: others := by
  constructor
  · rintro ⟨types, names, numbers⟩
    cases fields with
    | nil => cases names
    | cons field others =>
        obtain ⟨type, own, number⟩ := field
        simp only [List.map_cons, List.cons.injEq, List.length_cons, List.range'_succ]
          at types names numbers
        obtain ⟨rfl, numbers⟩ := numbers
        obtain ⟨rfl, names⟩ := names
        exact ⟨type, others, types.1.symm, ⟨types.2, names, numbers⟩, rfl⟩
  · rintro ⟨type, others, spelled, ⟨types, names, numbers⟩, rfl⟩
    refine ⟨?_, ?_, ?_⟩
    · rw [List.map_cons, List.map_cons, types, spelled]
    · rw [List.map_cons, List.map_cons, names]
    · rw [List.map_cons, numbers, List.length_cons, List.range'_succ]

/-- What is written with indices that count from zero is written as fields. -/
theorem forall₂_zipIdx_iff (spell : α → Except RenderError String) (name : α → String)
    (write : α → WrittenField → β) (first : Nat) (items : List α) (lines : List β) :
    List.Forall₂ (fun (item : α × Nat) line =>
        ∃ type, spell item.1 = .ok type ∧ write item.1 ⟨type, name item.1, item.2 + 1⟩ = line)
      (items.zipIdx first) lines ↔
    ∃ fields, AreWritten spell name (first + 1) items fields ∧
      List.zipWith write items fields = lines := by
  induction items generalizing first lines with
  | nil => simp [areWritten_nil, eq_comm]
  | cons item rest induction =>
      rw [List.zipIdx_cons, List.forall₂_cons_left_iff]
      constructor
      · rintro ⟨line, others, ⟨type, spelled, rfl⟩, later, rfl⟩
        obtain ⟨fields, written, rfl⟩ := (induction (first + 1) others).mp later
        exact ⟨_, areWritten_cons.mpr ⟨type, fields, spelled, written, rfl⟩, rfl⟩
      · rintro ⟨fields, written, rfl⟩
        obtain ⟨type, others, spelled, later, rfl⟩ := areWritten_cons.mp written
        exact ⟨_, _, ⟨type, spelled, rfl⟩, (induction (first + 1) _).mpr ⟨others, later, rfl⟩, rfl⟩

end Fields

/-! ## Messages -/

/-- The line of a field below its comment. -/
def commentedLines (field : Field) (written : WrittenField) : List String :=
  Layout.commentLines field.notes.documentation "  " ++ [written.line "  "]

/-- The message of a class with the fields that are written for it. -/
def messageOf (declared : Outline.Class) (fields : List WrittenField) : String :=
  Text.unlines <| Layout.commentLines declared.notes.documentation "" ++
    ["message " ++ declared.name ++ " \x7b"] ++
      (List.zipWith commentedLines declared.fields fields).flatten ++ ["\x7d"]

theorem fieldLines_eq_ok_iff {aliases : AliasTable} {field : Field} {number : Nat}
    {lines : List String} :
    (fieldLines aliases field number : Rendering (List String)).result = .ok lines ↔
      ∃ type, labelledType aliases field = .ok type ∧
        commentedLines field ⟨type, fieldName field.name, number⟩ = lines := by
  change fieldLines aliases field number = .ok lines ↔ _
  rw [fieldLines]
  cases spelled : labelledType aliases field with
  | error => simp [Bind.bind, Except.bind]
  | ok type => simp [Bind.bind, Except.bind, Pure.pure, Except.pure, commentedLines, WrittenField.line]

theorem messageText_eq_ok_iff {aliases : AliasTable} {declared : Outline.Class} {text : String} :
    (messageText aliases declared).result = .ok text ↔
      ∃ fields, AreWritten (labelledType aliases) (fieldName ·.name) 1 declared.fields fields ∧
        messageOf declared fields = text := by
  have writes := forall₂_zipIdx_iff (labelledType aliases)
    (fun field : Field => fieldName field.name) commentedLines 0 declared.fields
  rw [messageText, Rendering.result_bind_eq_ok_iff]
  simp only [Rendering.result_mapM_eq_ok_iff, fieldLines_eq_ok_iff]
  constructor
  · rintro ⟨lines, each, same⟩
    obtain ⟨fields, written, rfl⟩ := (writes lines).mp each
    exact ⟨fields, written, Except.ok.inj same⟩
  · rintro ⟨fields, written, rfl⟩
    exact ⟨_, (writes _).mpr ⟨fields, written, rfl⟩, rfl⟩

theorem withoutMarks_of_isLowerCamel {name : String} (camel : Name.isLowerCamel name = true) :
    Name.withoutMarks name = name := by
  obtain ⟨c, rest, chars, small, _⟩ := Name.exists_toList_of_isWordAfter camel
  have unmarked : c ≠ '$' ∧ c ≠ '_' := by
    constructor
    all_goals
      rintro rfl
      exact absurd small (by decide)
  rw [Name.withoutMarks, chars, Name.dropMark, if_neg unmarked.1, Name.dropMark,
    if_neg unmarked.2, ← chars, String.ofList_toList]

theorem fieldName_of_isLowerCamel {name : String} (camel : Name.isLowerCamel name = true) :
    fieldName name = Name.snakeCase name := by
  rw [fieldName, withoutMarks_of_isLowerCamel camel]

theorem nodup_fieldNames {fields : List Field} (distinct : (fields.map (·.name)).Nodup)
    (camel : ∀ field ∈ fields, Name.isLowerCamel field.name = true) :
    (fields.map (fieldName ·.name)).Nodup := by
  refine (List.nodup_map_iff_inj_on distinct.of_map).mpr ?_
  intro first listed second listed' same
  rw [fieldName_of_isLowerCamel (camel first listed),
    fieldName_of_isLowerCamel (camel second listed')] at same
  exact List.inj_on_of_nodup_map distinct listed listed'
    (Name.snakeCase_injOn (camel first listed) (camel second listed') same)

/-- Names that begin with a small letter and go on with letters and digits stay different when their
words are joined by underscores, and raising the letters behind the underscores gives them back.  So
a class whose properties have different names of this kind becomes a message whose fields have
different names and are numbered from one in order. -/
theorem distinguishes_camel_fields :
    (∀ first second, Name.isLowerCamel first = true → Name.isLowerCamel second = true →
      Name.snakeCase first = Name.snakeCase second → first = second) ∧
    (∀ name, Name.isLowerCamel name = true → Name.camelCase (Name.snakeCase name) = name) ∧
    ∀ (aliases : AliasTable) (declared : Outline.Class),
      (declared.fields.map (·.name)).Nodup →
      (∀ field ∈ declared.fields, Name.isLowerCamel field.name = true) →
      ∀ text, (messageText aliases declared).result = .ok text ↔
        ∃ fields, messageOf declared fields = text ∧
          fields.map (Except.ok ·.type) = declared.fields.map (labelledType aliases) ∧
          fields.map (·.name) = declared.fields.map (Name.snakeCase ·.name) ∧
          (fields.map (·.name)).Nodup ∧
          fields.map (·.number) = List.range' 1 declared.fields.length := by
  refine ⟨fun _ _ => Name.snakeCase_injOn, fun _ => Name.camelCase_snakeCase, ?_⟩
  intro aliases declared distinct camel text
  have names : declared.fields.map (fieldName ·.name) =
      declared.fields.map (Name.snakeCase ·.name) :=
    List.map_congr_left fun field listed => fieldName_of_isLowerCamel (camel field listed)
  rw [messageText_eq_ok_iff]
  constructor
  · rintro ⟨fields, written, same⟩
    refine ⟨fields, same, written.types, written.names.trans names, ?_, written.numbers⟩
    rw [written.names]
    exact nodup_fieldNames distinct camel
  · rintro ⟨fields, same, types, named, -, numbers⟩
    exact ⟨fields, ⟨types, named.trans names.symm, numbers⟩, same⟩

/-- The properties `rangeLength`, `range2D` and `uri` become fields of three names. -/
theorem distinguishes_camel_fields_of_document :
    let field (name : String) : Field :=
      { (default : Field) with name, type := some (.scalar .string "string") }
    let declared : Outline.Class :=
      { (default : Outline.Class) with
        name := "Document"
        fields := [field "rangeLength", field "range2D", field "uri"] }
    (declared.fields.map (·.name)).Nodup ∧
      (∀ field ∈ declared.fields, Name.isLowerCamel field.name = true) ∧
      Name.camelCase (Name.snakeCase "range2D") = "range2D" ∧
      (messageText [] declared).result = .ok (Text.unlines ["message Document \x7b",
        "  string range_length = 1;", "  string range2_d = 2;", "  string uri = 3;", "\x7d"]) := by
  intro field declared
  have distinct : (declared.fields.map (·.name)).Nodup := by decide
  have camel : ∀ field ∈ declared.fields, Name.isLowerCamel field.name = true := by decide
  obtain ⟨_, back, messages⟩ := distinguishes_camel_fields
  refine ⟨distinct, camel, back "range2D" (by decide), ?_⟩
  refine (messages [] declared distinct camel _).mpr ⟨[⟨"string", "range_length", 1⟩,
    ⟨"string", "range2_d", 2⟩, ⟨"string", "uri", 3⟩], ?_, ?_, ?_, ?_, ?_⟩
  · cbv
  · cbv
  · cbv
  · decide
  · rfl

end ProtocolCodegen.Proto
