import ProtocolCodegen.Proofs.Schema.Grammar

/-!
# Values of enumerations of whole numbers

In an enumeration whose type is a base type of whole numbers, a number is read as the whole number
it stands for, however it is written, and any other number is a fault.  A string is kept as it is.
-/

namespace ProtocolCodegen

open Reading

/-- What a value is read as where numbers have to be whole. -/
inductive Json.IsReadAs : Json → Constant → Prop where
  | int (number : Int) : IsReadAs (.int number) (.int number)
  | float {value : Binary64} {number : Int} (stands : value.value? = some (number : ℚ)) :
      IsReadAs (.float value) (.int number)
  | text (value : String) : IsReadAs (.str value) (.text value)

/-- The constants of an enumeration of whole numbers are read from the values that it lists. -/
def Json.ListsConstants (value : Json) (constants : List EnumValue) : Prop :=
  ∃ items, value.Lists "values" items ∧
    List.Forall₂ (fun item constant => ∃ part, item.field? "value" = some part ∧
      part.IsReadAs constant.value) items constants

theorem Json.IsReadAs.int_or_text {part : Json} {constant : Constant}
    (isReadAs : part.IsReadAs constant) :
    (∃ number, constant = .int number) ∨ ∃ text, constant = .text text := by
  cases isReadAs with
  | int number => exact .inl ⟨number, rfl⟩
  | float => exact .inl ⟨_, rfl⟩
  | text text => exact .inr ⟨text, rfl⟩

theorem Constant.read_whole_eq_ok_iff {path : Path} {part : Option Json} {constant : Constant} :
    Constant.read true path part = .ok constant ↔
      ∃ value, part = some value ∧ value.IsReadAs constant := by
  constructor
  · intro read
    rcases part with _ | value
    · cases read
    · refine ⟨value, rfl, ?_⟩
      cases value with
      | str text =>
          cases read
          exact .text text
      | int number =>
          cases read
          exact .int number
      | float number =>
          rw [Constant.read] at read
          split at read
          · rename_i whole found
            cases read
            exact .float (Binary64.toInt?_eq_some_iff.mp found)
          · cases read
      | null | bool | arr | obj => cases read
  · rintro ⟨value, rfl, number | stands | text⟩
    · rfl
    · rw [Constant.read, Binary64.toInt?_eq_some_iff.mpr stands]
    · rfl

theorem Reading.forall₂_of_each {α : Type} {read : Path → Json → Reading α} {path : Path}
    {index : Nat} {values : List Json} {items : List α}
    (found : each read path index values = .ok items) :
    List.Forall₂ (fun value item => ∃ place, read place value = .ok item) values items := by
  induction values generalizing index items with
  | nil =>
      cases found
      exact .nil
  | cons value rest induction =>
      obtain ⟨item, others, first, later, rfl⟩ := each_cons_eq_ok_iff.mp found
      exact .cons ⟨_, first⟩ (induction later)

theorem EnumValue.exists_of_read {path : Path} {item : Json} {constant : EnumValue}
    (read : EnumValue.read true path item = .ok constant) :
    ∃ part, item.field? "value" = some part ∧ part.IsReadAs constant.value := by
  obtain ⟨fields, object, read⟩ := bind_eq_ok_iff.mp read
  obtain ⟨value, found, read⟩ := bind_eq_ok_iff.mp read
  obtain ⟨name, _, read⟩ := bind_eq_ok_iff.mp read
  obtain ⟨documentation, _, read⟩ := bind_eq_ok_iff.mp read
  obtain ⟨since, _, ⟨⟩⟩ := bind_eq_ok_iff.mp read
  obtain rfl := object_eq_ok_iff.mp object
  exact Constant.read_whole_eq_ok_iff.mp found

theorem Enumeration.isIntegral_and_listsConstants {path : Path} {item : Json}
    {declared : Enumeration} (read : Enumeration.read path item = .ok declared) :
    (isIntegral declared.type = true ↔ item.IsIntegral) ∧
      (item.IsIntegral → item.ListsConstants declared.values) := by
  obtain ⟨fields, object, read⟩ := bind_eq_ok_iff.mp read
  obtain ⟨type, typed, read⟩ := bind_eq_ok_iff.mp read
  obtain ⟨items, listed, read⟩ := bind_eq_ok_iff.mp read
  obtain ⟨values, found, read⟩ := bind_eq_ok_iff.mp read
  obtain ⟨name, _, read⟩ := bind_eq_ok_iff.mp read
  obtain ⟨notes, _, ⟨⟩⟩ := bind_eq_ok_iff.mp read
  obtain rfl := object_eq_ok_iff.mp object
  refine ⟨isIntegral_iff typed, fun integral => ⟨items, arrayField_eq_ok_iff.mp listed, ?_⟩⟩
  rw [(isIntegral_iff typed).mpr integral] at found
  refine (forall₂_of_each found).imp ?_
  rintro item constant ⟨place, read⟩
  exact EnumValue.exists_of_read read

namespace Model

theorem exists_of_readSection {α : Type} {read : Path → Json → Reading α}
    {fields : Dictionary String Json} {key : String} {items : List α}
    (found : readSection read fields key = .ok items) :
    ∃ values, (Json.obj fields).ListsOrNull key values ∧
      List.Forall₂ (fun value item => ∃ place, read place value = .ok item) values items := by
  rw [readSection] at found
  split at found
  · rename_i missing
    cases found
    refine ⟨[], ?_, .nil⟩
    rcases present?_eq_none_iff.mp missing with absent | null
    · exact .lists (.absent absent)
    · exact .null null
  · rename_i values present
    exact ⟨values, .lists (.present (present?_eq_some_iff.mp present).1), forall₂_of_each found⟩
  · cases found

/-- Enumerations of whole numbers are those of the document, with the values that are listed
there. -/
theorem forall₂_enumerations {document : Json} {model : Model}
    (accepted : read document = .ok model) :
    ∃ items, document.ListsOrNull "enumerations" items ∧
      List.Forall₂ (fun item declared =>
        (Enumeration.isIntegral declared.type = true ↔ item.IsIntegral) ∧
          (item.IsIntegral → item.ListsConstants declared.values)) items model.enumerations := by
  cases document with
  | obj fields =>
      obtain ⟨items, listed, each⟩ :=
        exists_of_readSection (read_eq_ok_iff.mp accepted).enumerations
      refine ⟨items, listed, each.imp ?_⟩
      rintro item declared ⟨place, read⟩
      exact Enumeration.isIntegral_and_listsConstants read
  | _ => cases accepted

end Model

end ProtocolCodegen
