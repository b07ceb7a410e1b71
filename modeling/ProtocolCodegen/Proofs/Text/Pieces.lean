import ProtocolCodegen.Text.Lines

/-!
# Joined texts

A joined text falls into the pieces of the texts that were joined.  It determines these pieces and
nothing else, so the texts can be read off only where the separator does not occur in them.
-/

namespace ProtocolCodegen.Text

theorem pieces_eq_splitOn (separator : Char) (text : List Char) :
    pieces separator text = text.splitOn separator := by
  induction text with
  | nil => simp
  | cons c rest induction =>
      rw [pieces, List.splitOn_cons_eq_if_modifyHead, induction]
      by_cases same : c = separator
      · simp [same]
      · rw [if_neg same, if_neg (by simpa using same)]
        cases shape : rest.splitOn separator with
        | nil => exact absurd shape (List.splitOn_ne_nil separator rest)
        | cons piece others => rfl

/-- The pieces determine the text. -/
theorem splitOn_injective (separator : Char) : Function.Injective (splitOn separator) := by
  intro first second equal
  have pieces_eq : first.toList.splitOn separator = second.toList.splitOn separator := by
    rw [splitOn, splitOn, pieces_eq_splitOn, pieces_eq_splitOn] at equal
    exact (List.map_inj_right fun _ _ => String.ofList_injective).mp equal
  have joined := congrArg (List.intercalate [separator]) pieces_eq
  rw [List.intercalate_splitOn, List.intercalate_splitOn] at joined
  exact String.toList_inj.mp joined

theorem splitOn_of_not_mem {separator : Char} {text : String} (free : separator ∉ text.toList) :
    splitOn separator text = [text] := by
  rw [splitOn, pieces_eq_splitOn, List.splitOn_eq_singleton free]
  simp

/-- What stands before the first separator belongs to the first piece. -/
theorem splitOn_append_of_not_mem {separator : Char} {first : String}
    (free : separator ∉ first.toList) (text : String) :
    splitOn separator (first ++ text) = (splitOn separator text).modifyHead (first ++ ·) := by
  have pieces_append : ∀ chars : List Char, separator ∉ chars →
      (chars ++ text.toList).splitOn separator =
        (text.toList.splitOn separator).modifyHead (chars ++ ·) := by
    intro chars free
    induction chars with
    | nil => exact (congrFun List.modifyHead_id _).symm
    | cons c rest induction =>
        have ⟨other, free⟩ := not_or.mp (mt List.mem_cons.mpr free)
        rw [List.cons_append, List.splitOn_cons_eq_if_modifyHead,
          if_neg (by simpa using Ne.symm other), induction free, List.modifyHead_modifyHead]
        rfl
  rw [splitOn, splitOn, pieces_eq_splitOn, pieces_eq_splitOn, String.toList_append,
    pieces_append _ free]
  cases text.toList.splitOn separator <;> simp

theorem splitOn_append (separator : Char) (first second : String) :
    splitOn separator (first ++ String.singleton separator ++ second) =
      splitOn separator first ++ splitOn separator second := by
  simp only [splitOn, pieces_eq_splitOn, String.toList_append, String.toList_singleton,
    List.append_assoc, List.singleton_append, List.splitOn_append_cons_self, List.map_append]

/-- A joined text has the pieces of the texts that were joined. -/
theorem splitOn_intercalate (separator : Char) {texts : List String} (nonempty : texts ≠ []) :
    splitOn separator (String.intercalate (String.singleton separator) texts) =
      texts.flatMap (splitOn separator) := by
  induction texts with
  | nil => exact absurd rfl nonempty
  | cons text rest induction =>
      cases rest with
      | nil => simp
      | cons next others =>
          rw [String.intercalate_cons_cons, splitOn_append, List.flatMap_cons,
            induction (List.cons_ne_nil next others)]

theorem intercalate_eq_iff (separator : Char) {first second : List String}
    (nonempty : first ≠ []) (nonempty' : second ≠ []) :
    String.intercalate (String.singleton separator) first =
        String.intercalate (String.singleton separator) second ↔
      first.flatMap (splitOn separator) = second.flatMap (splitOn separator) := by
  rw [← splitOn_intercalate separator nonempty, ← splitOn_intercalate separator nonempty']
  exact (splitOn_injective separator).eq_iff.symm

theorem flatMap_splitOn_of_not_mem {separator : Char} {texts : List String}
    (free : ∀ text ∈ texts, separator ∉ text.toList) :
    texts.flatMap (splitOn separator) = texts := by
  induction texts with
  | nil => rfl
  | cons text rest induction =>
      rw [List.flatMap_cons, splitOn_of_not_mem (free text List.mem_cons_self),
        induction fun other listed => free other (List.mem_cons_of_mem _ listed)]
      rfl

end ProtocolCodegen.Text
