import Mathlib
import ProtocolCodegen.Proofs.Text.Trimming
import ProtocolCodegen.Text.Lines

/-!
# Occurrences of texts

Where one text occurs within another.  An occurrence of a text without separators lies in one of the
parts that they set apart, and one of a text without blanks survives trimming.
-/

namespace ProtocolCodegen.Text

variable {α : Type} {needle : List α}

/-- A separator that a text does not contain stands in none of its occurrences. -/
theorem infix_append_cons_iff {separator : α} (free : separator ∉ needle) {first second : List α} :
    needle <:+: first ++ separator :: second ↔ needle <:+: first ∨ needle <:+: second := by
  constructor
  · intro occurs
    -- A part of the text that begins at the separator is empty.
    have empty {part : List α} (part_mem : part ⊆ needle) (begins : part <+: separator :: second) :
        part = [] := by
      rcases List.prefix_cons_iff.mp begins with empty | ⟨rest, rfl, _⟩
      · exact empty
      · exact absurd (part_mem List.mem_cons_self) free
    rcases List.infix_append_iff.mp occurs with inside | inside | ⟨front, back, rfl, ends, begins⟩
    · exact .inl inside
    · rcases List.infix_cons_iff.mp inside with begins | inside
      · exact .inl (empty (List.Subset.refl _) begins ▸ List.nil_infix)
      · exact .inr inside
    · obtain rfl := empty (List.subset_append_right _ _) begins
      rw [List.append_nil]
      exact .inl ends.isInfix
  · rintro (inside | inside)
    · exact inside.trans (List.prefix_append _ _).isInfix
    · exact inside.trans ((List.suffix_cons _ _).trans (List.suffix_append _ _)).isInfix

theorem infix_append_flatMap_iff {separator : α} (free : separator ∉ needle) (first : List α)
    (others : List (List α)) :
    needle <:+: first ++ others.flatMap (separator :: ·) ↔
      needle <:+: first ∨ ∃ other ∈ others, needle <:+: other := by
  induction others generalizing first with
  | nil => simp
  | cons other rest induction =>
      rw [List.flatMap_cons, List.cons_append, infix_append_cons_iff free, induction,
        List.exists_mem_cons_iff]

theorem intercalate_cons (separator : α) (first : List α) (others : List (List α)) :
    [separator].intercalate (first :: others) = first ++ others.flatMap (separator :: ·) := by
  induction others generalizing first with
  | nil => simp
  | cons other rest induction =>
      rw [List.intercalate_cons_cons, induction, List.flatMap_cons, List.cons_append,
        List.append_assoc, List.singleton_append]

theorem occursIn_iff {needle text : List Char} :
    occursIn needle text = true ↔ needle <:+: text := by
  induction text with
  | nil => simp [occursIn]
  | cons c rest induction =>
      rw [occursIn, Bool.or_eq_true, List.isPrefixOf_iff_prefix, induction, List.infix_cons_iff]

/-- A text without members that can be cut off occurs where it did. -/
theorem infix_dropEndWhile_iff {test : α → Bool} (solid : ∀ item ∈ needle, test item = false)
    (items : List α) : needle <:+: dropEndWhile test items ↔ needle <:+: items := by
  obtain ⟨cut, joined, all⟩ := exists_dropEndWhile_append test items
  have empty {part : List α} (part_mem : part ⊆ needle) (inside : part ⊆ cut) : part = [] := by
    refine List.eq_nil_iff_forall_not_mem.mpr fun item listed => ?_
    have kept := solid item (part_mem listed)
    rw [all item (inside listed)] at kept
    cases kept
  constructor
  · exact fun inside => inside.trans (dropEndWhile_isPrefix items).isInfix
  · intro occurs
    rw [← joined] at occurs
    rcases List.infix_append_iff.mp occurs with inside | inside | ⟨front, back, rfl, ends, begins⟩
    · exact inside
    · exact empty (List.Subset.refl _) inside.subset ▸ List.nil_infix
    · obtain rfl := empty (List.subset_append_right _ _) begins.subset
      rw [List.append_nil]
      exact ends.isInfix

end ProtocolCodegen.Text
