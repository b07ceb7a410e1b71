import Mathlib
import ProtocolCodegen.Text.Blank
import ProtocolCodegen.Text.Lines

/-!
# Trimmed texts

What is cut off at the end of a joined text comes from its last part, unless that is cut off
entirely.
-/

namespace ProtocolCodegen.Text

variable {α : Type} {test : α → Bool}

theorem dropEndWhile_append (first : List α) {last : List α}
    (stops : ∃ item ∈ last, test item = false) :
    dropEndWhile test (first ++ last) = first ++ dropEndWhile test last := by
  obtain ⟨item, listed, stop⟩ := stops
  have remains : (last.reverse.dropWhile test).isEmpty = false := by
    rw [List.isEmpty_eq_false_iff, Ne, List.dropWhile_eq_nil_iff]
    intro all
    rw [all item (List.mem_reverse.mpr listed)] at stop
    cases stop
  rw [dropEndWhile, dropEndWhile, List.reverse_append, List.dropWhile_append, remains,
    if_neg Bool.false_ne_true, List.reverse_append, List.reverse_reverse]

theorem dropEndWhile_append_of_all (first : List α) {last : List α}
    (all : ∀ item ∈ last, test item = true) :
    dropEndWhile test (first ++ last) = dropEndWhile test first := by
  have nothing : last.reverse.dropWhile test = [] :=
    List.dropWhile_eq_nil_iff.mpr fun item listed => all item (List.mem_reverse.mp listed)
  rw [dropEndWhile, dropEndWhile, List.reverse_append, List.dropWhile_append, nothing,
    if_pos List.isEmpty_nil]

theorem dropEndWhile_isPrefix (items : List α) : dropEndWhile test items <+: items := by
  rw [← List.reverse_suffix, dropEndWhile, List.reverse_reverse]
  exact List.dropWhile_suffix test

/-- What is cut off is a tail. -/
theorem exists_dropEndWhile_append (test : α → Bool) (items : List α) :
    ∃ cut, dropEndWhile test items ++ cut = items ∧ ∀ item ∈ cut, test item = true := by
  refine ⟨(items.reverse.takeWhile test).reverse, ?_, fun item listed => ?_⟩
  · rw [dropEndWhile, ← List.reverse_append, List.takeWhile_append_dropWhile, List.reverse_reverse]
  · exact List.mem_takeWhile_imp (List.mem_reverse.mp listed)

theorem trimLineFeeds_append (first : String) {last : String}
    (solid : last.toList.any (· != '\n')) :
    trimLineFeeds (first ++ last) = first ++ trimLineFeeds last := by
  have stops : ∃ c ∈ last.toList, (c == '\n') = false := by simpa using solid
  rw [trimLineFeeds, trimLineFeeds, String.toList_append, dropEndWhile_append _ stops,
    String.ofList_append, String.ofList_toList]

/-- The last part of a joined text is blank, or it alone is trimmed. -/
theorem trimEnd_append (last : String) :
    (∀ first, trimEnd (first ++ last) = trimEnd first) ∧ trimEnd last = "" ∨
      ∀ first, trimEnd (first ++ last) = first ++ trimEnd last := by
  simp only [trimEnd, String.toList_append]
  by_cases all : ∀ c ∈ last.toList, isBlank c = true
  · refine .inl ⟨fun first => by rw [dropEndWhile_append_of_all _ all], ?_⟩
    have blank := dropEndWhile_append_of_all [] all
    rw [List.nil_append] at blank
    rw [blank]
    rfl
  · have stops : ∃ c ∈ last.toList, isBlank c = false := by simpa using all
    exact .inr fun first => by
      rw [dropEndWhile_append _ stops, String.ofList_append, String.ofList_toList]

theorem length_trimEnd_le (text : String) : (trimEnd text).length ≤ text.length := by
  have shorter := (@dropEndWhile_isPrefix _ isBlank text.toList).length_le
  rwa [trimEnd, String.length_ofList, ← String.length_toList]

/-- Where joined texts with one beginning are trimmed to the same text, so are their ends. -/
theorem trimEnd_eq_of_append_left {start first second : String}
    (equal : trimEnd (start ++ first) = trimEnd (start ++ second)) :
    trimEnd first = trimEnd second := by
  have short {text : String} (equal : trimEnd start = start ++ text) : text = "" := by
    have shorter := length_trimEnd_le start
    rw [equal, String.length_append] at shorter
    exact String.length_eq_zero_iff.mp (by omega)
  rcases trimEnd_append first with ⟨blank, empty⟩ | solid <;>
    rcases trimEnd_append second with ⟨blank', empty'⟩ | solid'
  · rw [empty, empty']
  · rw [blank, solid'] at equal
    rw [empty, short equal]
  · rw [solid, blank'] at equal
    rw [empty', short equal.symm]
  · rw [solid, solid', String.append_right_inj] at equal
    exact equal

/-- Where joined texts with one end are trimmed to the same text, so are their beginnings. -/
theorem trimEnd_eq_of_append_right {first second last : String}
    (equal : trimEnd (first ++ last) = trimEnd (second ++ last)) :
    trimEnd first = trimEnd second := by
  rcases trimEnd_append last with ⟨blank, -⟩ | solid
  · rwa [blank, blank] at equal
  · rw [solid, solid, String.append_left_inj] at equal
    rw [equal]

theorem unlines_append (first last : List String) :
    unlines (first ++ last) = unlines first ++ unlines last := by
  rw [unlines, List.map_append, String.join_append]
  rfl

end ProtocolCodegen.Text
