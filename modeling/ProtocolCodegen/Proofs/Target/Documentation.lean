import Mathlib
import ProtocolCodegen.Target.Layout

/-!
# Paragraphs of a documentation

What holds of blank lines holds of all lines of a documentation as soon as it holds of the lines of
the description and of the two notes.
-/

namespace ProtocolCodegen.Layout

variable {holds : String → Prop}

theorem forall_addParagraph_iff (blank : holds "") (lines : List String) (paragraph : String) :
    (∀ line ∈ addParagraph lines paragraph, holds line) ↔
      (∀ line ∈ lines, holds line) ∧ holds paragraph := by
  cases lines with
  | nil => simp [addParagraph]
  | cons first rest => simp [addParagraph, or_imp, forall_and, blank, and_assoc]

theorem forall_addParagraph_if_iff (blank : holds "") (asked : Prop) [Decidable asked]
    (lines : List String) (paragraph : String) :
    (∀ line ∈ if asked then addParagraph lines paragraph else lines, holds line) ↔
      (∀ line ∈ lines, holds line) ∧ (asked → holds paragraph) := by
  by_cases given : asked
  · rw [if_pos given, forall_addParagraph_iff blank, imp_iff_right given]
  · rw [if_neg given, and_iff_left fun asked => absurd asked given]

theorem forall_docParagraphs_iff (blank : holds "")
    (mark documentation since deprecated : String) :
    (∀ line ∈ docParagraphs mark documentation since deprecated, holds line) ↔
      (∀ line ∈ Text.lines documentation, holds line) ∧
        (lacksSince documentation since = true → holds ("@since " ++ since)) ∧
        (deprecated ≠ "" → holds (mark ++ deprecated)) := by
  have described : (∀ line ∈ if documentation = "" then [] else Text.lines documentation,
      holds line) ↔ ∀ line ∈ Text.lines documentation, holds line := by
    split
    · rename_i none
      simpa [none, Text.lines, Text.splitOn] using blank
    · exact Iff.rfl
  rw [docParagraphs, ← ite_not, forall_addParagraph_if_iff blank, forall_addParagraph_if_iff blank,
    described, and_assoc]

end ProtocolCodegen.Layout
