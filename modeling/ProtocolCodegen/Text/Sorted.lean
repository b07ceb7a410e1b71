/-!
# Sorted texts

Texts are ordered by code point.  Sorting is stable, so of items with equal keys the first one stays
first.
-/

namespace ProtocolCodegen.Text

/-- Texts in order. -/
def sorted (texts : List String) : List String :=
  texts.mergeSort fun first second => decide (first ≤ second)

/-- Items in the order of their keys. -/
def sortedBy {α : Type} (key : α → String) (items : List α) : List α :=
  items.mergeSort fun first second => decide (key first ≤ key second)

/-- The different texts of a list in order. -/
def sortedSet (texts : List String) : List String :=
  sorted texts.eraseDups

/-- Items of which an earlier one has the same key are left out; `seen` holds the earlier keys. -/
def distinctByFrom {α : Type} (key : α → String) (seen : List String) : List α → List α
  | [] => []
  | item :: rest =>
      if key item ∈ seen then distinctByFrom key seen rest
      else item :: distinctByFrom key (key item :: seen) rest

/-- The first item of each key. -/
def distinctBy {α : Type} (key : α → String) (items : List α) : List α :=
  distinctByFrom key [] items

theorem sorted_perm (texts : List String) : (sorted texts).Perm texts :=
  List.mergeSort_perm texts _

theorem sortedBy_perm {α : Type} (key : α → String) (items : List α) :
    (sortedBy key items).Perm items :=
  List.mergeSort_perm items _

@[simp]
theorem mem_sorted {text : String} {texts : List String} : text ∈ sorted texts ↔ text ∈ texts :=
  (sorted_perm texts).mem_iff

@[simp]
theorem mem_sortedSet {text : String} {texts : List String} :
    text ∈ sortedSet texts ↔ text ∈ texts := by
  simp [sortedSet]

end ProtocolCodegen.Text
