import Mathlib
import ProtocolCodegen.Text.Lines

/-!
# Words of a written text

A text falls into words at the characters that cannot stand in one.  Where a text is put together,
its words are those of the parts, as long as separators stand at the seams.
-/

namespace ProtocolCodegen.Text

/-- How a text falls into words, and which of its words are looked at. -/
structure Lexis where
  /-- The characters of words; all others separate words. -/
  isPart : Char → Bool
  /-- The words that are looked at. -/
  isNoted : List Char → Bool
  /-- No word goes beyond a line. -/
  lineFeed : isPart '\n' = false
  /-- The empty word between two separators is none. -/
  empty : isNoted [] = false

namespace Lexis

variable (lexis : Lexis)

/-- A character separates words. -/
def isSeparator (c : Char) : Bool :=
  !lexis.isPart c

/-- The words of a text that are looked at. -/
def noted (text : List Char) : List String :=
  ((text.splitOnP lexis.isSeparator).filter lexis.isNoted).map String.ofList

/-- The words of a string that are looked at. -/
def words (text : String) : List String :=
  lexis.noted text.toList

/-- The words of a part that begins a text and ends with a separator. -/
def wordsOfStart? (part : List Char) : Option (List String) :=
  if part.getLast?.any lexis.isSeparator then some (lexis.noted part) else none

/-- The words of a part that ends a text and begins with a separator. -/
def wordsOfEnd? (part : List Char) : Option (List String) :=
  if part.head?.any lexis.isSeparator then some (lexis.noted part) else none

/-- The words of a part within a text that begins and ends with separators. -/
def wordsOfSeam? (part : List Char) : Option (List String) :=
  if part.head?.any lexis.isSeparator then lexis.wordsOfStart? part else none

/-- Something is told of all words of a text that are looked at. -/
def Tells (told : String → Prop) (text : String) : Prop :=
  ∀ word ∈ lexis.words text, told word

variable {lexis}

theorem noted_append_cons {c : Char} (separates : lexis.isSeparator c = true)
    (first second : List Char) :
    lexis.noted (first ++ c :: second) = lexis.noted first ++ lexis.noted second := by
  rw [noted, List.splitOnP_append_cons first second separates, List.filter_append,
    List.map_append]
  rfl

theorem words_empty : lexis.words "" = [] := by
  simp [words, noted, lexis.empty]

theorem words_unlines (lines : List String) :
    lexis.words (unlines lines) = lines.flatMap lexis.words := by
  induction lines with
  | nil => exact words_empty
  | cons line rest induction =>
      have separates : lexis.isSeparator '\n' = true := by simp [isSeparator, lexis.lineFeed]
      have closed :
          (unlines (line :: rest)).toList = line.toList ++ '\n' :: (unlines rest).toList := by
        simp [unlines, String.join_cons]
      rw [List.flatMap_cons, ← induction, words, closed, noted_append_cons separates]
      rfl

theorem mem_words_unlines {lines : List String} {line word : String} (listed : line ∈ lines)
    (stands : word ∈ lexis.words line) : word ∈ lexis.words (unlines lines) := by
  rw [words_unlines]
  exact List.mem_flatMap_of_mem listed stands

/-! ## Parts of a text -/

section Parts

variable {before after : String} {part : List Char} {names : List String}

/-- Where a part begins with a separator, no word goes on in it. -/
theorem words_append (opens : after.toList.head?.any lexis.isSeparator = true) :
    lexis.words (before ++ after) = lexis.words before ++ lexis.words after := by
  obtain ⟨c, first, separates⟩ := Option.any_eq_true _ _ |>.mp opens
  obtain ⟨rest, split⟩ := List.head?_eq_some_iff.mp first
  have later : lexis.noted (c :: rest) = lexis.noted rest := by
    rw [← List.nil_append (c :: rest), noted_append_cons separates]
    exact congrArg (· ++ lexis.noted rest) words_empty
  rw [words, String.toList_append, split, noted_append_cons separates, words, words, split, later]

theorem words_part (read : lexis.noted part = names) :
    lexis.words (String.ofList part) = names := by
  rwa [words, String.toList_ofList]

theorem words_start (read : lexis.wordsOfStart? part = some names) :
    lexis.words (String.ofList part ++ after) = names ++ lexis.words after := by
  obtain ⟨closes, same⟩ := Option.ite_none_right_eq_some.mp read
  obtain ⟨c, last, separates⟩ := Option.any_eq_true _ _ |>.mp closes
  obtain ⟨front, rfl⟩ := List.getLast?_eq_some_iff.mp last
  have early : names = lexis.noted front := by
    rw [← Option.some.inj same, noted_append_cons separates]
    exact (congrArg (lexis.noted front ++ ·) words_empty).trans (List.append_nil _)
  rw [words, String.toList_append, String.toList_ofList, List.append_assoc,
    List.singleton_append, noted_append_cons separates, early, words]

theorem mem_words_start_iff {word : String} (read : lexis.wordsOfStart? part = some names) :
    word ∈ lexis.words (String.ofList part ++ after) ↔ word ∈ names ∨ word ∈ lexis.words after := by
  rw [words_start read, List.mem_append]

theorem words_stop (read : lexis.wordsOfEnd? part = some names) :
    lexis.words (before ++ String.ofList part) = lexis.words before ++ names := by
  obtain ⟨opens, same⟩ := Option.ite_none_right_eq_some.mp read
  rw [words_append (by rwa [String.toList_ofList]), words_part (Option.some.inj same)]

theorem words_fill (read : lexis.wordsOfSeam? part = some names) :
    lexis.words (before ++ String.ofList part ++ after) =
      lexis.words before ++ (names ++ lexis.words after) := by
  obtain ⟨opens, read⟩ := Option.ite_none_right_eq_some.mp read
  rw [String.append_assoc, words_append, words_start read]
  cases part with
  | nil => cases opens
  | cons c rest => rwa [String.toList_append, String.toList_ofList, List.cons_append]

theorem mem_words_fill_iff {word : String} (read : lexis.wordsOfSeam? part = some names) :
    word ∈ lexis.words (before ++ String.ofList part ++ after) ↔
      word ∈ lexis.words before ∨ word ∈ names ∨ word ∈ lexis.words after := by
  rw [words_fill read, List.mem_append, List.mem_append]

end Parts

/-! ## What is told of the words -/

section Told

variable {told : String → Prop} {before after : String} {part : List Char} {names : List String}

theorem tells_unlines {lines : List String} (each : ∀ line ∈ lines, lexis.Tells told line) :
    lexis.Tells told (unlines lines) := by
  rw [Tells, words_unlines, List.forall_mem_flatMap]
  exact each

theorem tells_part (read : lexis.noted part = names) (own : ∀ name ∈ names, told name) :
    lexis.Tells told (String.ofList part) := by
  rwa [Tells, words_part read]

theorem quiet : ∀ name ∈ ([] : List String), told name :=
  List.forall_mem_nil _

/-- Nothing is told of a part without words that are looked at. -/
theorem tells_plain (read : lexis.noted part = []) : lexis.Tells told (String.ofList part) :=
  tells_part read quiet

theorem Tells.start (read : lexis.wordsOfStart? part = some names)
    (own : ∀ name ∈ names, told name) (tells : lexis.Tells told after) :
    lexis.Tells told (String.ofList part ++ after) := by
  rw [Tells, words_start read, List.forall_mem_append]
  exact ⟨own, tells⟩

theorem Tells.stop (tells : lexis.Tells told before) (read : lexis.wordsOfEnd? part = some names)
    (own : ∀ name ∈ names, told name) : lexis.Tells told (before ++ String.ofList part) := by
  rw [Tells, words_stop read, List.forall_mem_append]
  exact ⟨tells, own⟩

theorem Tells.fill (tells : lexis.Tells told before) (read : lexis.wordsOfSeam? part = some names)
    (own : ∀ name ∈ names, told name) (tells' : lexis.Tells told after) :
    lexis.Tells told (before ++ String.ofList part ++ after) := by
  rw [Tells, words_fill read, List.forall_mem_append, List.forall_mem_append]
  exact ⟨tells, own, tells'⟩

section Edge

variable {edge : String} (tells : lexis.Tells told (before ++ edge))
  (split : edge.toList = part.takeWhile lexis.isPart)

include tells split

/-- The last word of a text can go on in the part behind it. -/
theorem Tells.stopWord (read : lexis.wordsOfEnd? (part.dropWhile lexis.isPart) = some names)
    (own : ∀ name ∈ names, told name) : lexis.Tells told (before ++ String.ofList part) := by
  have joined : String.ofList part = edge ++ String.ofList (part.dropWhile lexis.isPart) := by
    rw [← String.toList_inj, String.toList_append, String.toList_ofList, String.toList_ofList,
      split, List.takeWhile_append_dropWhile]
  rw [joined, ← String.append_assoc]
  exact tells.stop read own

theorem Tells.fillWord (read : lexis.wordsOfSeam? (part.dropWhile lexis.isPart) = some names)
    (own : ∀ name ∈ names, told name) (tells' : lexis.Tells told after) :
    lexis.Tells told (before ++ String.ofList part ++ after) := by
  have joined : String.ofList part = edge ++ String.ofList (part.dropWhile lexis.isPart) := by
    rw [← String.toList_inj, String.toList_append, String.toList_ofList, String.toList_ofList,
      split, List.takeWhile_append_dropWhile]
  rw [joined, ← String.append_assoc]
  exact tells.fill read own tells'

end Edge

theorem tells_intercalate (read : lexis.wordsOfSeam? part = some names)
    (own : ∀ name ∈ names, told name) {texts : List String}
    (each : ∀ text ∈ texts, lexis.Tells told text) :
    lexis.Tells told (String.intercalate (String.ofList part) texts) := by
  induction texts with
  | nil =>
      rw [String.intercalate_nil, Tells, words_empty]
      exact quiet
  | cons text rest induction =>
      rw [List.forall_mem_cons] at each
      cases rest with
      | nil =>
          rw [String.intercalate_singleton]
          exact each.1
      | cons next others =>
          rw [String.intercalate_cons_cons]
          exact .fill each.1 read own (induction each.2)

/-- A single word that is not looked at. -/
theorem tells_of_word {text : String} (all : ∀ c ∈ text.toList, lexis.isPart c = true)
    (plain : lexis.isNoted text.toList = false) : lexis.Tells told text := by
  have single : text.toList.splitOnP lexis.isSeparator = [text.toList] :=
    List.splitOnP_eq_singleton fun c listed => by simp [isSeparator, all c listed]
  rw [Tells, words, noted, single, List.filter_singleton, plain]
  exact quiet

end Told

end Lexis

end ProtocolCodegen.Text
