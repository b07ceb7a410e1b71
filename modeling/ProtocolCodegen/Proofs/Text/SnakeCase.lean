import Mathlib
import ProtocolCodegen.Name

/-!
# Words joined by underscores

Within ASCII letters and digits, joining the words of a name by underscores loses nothing but the
case of the first letter: raising every letter behind an underscore gives the other letters back.  A
name in capitals alone counts as one word, and is joined like the name that has one capital.
-/

namespace ProtocolCodegen.Name

open Text

/-- A text in which every underscore and the character behind it are replaced by the upper case of
this character. -/
def camelChars : List Char → List Char
  | [] => []
  | [c] => [c]
  | c :: d :: rest =>
      if c = '_' then upperChar d ++ camelChars rest else c :: camelChars (d :: rest)

/-- A name whose words begin with capitals instead of underscores. -/
def camelCase (name : String) : String :=
  String.ofList (camelChars name.toList)

/-- A character of some kind before ASCII letters and digits. -/
def isWordAfter (front : Char → Bool) (name : String) : Bool :=
  match name.toList with
  | [] => false
  | c :: rest => front c && rest.all Char.isAlphanum

/-- A small ASCII letter before ASCII letters and digits. -/
def isLowerCamel (name : String) : Bool :=
  isWordAfter Char.isLower name

/-- An ASCII capital before ASCII letters and digits. -/
def isUpperCamel (name : String) : Bool :=
  isWordAfter Char.isUpper name

/-- A text in capitals alone as one word, of which only the first letter is a capital; another text
as it is. -/
def asWord (text : List Char) : List Char :=
  if isAllCapitals text then text.take 1 ++ lower (text.drop 1) else text

theorem exists_toList_of_isWordAfter {front : Char → Bool} {name : String}
    (word : isWordAfter front name = true) :
    ∃ c rest, name.toList = c :: rest ∧ front c = true ∧ rest.all Char.isAlphanum = true := by
  rw [isWordAfter] at word
  cases chars : name.toList with
  | nil => simp [chars] at word
  | cons c rest =>
      simp only [chars, Bool.and_eq_true] at word
      exact ⟨c, rest, rfl, word⟩

/-! ## ASCII letters and digits -/

section Characters

variable {c : Char}

theorem toNat_lt_of_isAlphanum (plain : c.isAlphanum = true) : c.toNat < 128 := by
  simp only [Char.isAlphanum, Char.isAlpha, Char.isUpper, Char.isLower, Char.isDigit,
    Bool.or_eq_true, Bool.and_eq_true, decide_eq_true_eq, UInt32.le_iff_toNat_le] at plain
  have code : c.toNat = c.val.toNat := rfl
  have last : 'Z'.val.toNat = 90 ∧ 'z'.val.toNat = 122 ∧ '9'.val.toNat = 57 := ⟨rfl, rfl, rfl⟩
  omega

theorem isAlphanum_of_isUpper (capital : c.isUpper = true) : c.isAlphanum = true := by
  simp [Char.isAlphanum, Char.isAlpha, capital]

theorem isAlphanum_of_isLower (small : c.isLower = true) : c.isAlphanum = true := by
  simp [Char.isAlphanum, Char.isAlpha, small]

theorem ne_underscore_of_isAlphanum (plain : c.isAlphanum = true) : c ≠ '_' := by
  rintro rfl
  exact absurd plain (by decide)

theorem isUppercase_of_isAlphanum (plain : c.isAlphanum = true) : isUppercase c = c.isUpper :=
  isUppercase_of_ascii (toNat_lt_of_isAlphanum plain)

theorem isAlphanum_toLower (plain : c.isAlphanum = true) : c.toLower.isAlphanum = true := by
  by_cases capital : c.isUpper = true
  · simp [Char.isAlphanum, Char.isAlpha, capital]
  · rwa [Char.toLower_eq_of_not_isUpper capital]

theorem upperChar_toLower (capital : c.isUpper = true) : upperChar c.toLower = [c] := by
  have ascii := toNat_lt_of_isAlphanum (isAlphanum_toLower (isAlphanum_of_isUpper capital))
  rw [upperChar_of_ascii ascii, Char.toUpper_toLower_eq_toUpper,
    Char.toUpper_eq_of_not_isLower (Char.not_isLower_of_isUpper capital)]

theorem lowerCapital_of_isAlphanum (plain : c.isAlphanum = true) : lowerCapital c = [c.toLower] := by
  rw [lowerCapital, isUppercase_of_isAlphanum plain,
    lowerChar_of_ascii (toNat_lt_of_isAlphanum plain)]
  split
  · rfl
  · rename_i capital
    rw [Char.toLower_eq_of_not_isUpper capital]

end Characters

/-! ## Joined words -/

variable {text : List Char}

theorem joinWords_append {mapChar : Char → List Char} {atFront : Bool} {first : List Char}
    (second : List Char) (nonempty : first ≠ []) :
    joinWords mapChar atFront (first ++ second) =
      joinWords mapChar atFront first ++ joinWords mapChar false second := by
  induction first generalizing atFront with
  | nil => exact absurd rfl nonempty
  | cons c rest induction =>
      cases rest with
      | nil => simp [joinWords]
      | cons d rest =>
          have later : joinWords mapChar false (d :: rest ++ second) =
              joinWords mapChar false (d :: rest) ++ joinWords mapChar false second :=
            induction (List.cons_ne_nil d rest)
          rw [List.cons_append, joinWords, joinWords, later]
          simp only [List.append_assoc]

theorem camelChars_cons {c : Char} (other : c ≠ '_') (rest : List Char) :
    camelChars (c :: rest) = c :: camelChars rest := by
  cases rest with
  | nil => rfl
  | cons d rest => rw [camelChars, if_neg other]

theorem camelChars_joinWords (plain : text.all Char.isAlphanum = true) :
    camelChars (joinWords lowerCapital false text) = text := by
  induction text with
  | nil => rfl
  | cons c rest induction =>
      obtain ⟨plainFront, plainRest⟩ := Bool.and_eq_true_iff.mp (List.all_cons ▸ plain)
      rw [joinWords, lowerCapital_of_isAlphanum plainFront, isUppercase_of_isAlphanum plainFront]
      -- A capital becomes an underscore and a small letter, which are read together.
      cases capital : c.isUpper with
      | true =>
          simp only [Bool.not_false, Bool.and_self, if_true, List.cons_append, List.nil_append]
          rw [camelChars, if_pos rfl, upperChar_toLower capital, induction plainRest]
          rfl
      | false =>
          have small : c.toLower = c := Char.toLower_eq_of_not_isUpper (by simp [capital])
          simp only [Bool.false_and, Bool.false_eq_true, if_false, List.nil_append,
            List.singleton_append, small]
          rw [camelChars_cons (ne_underscore_of_isAlphanum plainFront), induction plainRest]

theorem camelChars_joinWords_cons {c : Char} {rest : List Char}
    (plainFront : c.isAlphanum = true) (plainRest : rest.all Char.isAlphanum = true) :
    camelChars (joinWords lowerCapital true (c :: rest)) = c.toLower :: rest := by
  have other := ne_underscore_of_isAlphanum (isAlphanum_toLower plainFront)
  rw [joinWords, lowerCapital_of_isAlphanum plainFront, Bool.not_true, Bool.and_false]
  simp only [Bool.false_eq_true, if_false, List.nil_append, List.singleton_append]
  rw [camelChars_cons other, camelChars_joinWords plainRest]

theorem joinWords_of_no_capital {atFront : Bool} (small : ∀ c ∈ text, isUppercase c = false) :
    joinWords lowerCapital atFront text = text := by
  induction text generalizing atFront with
  | nil => rfl
  | cons c rest induction =>
      rw [joinWords, induction fun d listed => small d (List.mem_cons_of_mem c listed)]
      simp [lowerCapital, small c List.mem_cons_self]

theorem lowerAfter_of_isAlphanum (before : List Char) (plain : text.all Char.isAlphanum = true) :
    lowerAfter before text = text.map Char.toLower := by
  induction text generalizing before with
  | nil => rfl
  | cons c rest induction =>
      obtain ⟨plainFront, plainRest⟩ := Bool.and_eq_true_iff.mp (List.all_cons ▸ plain)
      have other : c ≠ 'Σ' := by
        rintro rfl
        exact absurd plainFront (by decide)
      rw [lowerAfter, if_neg other, lowerChar_of_ascii (toNat_lt_of_isAlphanum plainFront),
        induction _ plainRest]
      rfl

theorem lower_of_isAlphanum (plain : text.all Char.isAlphanum = true) :
    lower text = text.map Char.toLower :=
  lowerAfter_of_isAlphanum [] plain

/-! ## Names that begin with a small letter -/

theorem isAllCapitals_of_isLower {c : Char} {rest : List Char} (small : c.isLower = true) :
    isAllCapitals (c :: rest) = false := by
  have plain := isAlphanum_of_isLower small
  have ascii := toNat_lt_of_isAlphanum plain
  simp [isAllCapitals, isLetter_of_ascii ascii, isUppercase_of_ascii ascii, Char.isAlpha, small,
    Char.not_isUpper_of_isLower small]

/-- Raising the letters behind underscores gives a name back that begins with a small letter. -/
theorem camelCase_snakeCase {name : String} (camel : isLowerCamel name = true) :
    camelCase (snakeCase name) = name := by
  obtain ⟨c, rest, chars, small, plain⟩ := exists_toList_of_isWordAfter camel
  have plainFront := isAlphanum_of_isLower small
  have kept : c.toLower = c :=
    Char.toLower_eq_of_not_isUpper (Char.not_isUpper_of_isLower small)
  rw [camelCase, snakeCase, String.toList_ofList, chars, snakeChars,
    isAllCapitals_of_isLower small]
  simp only [Bool.false_eq_true, if_false]
  rw [camelChars_joinWords_cons plainFront plain, kept, ← chars, String.ofList_toList]

/-- Different names that begin with a small letter stay different. -/
theorem snakeCase_injOn {first second : String} (camel : isLowerCamel first = true)
    (camel' : isLowerCamel second = true) (same : snakeCase first = snakeCase second) :
    first = second := by
  rw [← camelCase_snakeCase camel, same, camelCase_snakeCase camel']

/-! ## Names that begin with a capital -/

/-- Joining the words of two names gives the same exactly for the same names. -/
theorem joinWords_inj {c d : Char} {first second : List Char} (capital : c.isUpper = true)
    (capital' : d.isUpper = true) (plain : first.all Char.isAlphanum = true)
    (plain' : second.all Char.isAlphanum = true) :
    joinWords lowerCapital true (c :: first) = joinWords lowerCapital true (d :: second) ↔
      c :: first = d :: second := by
  have plainFront := isAlphanum_of_isUpper capital
  have plainFront' := isAlphanum_of_isUpper capital'
  refine ⟨fun same => ?_, congrArg _⟩
  -- Raising gives all letters back but the front ones, which are then raised by themselves.
  have raised := congrArg camelChars same
  rw [camelChars_joinWords_cons plainFront plain, camelChars_joinWords_cons plainFront' plain',
    List.cons.injEq] at raised
  have front : [c] = [d] := by
    rw [← upperChar_toLower capital, raised.1, upperChar_toLower capital']
  rw [List.cons.inj front |>.1, raised.2]

theorem exists_asWord {c : Char} {rest : List Char} (plain : rest.all Char.isAlphanum = true) :
    ∃ behind, asWord (c :: rest) = c :: behind ∧ behind.all Char.isAlphanum = true := by
  rw [asWord]
  split
  · refine ⟨rest.map Char.toLower, ?_, ?_⟩
    · rw [List.drop_one, List.tail_cons, lower_of_isAlphanum plain]
      rfl
    · rw [List.all_map, List.all_eq_true]
      exact fun d listed => isAlphanum_toLower (List.all_eq_true.mp plain d listed)
  · exact ⟨rest, rfl, plain⟩

theorem snakeChars_of_isUpper {c : Char} {rest : List Char} (capital : c.isUpper = true)
    (plain : rest.all Char.isAlphanum = true) :
    snakeChars (c :: rest) = joinWords lowerCapital true (asWord (c :: rest)) := by
  have plainFront := isAlphanum_of_isUpper capital
  rw [snakeChars, asWord]
  split
  · have small : ∀ d ∈ rest.map Char.toLower, isUppercase d = false := by
      intro d listed
      obtain ⟨e, among, rfl⟩ := List.mem_map.mp listed
      rw [isUppercase_of_isAlphanum (isAlphanum_toLower (List.all_eq_true.mp plain e among)),
        Char.isUpper_toLower_eq_false]
    rw [lower_of_isAlphanum (by simp [plainFront, plain]), List.drop_one, List.tail_cons,
      lower_of_isAlphanum plain]
    simp [joinWords, lowerCapital_of_isAlphanum plainFront, joinWords_of_no_capital small]
  · rfl

end ProtocolCodegen.Name
