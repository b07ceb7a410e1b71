import Mathlib
import ProtocolCodegen.Proofs.Lowering.Forms
import ProtocolCodegen.Target.Go.Text

/-!
# Go: types as they are written

Every descriptor that lowering builds has a Go type.  A Go type can be read back from its text, as
long as the names in it are words.
-/

namespace ProtocolCodegen.Go

/-- A Go type. -/
inductive GoType where
  | name (text : String)
  | pointer (target : GoType)
  | slice (element : GoType)
  | dictionary (key value : GoType)
  deriving DecidableEq

/-- Whether a character is none that is written around names. -/
def isWordChar (c : Char) : Bool :=
  c != '*' && c != '[' && c != ']'

/-- A text that can be told apart from what is written around names. -/
def IsWord (text : String) : Prop :=
  text ≠ "" ∧ text.toList.all isWordChar = true

instance (text : String) : Decidable (IsWord text) :=
  inferInstanceAs (Decidable (_ ∧ _))

theorem IsWord.append {first second : String} (isWord : IsWord first) (isWord' : IsWord second) :
    IsWord (first ++ second) := by
  constructor
  · intro empty
    exact isWord.1 (String.append_eq_empty_iff.mp empty).1
  · rw [String.toList_append, List.all_append, isWord.2, isWord'.2]
    rfl

namespace GoType

/-- The type that stands for what Go cannot express. -/
def any : GoType :=
  .name profile.baseTypes.anyType

/-- How a type is written. -/
def text : GoType → String
  | .name text => text
  | .pointer target => "*" ++ target.text
  | .slice element => "[]" ++ element.text
  | .dictionary key value => "map[" ++ key.text ++ "]" ++ value.text

theorem toList_text_pointer (target : GoType) :
    (pointer target).text.toList = '*' :: target.text.toList := by
  rw [text, String.toList_append]
  rfl

theorem toList_text_slice (element : GoType) :
    (slice element).text.toList = '[' :: ']' :: element.text.toList := by
  rw [text, String.toList_append]
  rfl

theorem toList_text_dictionary (key value : GoType) :
    (dictionary key value).text.toList =
      'm' :: 'a' :: 'p' :: '[' :: (key.text.toList ++ ']' :: value.text.toList) := by
  simp only [text, String.toList_append, List.append_assoc]
  rfl

/-- All names in a type are words. -/
def HasWords : GoType → Prop
  | .name text => IsWord text
  | .pointer target => target.HasWords
  | .slice element => element.HasWords
  | .dictionary key value => key.HasWords ∧ value.HasWords

/-- The pointer to a type, unless its values can be nil or anything. -/
def pointerTo (type : GoType) : GoType :=
  if isNilable type.text || type.text == profile.baseTypes.anyType then type else .pointer type

theorem text_pointerTo (type : GoType) : type.pointerTo.text = Go.pointer type.text := by
  rw [pointerTo, Go.pointer]
  split <;> rfl

instance decidableHasWords : (type : GoType) → Decidable type.HasWords
  | .name text => inferInstanceAs (Decidable (IsWord text))
  | .pointer target => decidableHasWords target
  | .slice element => decidableHasWords element
  | .dictionary key value =>
      @instDecidableAnd _ _ (decidableHasWords key) (decidableHasWords value)

theorem HasWords.pointerTo {type : GoType} (words : type.HasWords) : type.pointerTo.HasWords := by
  rw [GoType.pointerTo]
  split <;> exact words

/-- A text that ends, or goes on behind a key. -/
def IsRest (rest : List Char) : Prop :=
  ∀ c ∈ rest.head?, c = ']'

theorem takeWhile_word {word : String} (isWord : IsWord word) {rest : List Char}
    (ends : IsRest rest) : (word.toList ++ rest).takeWhile isWordChar = word.toList := by
  rw [List.takeWhile_append_of_pos (List.all_eq_true.mp isWord.2)]
  cases rest with
  | nil => simp
  | cons c rest =>
      obtain rfl := ends c rfl
      simp [isWordChar]

/-- A word and what stands behind it can be read back. -/
theorem eq_name_of_text_append {word : String} (isWord : IsWord word) {type : GoType}
    (words : type.HasWords) {rest rest' : List Char} (ends : IsRest rest) (ends' : IsRest rest')
    (equal : word.toList ++ rest = type.text.toList ++ rest') :
    type = .name word ∧ rest = rest' := by
  have read := congrArg (List.takeWhile isWordChar) equal
  rw [takeWhile_word isWord ends] at read
  have nonempty : word.toList ≠ [] := fun empty => isWord.1 (String.toList_eq_nil_iff.mp empty)
  cases type with
  | name text =>
      obtain rfl := String.toList_inj.mp (read.trans (takeWhile_word words ends'))
      exact ⟨rfl, List.append_cancel_left equal⟩
  | pointer target =>
      rw [toList_text_pointer] at read
      exact absurd read nonempty
  | slice element =>
      rw [toList_text_slice] at read
      exact absurd read nonempty
  | dictionary key value =>
      rw [toList_text_dictionary] at read equal
      have word_eq : word.toList = ['m', 'a', 'p'] := read
      rw [word_eq] at equal
      have next : rest.head? = some '[' := by
        have behind := congrArg (List.drop 3) equal
        exact congrArg List.head? behind
      exact absurd (ends '[' next) (by decide)

theorem isRest_cons (rest : List Char) : IsRest (']' :: rest) := by
  intro c first
  exact (Option.some.inj first).symm

/-- A type and what stands behind it can be read back. -/
theorem text_append_injective {first second : GoType} (words : first.HasWords)
    (words' : second.HasWords) {rest rest' : List Char} (ends : IsRest rest) (ends' : IsRest rest')
    (equal : first.text.toList ++ rest = second.text.toList ++ rest') :
    first = second ∧ rest = rest' := by
  induction first generalizing second rest rest' with
  | name word =>
      obtain ⟨same, sameRest⟩ := eq_name_of_text_append words words' ends ends' equal
      exact ⟨same.symm, sameRest⟩
  | pointer target induction =>
      cases second with
      | name word =>
          obtain ⟨same, sameRest⟩ := eq_name_of_text_append words' words ends' ends equal.symm
          exact ⟨same, sameRest.symm⟩
      | pointer target' =>
          simp only [toList_text_pointer, List.cons_append, List.cons.injEq, true_and] at equal
          have inside : target'.HasWords := words'
          obtain ⟨rfl, sameRest⟩ := induction words inside ends ends' equal
          exact ⟨rfl, sameRest⟩
      | slice | dictionary =>
          simp [toList_text_pointer, toList_text_slice, toList_text_dictionary] at equal
  | slice element induction =>
      cases second with
      | name word =>
          obtain ⟨same, sameRest⟩ := eq_name_of_text_append words' words ends' ends equal.symm
          exact ⟨same, sameRest.symm⟩
      | slice element' =>
          simp only [toList_text_slice, List.cons_append, List.cons.injEq, true_and] at equal
          have inside : element'.HasWords := words'
          obtain ⟨rfl, sameRest⟩ := induction words inside ends ends' equal
          exact ⟨rfl, sameRest⟩
      | pointer | dictionary =>
          simp [toList_text_pointer, toList_text_slice, toList_text_dictionary] at equal
  | dictionary key value inductionKey inductionValue =>
      cases second with
      | name word =>
          obtain ⟨same, sameRest⟩ := eq_name_of_text_append words' words ends' ends equal.symm
          exact ⟨same, sameRest.symm⟩
      | dictionary key' value' =>
          simp only [toList_text_dictionary, List.cons_append, List.append_assoc, List.cons.injEq,
            true_and] at equal
          obtain ⟨rfl, behind⟩ :=
            inductionKey words.1 words'.1 (isRest_cons _) (isRest_cons _) equal
          obtain ⟨rfl, sameRest⟩ :=
            inductionValue words.2 words'.2 ends ends' (List.cons.inj behind).2
          exact ⟨rfl, sameRest⟩
      | pointer | slice =>
          simp [toList_text_pointer, toList_text_slice, toList_text_dictionary] at equal

/-- Types with words for names are written alike only if they are the same. -/
theorem text_injective {first second : GoType} (words : first.HasWords)
    (words' : second.HasWords) (equal : first.text = second.text) : first = second := by
  have ends : IsRest [] := fun c first => by cases first
  exact (text_append_injective words words' ends ends (by rw [equal])).1

end GoType

/-- The Go type of a descriptor. -/
def goType : Descriptor → GoType
  | ⟨.optional, _, _, inner :: _, _⟩ => (goType inner).pointerTo
  | ⟨.array, _, _, element :: _, _⟩ => .slice (goType element)
  | ⟨.map, _, _, [key, value], _⟩ => .dictionary (goType key) (goType value)
  | ⟨.scalar, _, some .object, _, _⟩ => .dictionary (.name "string") .any
  | ⟨.scalar, _, some .array, _, _⟩ => .slice .any
  | ⟨_, name, _, _, _⟩ => if name = "" then .any else .name name

/-- A lowerer for Go, whatever types are overridden. -/
structure IsForGo (lowerer : Lowerer) : Prop where
  bases : lowerer.profile.baseTypes = profile.baseTypes
  naming : lowerer.profile.naming = profile.naming
  keys : lowerer.profile.scalarMapKeys = false
  mapArrays : lowerer.profile.wrapsMapArrays = false
  collections : lowerer.profile.wrapsUnionCollections = false

section Lowered

variable {lowerer : Lowerer} (forGo : IsForGo lowerer)

include forGo

theorem mapKey_eq (key : Descriptor) : lowerer.mapKey key = key := by
  simp [Lowerer.mapKey, forGo.keys]

theorem typeText_scalar (category : Category) :
    typeText (lowerer.scalar category) = .ok (goType (lowerer.scalar category)).text := by
  rw [Lowerer.scalar, forGo.bases]
  cases category <;> rfl

/-- Every descriptor that lowering builds is written as its Go type. -/
theorem typeText_of_builds {descriptor : Descriptor} (built : lowerer.Builds descriptor) :
    typeText descriptor = .ok (goType descriptor).text := by
  induction built with
  | scalar category => exact typeText_scalar forGo category
  | constant value => exact typeText_scalar forGo .string
  | anything =>
      rw [Lowerer.anything, forGo.bases]
      rfl
  | named name | union name | wrapper name =>
      simp only [Descriptor.ofName, typeText, goType]
      split <;> rfl
  | array built induction =>
      rw [Descriptor.array, Descriptor.ofArguments, typeText, induction]
      rfl
  | optional built induction =>
      rw [Descriptor.optional, Descriptor.ofArguments, typeText, induction, goType,
        GoType.text_pointerTo]
      rfl
  | map builtKey builtValue inductionKey inductionValue =>
      rw [mapKey_eq forGo, Descriptor.map, Descriptor.ofArguments, typeText, inductionKey,
        inductionValue]
      rfl

end Lowered

end ProtocolCodegen.Go
