import Mathlib
import ProtocolCodegen.Json.Reader
import ProtocolCodegen.Proofs.Target.Go.Written

/-!
# Go: what string literals denote

An interpreted string literal of Go denotes a sequence of bytes.  Its escapes are those of JSON and
more, but an escape of four digits stands for a code point, not for a UTF-16 unit, so that half a
surrogate pair is no escape.  The literals that are written denote the UTF-8 form of their texts as
long as these keep to the code points of four digits, and otherwise are none.
-/

namespace ProtocolCodegen.Go

open Outline

/-! ## Reading literals -/

/-- The escapes of one letter or sign, with the bytes for which they stand. -/
def shortEscapes : List (Char × UInt8) := [
  ('a', 0x07), ('b', 0x08), ('f', 0x0C), ('n', 0x0A), ('r', 0x0D), ('t', 0x09), ('v', 0x0B),
  ('\\', 0x5C), ('"', 0x22)]

/-- What the number of an escape stands for. -/
inductive NumberKind where
  /-- A byte, written in a base. -/
  | byte (base : Nat)
  /-- A code point, written in hexadecimal digits. -/
  | codePoint
  deriving DecidableEq, Repr

/-- The base in which the number of an escape is written. -/
def NumberKind.base : NumberKind → Nat
  | .byte base => base
  | .codePoint => 16

/-- The bytes for which the number of an escape stands: a byte has to be small enough, and a code
point must not be half of a surrogate pair. -/
def NumberKind.bytes? : NumberKind → Nat → Option (List UInt8)
  | .byte _, number => if number < 0x100 then some [number.toUInt8] else none
  | .codePoint, number =>
      if number.isValidChar then some (String.utf8EncodeChar (Char.ofNat number)) else none

/-- How far a string literal has been read; the bytes are those of what has been read. -/
inductive LiteralState where
  /-- Nothing has been read. -/
  | start
  /-- Between the quotes, outside of escapes. -/
  | inside (bytes : List UInt8)
  /-- Behind the backslash of an escape. -/
  | escape (bytes : List UInt8)
  /-- Before a digit of an escape and a number of further ones; the digits before it make up a
  number. -/
  | digit (bytes : List UInt8) (kind : NumberKind) (further number : Nat)
  /-- Behind the closing quote. -/
  | closed (bytes : List UInt8)
  /-- What has been read is the beginning of no literal. -/
  | failed
  deriving DecidableEq, Repr

namespace LiteralState

/-- The state after a digit of an escape. -/
def afterDigit (bytes : List UInt8) (kind : NumberKind) (further number : Nat) (c : Char) :
    LiteralState :=
  match (Json.Reader.hexValue? c).filter (· < kind.base) with
  | none => failed
  | some value =>
      let number := number * kind.base + value
      match further with
      | further + 1 => digit bytes kind further number
      | 0 =>
          match kind.bytes? number with
          | some more => inside (bytes ++ more)
          | none => failed

/-- The state after the character behind a backslash; an octal digit is the first of three. -/
def afterBackslash (bytes : List UInt8) (c : Char) : LiteralState :=
  match shortEscapes.lookup c with
  | some byte => inside (bytes ++ [byte])
  | none =>
      if c = 'x' then digit bytes (.byte 16) 1 0
      else if c = 'u' then digit bytes .codePoint 3 0
      else if c = 'U' then digit bytes .codePoint 7 0
      else afterDigit bytes (.byte 8) 2 0 c

/-- The state after a character. -/
def step : LiteralState → Char → LiteralState
  | start, c => if c = '"' then inside [] else failed
  | inside bytes, c =>
      if c = '"' then closed bytes
      else if c = '\\' then escape bytes
      else if c = '\n' then failed
      else inside (bytes ++ String.utf8EncodeChar c)
  | escape bytes, c => afterBackslash bytes c
  | digit bytes kind further number, c => afterDigit bytes kind further number c
  | closed _, _ => failed
  | failed, _ => failed

/-- The bytes of a literal that has been read to its end. -/
def value? : LiteralState → Option (List UInt8)
  | closed bytes => some bytes
  | _ => none

theorem foldl_failed (input : List Char) : input.foldl step failed = failed := by
  induction input with
  | nil => rfl
  | cons c rest induction => exact induction

end LiteralState

/-- The bytes that a string literal denotes, if a text is one. -/
def literalBytes? (text : String) : Option (List UInt8) :=
  (text.toList.foldl LiteralState.step .start).value?

example : literalBytes? "\"a\\x41\\101\\u00e9\\n\"" =
    some [0x61, 0x41, 0x41, 0xC3, 0xA9, 0x0A] := by decide
example : literalBytes? "\"\\U0001f600\"" = some [0xF0, 0x9F, 0x98, 0x80] := by decide
example : literalBytes? "\"\\ud83d\"" = none ∧ literalBytes? "\"\\'\"" = none := by decide

/-! ## Numbers of escapes -/

theorem hexValue?_digitChar : ∀ value < 16,
    Json.Reader.hexValue? (Nat.digitChar value) = some value := by
  decide

open LiteralState

variable {bytes : List UInt8}

theorem afterDigit_digitChar {further number value : Nat} (digit : value < 16) :
    afterDigit bytes .codePoint further number (Nat.digitChar value) =
      match further with
      | further + 1 => .digit bytes .codePoint further (number * 16 + value)
      | 0 =>
          match NumberKind.codePoint.bytes? (number * 16 + value) with
          | some more => inside (bytes ++ more)
          | none => failed := by
  rw [afterDigit, hexValue?_digitChar value digit]
  simp only [NumberKind.base, Option.filter_some, digit, decide_true, if_true]

/-- All but the last digits of a code point are gathered. -/
theorem foldl_hexDigits {width number : Nat} (further total : Nat) (small : number < 16 ^ width) :
    (Text.hexDigits width number).foldl step (.digit bytes .codePoint (width + further) total) =
      .digit bytes .codePoint further (total * 16 ^ width + number) := by
  -- On the width: the last digit is read in the state in which the ones before it leave the reader.
  induction width generalizing number further with
  | zero =>
      obtain rfl : number = 0 := by simpa using small
      simp [Text.hexDigits]
  | succ width induction =>
      have small' : number / 16 < 16 ^ width := by
        rw [Nat.div_lt_iff_lt_mul (by decide), ← Nat.pow_succ]
        exact small
      have digit : number % 16 < 16 := Nat.mod_lt _ (by decide)
      have gathered : (total * 16 ^ width + number / 16) * 16 + number % 16 =
          total * 16 ^ (width + 1) + number := by
        rw [Nat.add_mul, Nat.mul_assoc, ← Nat.pow_succ, Nat.add_assoc, Nat.div_add_mod']
      rw [Text.hexDigits, List.foldl_append, Nat.add_right_comm, Nat.add_assoc,
        induction (further + 1) small', List.foldl_cons, List.foldl_nil, step,
        afterDigit_digitChar digit, ← gathered]

/-- An escape of a UTF-16 unit is one of the code point of the same number, if there is one. -/
theorem foldl_unitEscape {unit : Nat} (small : unit < 0x10000) :
    (Text.unitEscape unit).foldl step (inside bytes) =
      if unit.isValidChar then inside (bytes ++ String.utf8EncodeChar (Char.ofNat unit))
      else failed := by
  have digit : unit % 16 < 16 := Nat.mod_lt _ (by decide)
  have small' : unit / 16 < 16 ^ 3 := by omega
  have opened : (Text.unitEscape unit).foldl step (inside bytes) =
      (Text.hexDigits 3 (unit / 16) ++ [Nat.digitChar (unit % 16)]).foldl step
        (.digit bytes .codePoint 3 0) := rfl
  -- The digit that ends the escape is the only one at which the number is looked at.
  rw [opened, List.foldl_append, foldl_hexDigits 0 0 small', List.foldl_cons, List.foldl_nil,
    step, afterDigit_digitChar digit, Nat.zero_mul, Nat.zero_add, Nat.div_add_mod']
  by_cases valid : unit.isValidChar
  · simp only [NumberKind.bytes?, if_pos valid]
  · simp only [NumberKind.bytes?, if_neg valid]

/-! ## Characters -/

theorem step_inside_of_ne {c : Char} (quote : c ≠ '"') (backslash : c ≠ '\\')
    (line : c ≠ '\n') : step (inside bytes) c = inside (bytes ++ String.utf8EncodeChar c) := by
  rw [step, if_neg quote, if_neg backslash, if_neg line]

/-- A character of at most four hexadecimal digits is written as what stands for it. -/
theorem foldl_asciiQuotedChar {c : Char} (basic : c.toNat < 0x10000) :
    (Text.asciiQuotedChar c).foldl step (inside bytes) =
      inside (bytes ++ String.utf8EncodeChar c) := by
  have valid : c.toNat.isValidChar := c.valid
  unfold Text.asciiQuotedChar
  split_ifs with special line carriage tab back feed printable
  · rcases (by simpa using special : c = '"' ∨ c = '\\') with rfl | rfl <;> rfl
  · rw [line]
    rfl
  · rw [carriage]
    rfl
  · rw [tab]
    rfl
  · rw [back]
    rfl
  · rw [feed]
    rfl
  · obtain ⟨quote, backslash⟩ : c ≠ '"' ∧ c ≠ '\\' := by simpa using special
    exact step_inside_of_ne quote backslash line
  · rw [foldl_unitEscape basic, if_pos valid, Char.ofNat_toNat]

theorem asciiQuotedChar_of_le {c : Char} (astral : 0x10000 ≤ c.toNat) :
    Text.asciiQuotedChar c =
      Text.unitEscape (0xD800 + (c.toNat - 0x10000) / 0x400) ++
        Text.unitEscape (0xDC00 + (c.toNat - 0x10000) % 0x400) := by
  have other (basic : Char) (small : basic.toNat < 0x10000) : c ≠ basic := by
    rintro rfl
    exact absurd small (Nat.not_lt.mpr astral)
  have special : ¬ (c = '"' || c = '\\') = true := by
    simp [other '"' (by decide), other '\\' (by decide)]
  have printable : ¬ (0x20 ≤ c.toNat && c.toNat < 0x7F) = true := by
    simp only [Bool.and_eq_true, decide_eq_true_eq]
    omega
  rw [Text.asciiQuotedChar, if_neg special, if_neg (other '\n' (by decide)),
    if_neg (other '\r' (by decide)), if_neg (other '\t' (by decide)),
    if_neg (other '\x08' (by decide)), if_neg (other '\x0c' (by decide)), if_neg printable,
    if_neg (Nat.not_lt.mpr astral)]

/-- Any other character is written as two escapes, of which the first one stands for nothing. -/
theorem foldl_asciiQuotedChar_of_le {c : Char} (astral : 0x10000 ≤ c.toNat) :
    (Text.asciiQuotedChar c).foldl step (inside bytes) = failed := by
  have valid : c.toNat < 0xD800 ∨ (0xDFFF < c.toNat ∧ c.toNat < 0x110000) := c.valid
  have half : ¬ (0xD800 + (c.toNat - 0x10000) / 0x400).isValidChar := by
    unfold Nat.isValidChar
    omega
  rw [asciiQuotedChar_of_le astral, List.foldl_append, foldl_unitEscape (by omega), if_neg half,
    foldl_failed]

/-! ## Texts -/

/-- All characters of a text have code points of at most four hexadecimal digits. -/
def IsBasic (text : String) : Prop :=
  ∀ c ∈ text.toList, c.toNat < 0x10000

instance (text : String) : Decidable (IsBasic text) :=
  inferInstanceAs (Decidable (∀ c ∈ text.toList, c.toNat < 0x10000))

theorem foldl_flatMap_of_basic {text : List Char} (basic : ∀ c ∈ text, c.toNat < 0x10000) :
    (text.flatMap Text.asciiQuotedChar).foldl step (inside bytes) =
      inside (bytes ++ text.flatMap String.utf8EncodeChar) := by
  induction text generalizing bytes with
  | nil => simp
  | cons c rest induction =>
      obtain ⟨basic, basicRest⟩ := List.forall_mem_cons.mp basic
      rw [List.flatMap_cons, List.foldl_append, foldl_asciiQuotedChar basic, induction basicRest,
        List.flatMap_cons, List.append_assoc]

/-- Reading fails at the first character that is not basic. -/
theorem foldl_flatMap_of_not_basic {text : List Char}
    (astral : ¬ ∀ c ∈ text, c.toNat < 0x10000) :
    (text.flatMap Text.asciiQuotedChar).foldl step (inside bytes) = failed := by
  induction text generalizing bytes with
  | nil => simp at astral
  | cons c rest induction =>
      rw [List.flatMap_cons, List.foldl_append]
      by_cases basic : c.toNat < 0x10000
      · rw [foldl_asciiQuotedChar basic]
        exact induction fun basicRest => astral (List.forall_mem_cons.mpr ⟨basic, basicRest⟩)
      · rw [foldl_asciiQuotedChar_of_le (Nat.not_lt.mp basic), foldl_failed]

/-- The bytes that the literal for a text denotes: those of its UTF-8 form, if the text is basic. -/
def denotedBytes? (text : String) : Option (List UInt8) :=
  if IsBasic text then some text.toUTF8.data.toList else none

theorem toList_data_toUTF8 (text : String) :
    text.toUTF8.data.toList = text.toList.flatMap String.utf8EncodeChar := by
  rw [String.toUTF8_eq_toByteArray, ← String.utf8Encode_toList, List.utf8Encode,
    List.data_toByteArray]

theorem literalBytes?_stringLiteral (text : String) :
    literalBytes? (stringLiteral text) = denotedBytes? text := by
  have opened : literalBytes? (stringLiteral text) =
      ((text.toList.flatMap Text.asciiQuotedChar ++ ['"']).foldl step (inside [])).value? := by
    rw [literalBytes?, stringLiteral, Text.asciiQuoted, String.toList_ofList]
    rfl
  rw [opened, List.foldl_append, denotedBytes?, toList_data_toUTF8]
  by_cases basic : IsBasic text
  · rw [foldl_flatMap_of_basic basic, if_pos basic]
    rfl
  · rw [foldl_flatMap_of_not_basic basic, if_neg basic]
    rfl

/-! ## Constants -/

/-- A line gives a constant the literal for a text. -/
def Assigns (line text : String) : Prop :=
  ∃ start, line = start ++ " = " ++ stringLiteral text

/-- A text holds, one after the other, the lines of constants for the texts of items, each one
behind its comment. -/
def DeclaresEach {α : Type} (text : α → String) (items : List α) (written : String) : Prop :=
  ∃ before lines after, written = Text.unlines (before ++ lines.flatten ++ after) ∧
    List.Forall₂
      (fun item own => ∃ comment line, own = comment ++ [line] ∧ Assigns line (text item))
      items lines

/-- Lines among which there are lines of constants that are written for each item. -/
theorem declaresEach_unlines {α : Type} {text : α → String} {items : List α} {lines : List String}
    {own : α → List String} (shape : ∃ before after, lines = before ++ items.flatMap own ++ after)
    (each : ∀ item ∈ items, ∃ comment line, own item = comment ++ [line] ∧
      Assigns line (text item)) :
    DeclaresEach text items (Text.unlines lines) := by
  obtain ⟨before, after, rfl⟩ := shape
  exact ⟨before, items.map own, after, rfl,
    List.forall₂_map_right_iff.mpr (List.forall₂_same.mpr each)⟩

theorem declaresEach_enumText {declared : Outline.Enum}
    (texts : declared.category.isNumeric = false) :
    ∃ written, (enumText declared).result = .ok written ∧
      DeclaresEach (·.value.text) declared.members written := by
  have each : ∀ member ∈ declared.members, ∃ comment line,
      memberLines declared member = comment ++ [line] ∧ Assigns line member.value.text := by
    intro member _
    rw [memberLines, texts]
    exact ⟨_, _, rfl, _, rfl⟩
  refine ⟨_, rfl, declaresEach_unlines ?_ each⟩
  by_cases none : declared.members = []
  · rw [none]
    exact ⟨_, [], (List.append_nil _).symm⟩
  · rw [if_neg (by simpa using none), ← List.append_assoc, ← List.append_assoc]
    exact ⟨_, _, rfl⟩

theorem declaresEach_methodsText {config : Config} {methods : List Method} {written : String}
    (rendered : (methodsText config methods).result = .ok written) :
    DeclaresEach (·.method) methods written := by
  have each : ∀ method ∈ methods, ∃ comment line,
      [constantLine method] = comment ++ [line] ∧ Assigns line method.method :=
    fun method _ => ⟨[], _, rfl, _, rfl⟩
  obtain ⟨server, client, _, _, rfl⟩ := exists_interfaces rendered
  refine declaresEach_unlines ⟨["// LSP method names.", "const ("], [")"] ++
    interfaceLines "Server" "server" server ++ interfaceLines "Client" "client" client, ?_⟩ each
  simp only [List.map_eq_flatMap, List.append_assoc]

/-- The literals of Go denote their texts as long as these are basic, and otherwise are none; they
stand in the constants of an enumeration of strings and in the constants of methods.  The methods of
an outline that was analyzed are always written. -/
theorem stringLiteral_denotes (text : String) (declared : Outline.Enum) (config : Config)
    (methods : List Method) :
    literalBytes? (stringLiteral text) = denotedBytes? text ∧
    (declared.category.isNumeric = false →
      ∃ written, (enumText declared).result = .ok written ∧
        DeclaresEach (·.value.text) declared.members written) ∧
    (∀ written, (methodsText config methods).result = .ok written →
      DeclaresEach (·.method) methods written) ∧
    ∀ outline : Outline, outline.IsAnalyzed →
      ∃ written, (methodsText config outline.methods).result = .ok written ∧
        DeclaresEach (·.method) outline.methods written := by
  refine ⟨literalBytes?_stringLiteral text, declaresEach_enumText,
    fun _ => declaresEach_methodsText, fun outline analyzed => ?_⟩
  obtain ⟨written, rendered⟩ := succeeds_methodsText analyzed config
  exact ⟨written, rendered, declaresEach_methodsText rendered⟩

/-- A character that UTF-16 writes as two units is written as two escapes, which are no literal. -/
theorem literalBytes?_surrogate_pair :
    stringLiteral "😀" = "\"\\ud83d\\ude00\"" ∧ literalBytes? (stringLiteral "😀") = none := by
  decide

end ProtocolCodegen.Go
