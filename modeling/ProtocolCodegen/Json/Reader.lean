import ProtocolCodegen.Json.Basic
import ProtocolCodegen.Number.Numeral

/-!
# Reading data values

The reader of JSON documents.  Beside the numbers of the format it takes the names of the three
special floating-point numbers; of a repeated key the last value counts.  Control characters inside
a text, and any white space but space, tab and the two line ends, are refused.  Every function
returns what it read and the characters that follow.
-/

namespace ProtocolCodegen.Json

namespace Reader

/-- Characters without their leading white space. -/
def skipBlanks (input : List Char) : List Char :=
  input.dropWhile fun c => c == ' ' || c == '\t' || c == '\n' || c == '\r'

/-- The value of a hexadecimal digit. -/
def hexValue? (c : Char) : Option Nat :=
  if c.isDigit then some (c.toNat - '0'.toNat)
  else if 'a' ≤ c && c ≤ 'f' then some (c.toNat - 'a'.toNat + 10)
  else if 'A' ≤ c && c ≤ 'F' then some (c.toNat - 'A'.toNat + 10)
  else none

/-- The UTF-16 unit of four hexadecimal digits. -/
def unit? : List Char → Option (Nat × List Char)
  | a :: b :: c :: d :: rest => do
      let a ← hexValue? a
      let b ← hexValue? b
      let c ← hexValue? c
      let d ← hexValue? d
      some (((a * 16 + b) * 16 + c) * 16 + d, rest)
  | _ => none

/-- The character of a UTF-16 escape whose mark has been read; a high surrogate takes the low one
that must follow. -/
def escapedUnits? (input : List Char) : Option (Char × List Char) := do
  let (unit, rest) ← unit? input
  if unit < 0xD800 || 0xDFFF < unit then
    some (Char.ofNat unit, rest)
  else
    match rest with
    | '\\' :: 'u' :: rest => do
        let (low, rest) ← unit? rest
        if unit < 0xDC00 && 0xDC00 ≤ low && low ≤ 0xDFFF then
          some (Char.ofNat (0x10000 + (unit - 0xD800) * 0x400 + (low - 0xDC00)), rest)
        else
          none
    | _ => none

/-- The character of an escape whose backslash has been read. -/
def escaped? : List Char → Option (Char × List Char)
  | '"' :: rest => some ('"', rest)
  | '\\' :: rest => some ('\\', rest)
  | '/' :: rest => some ('/', rest)
  | 'b' :: rest => some ('\x08', rest)
  | 'f' :: rest => some ('\x0c', rest)
  | 'n' :: rest => some ('\n', rest)
  | 'r' :: rest => some ('\r', rest)
  | 't' :: rest => some ('\t', rest)
  | 'u' :: rest => escapedUnits? rest
  | _ => none

/-- A text whose opening quote and first characters, given in reverse, have been read. -/
def textTail? : Nat → List Char → List Char → Option (String × List Char)
  | 0, _, _ => none
  | _ + 1, _, [] => none
  | fuel + 1, read, c :: rest =>
      if c = '"' then
        some (String.ofList read.reverse, rest)
      else if c = '\\' then do
        let (c, rest) ← escaped? rest
        textTail? fuel (c :: read) rest
      else if c.toNat < 0x20 then
        none
      else
        textTail? fuel (c :: read) rest

/-- The digits after a decimal point, if there is a point with a digit behind it. -/
def fraction : List Char → List Char × List Char
  | '.' :: rest =>
      let digits := rest.takeWhile Char.isDigit
      if digits.isEmpty then ([], '.' :: rest) else (digits, rest.dropWhile Char.isDigit)
  | input => ([], input)

/-- The whole part of a numeral: a zero, or digits that do not begin with one. -/
def wholePart? : List Char → Option (List Char × List Char)
  | [] => none
  | c :: rest =>
      if c = '0' then some (['0'], rest)
      else if c.isDigit then some (c :: rest.takeWhile Char.isDigit, rest.dropWhile Char.isDigit)
      else none

/-- A numeral. -/
def number? (input : List Char) : Option (Json × List Char) := do
  let negative := input.head? == some '-'
  let (whole, rest) ← wholePart? (if negative then input.drop 1 else input)
  let (places, rest) := fraction rest
  let power := Numeral.exponent? rest
  let rest := (power.map (·.2)).getD rest
  if places.isEmpty && power.isNone then
    let magnitude : Int := Numeral.natOfDigits whole
    some (.int (if negative then -magnitude else magnitude), rest)
  else
    let shift := (power.map (·.1)).getD 0 - places.length
    some (.float (Binary64.ofDecimal negative (Numeral.natOfDigits (whole ++ places)) shift), rest)

/-- The words that stand for values. -/
def words : List (String × Json) := [
  ("null", .null),
  ("true", .bool true),
  ("false", .bool false),
  ("NaN", .float .nan),
  ("Infinity", .float (.infinite false)),
  ("-Infinity", .float (.infinite true))]

/-- The value of the word that the input begins with. -/
def word? (input : List Char) : Option (Json × List Char) :=
  words.findSome? fun (word, value) =>
    if word.toList.isPrefixOf input then some (value, input.drop word.length) else none

mutual

/-- A value. -/
def value? : Nat → List Char → Option (Json × List Char)
  | 0, _ => none
  | fuel + 1, input =>
      match input with
      | '"' :: rest => (textTail? fuel [] rest).map fun (text, rest) => (.str text, rest)
      | '[' :: rest =>
          match skipBlanks rest with
          | ']' :: rest => some (.arr [], rest)
          | rest => (items? fuel [] rest).map fun (items, rest) => (.arr items, rest)
      | '\x7b' :: rest =>
          match skipBlanks rest with
          | '\x7d' :: rest => some (.obj [], rest)
          | rest => (members? fuel [] rest).map fun (members, rest) =>
              (.obj (Dictionary.ofList members), rest)
      | input => (word? input).orElse fun _ => number? input

/-- The rest of an array, after the items in reverse that have been read. -/
def items? : Nat → List Json → List Char → Option (List Json × List Char)
  | 0, _, _ => none
  | fuel + 1, read, input => do
      let (item, rest) ← value? fuel input
      match skipBlanks rest with
      | ',' :: rest => items? fuel (item :: read) (skipBlanks rest)
      | ']' :: rest => some ((item :: read).reverse, rest)
      | _ => none

/-- The rest of an object, after the members in reverse that have been read. -/
def members? : Nat → List (String × Json) → List Char → Option (List (String × Json) × List Char)
  | 0, _, _ => none
  | fuel + 1, read, input =>
      match input with
      | '"' :: rest => do
          let (key, rest) ← textTail? fuel [] rest
          match skipBlanks rest with
          | ':' :: rest => do
              let (value, rest) ← value? fuel (skipBlanks rest)
              match skipBlanks rest with
              | ',' :: rest => members? fuel ((key, value) :: read) (skipBlanks rest)
              | '\x7d' :: rest => some (((key, value) :: read).reverse, rest)
              | _ => none
          | _ => none
      | _ => none

end

end Reader

/-- The value of a document, if it is well formed.  A character takes at most two steps, one into a
list and one to its first value, so the length of the document bounds the recursion. -/
def ofChars? (input : List Char) : Option Json := do
  let (value, rest) ← Reader.value? (2 * input.length + 1) (Reader.skipBlanks input)
  if (Reader.skipBlanks rest).isEmpty then some value else none

/-- The value of a document given as a text, if it is well formed. -/
def ofText? (document : String) : Option Json :=
  ofChars? document.toList

end ProtocolCodegen.Json
