import ProtocolCodegen.Number.Binary64
import ProtocolCodegen.Text.Blank
import ProtocolCodegen.Text.Digit

/-!
# Numerals

Reading floating-point numbers as people write them: blanks around the numeral, decimal digits of
any script, underscores between digits, and the words for infinity and for what is not a number in
any case.  A numeral has a digit before or after the point, and a digit after the mark of an
exponent.
-/

namespace ProtocolCodegen.Numeral

/-- The natural number of a list of ASCII digits. -/
def natOfDigits (digits : List Char) : Nat :=
  digits.foldl (fun number digit => number * 10 + (digit.toNat - '0'.toNat)) 0

/-- An exponent at the front of a text and what follows it; its mark needs a digit behind it. -/
def exponent? : List Char → Option (Int × List Char)
  | mark :: rest =>
      if mark = 'e' || mark = 'E' then
        let negative := rest.head? == some '-'
        let rest := if negative || rest.head? == some '+' then rest.drop 1 else rest
        let digits := rest.takeWhile Char.isDigit
        let magnitude : Int := natOfDigits digits
        if digits.isEmpty then none
        else some (if negative then -magnitude else magnitude, rest.dropWhile Char.isDigit)
      else
        none
  | [] => none

/-- A character in ASCII: a blank becomes a space and a digit of any script the digit of its
value. -/
def asciiChar? (c : Char) : Option Char :=
  if c.toNat < 0x80 then some c
  else if Text.isBlank c then some ' '
  else (Text.digitValue? c).map Nat.digitChar

/-- A text without its underscores, each of which must stand between two digits; `afterDigit` says
whether a digit precedes. -/
def dropUnderscores? : (afterDigit : Bool) → List Char → Option (List Char)
  | _, [] => some []
  | afterDigit, '_' :: rest =>
      if afterDigit && (rest.head?.map Char.isDigit).getD false then dropUnderscores? false rest
      else none
  | _, c :: rest => (dropUnderscores? c.isDigit rest).map (c :: ·)

/-- The number of a numeral without sign. -/
def unsigned? (negative : Bool) (text : List Char) : Option Binary64 :=
  let word := String.ofList (text.map Char.toLower)
  if word = "inf" || word = "infinity" then
    some (.infinite negative)
  else if word = "nan" then
    some .nan
  else
    let whole := text.takeWhile Char.isDigit
    let rest := text.dropWhile Char.isDigit
    let hasPoint := rest.head? == some '.'
    let places := if hasPoint then (rest.drop 1).takeWhile Char.isDigit else []
    let rest := if hasPoint then (rest.drop 1).dropWhile Char.isDigit else rest
    let power := if rest.isEmpty then some (0, []) else exponent? rest
    match power with
    | some (power, []) =>
        if whole.isEmpty && places.isEmpty then none
        else some (.ofDecimal negative (natOfDigits (whole ++ places)) (power - places.length))
    | _ => none

/-- The number of a numeral that may have a sign. -/
def signed? : List Char → Option Binary64
  | '-' :: rest => unsigned? true rest
  | '+' :: rest => unsigned? false rest
  | text => unsigned? false text

/-- The floating-point number that a text stands for. -/
def read? (text : String) : Option Binary64 := do
  let ascii ← text.toList.mapM asciiChar?
  let trimmed := Text.dropEndWhile Text.isAsciiBlank (ascii.dropWhile Text.isAsciiBlank)
  signed? (← dropUnderscores? false trimmed)

end ProtocolCodegen.Numeral
