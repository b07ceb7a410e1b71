import ProtocolCodegen.Number.Binary64

/-!
# Shortest numerals

The numeral of a floating-point number has the fewest significant digits that read back as the same
number, and of those the nearest ones.  For each number of digits the two neighbours of the number
on that decimal grid are tested against the interval of reals that round to the number, in exact
arithmetic.  How the digits are laid out is one record.
-/

namespace ProtocolCodegen

/-- The decimal number `digits * 10 ^ exponent`. -/
structure Decimal where
  /-- Significant digits. -/
  digits : Nat
  /-- Power of ten. -/
  exponent : Int
  deriving DecidableEq, Repr

/-- The reals that round to one positive number, as numerators over a common denominator. -/
structure RoundingInterval where
  /-- Lower end. -/
  low : Nat
  /-- The number itself. -/
  value : Nat
  /-- Upper end. -/
  high : Nat
  /-- Common denominator. -/
  denominator : Nat
  /-- Whether the ends round to the number as well. -/
  closed : Bool

namespace RoundingInterval

/-- The interval of a positive number `significand * 2 ^ exponent`.  Below a power of two the
neighbour is at half the distance. -/
def ofParts (significand : Nat) (exponent : Int) : RoundingInterval :=
  let factor := Nat.pow 2 (exponent - 2).toNat
  let atPower := significand == Nat.pow 2 52 && Binary64.minExponent < exponent
  { low := (4 * significand - if atPower then 1 else 2) * factor
    value := 4 * significand * factor
    high := (4 * significand + 2) * factor
    denominator := Nat.pow 2 (2 - exponent).toNat
    closed := significand % 2 == 0 }

/-- Whether a ratio lies in the interval. -/
def contains (interval : RoundingInterval) (numerator denominator : Nat) : Bool :=
  let point := numerator * interval.denominator
  let low := interval.low * denominator
  let high := interval.high * denominator
  if interval.closed then low ≤ point && point ≤ high else low < point && point < high

/-- Position of the decimal point relative to the first significant digit. -/
def pointPosition (interval : RoundingInterval) : Int :=
  Binary64.decimalLength (interval.value * Nat.pow 10 400 / interval.denominator) - 400

/-- The point of the grid `10 ^ exponent` that reads back as the number and is nearest to it. -/
def onGrid? (interval : RoundingInterval) (exponent : Int) : Option Decimal :=
  let up := Nat.pow 10 (-exponent).toNat
  let down := Nat.pow 10 exponent.toNat
  let value := interval.value * up
  let step := interval.denominator * down
  let below := value / step
  let nearest :=
    if 2 * (value % step) < step then below
    else if step < 2 * (value % step) then below + 1
    else below + below % 2
  let other := if nearest = below then below + 1 else below
  if interval.contains (nearest * down) up then some ⟨nearest, exponent⟩
  else if interval.contains (other * down) up then some ⟨other, exponent⟩
  else none

/-- The shortest decimal that reads back as the number; 17 digits always suffice. -/
def shortest (interval : RoundingInterval) : Decimal :=
  let position := interval.pointPosition
  let found? := (List.range 17).findSome? fun (count : Nat) =>
    interval.onGrid? (position - count - 1)
  found?.getD ⟨0, 0⟩

end RoundingInterval

/-- How the digits of a floating-point number are laid out. -/
structure NumeralLayout where
  /-- Least power of ten of the first digit that is written without an exponent. -/
  lowPower : Int
  /-- Greatest power of ten of the first digit that is written without an exponent. -/
  highPower : Int
  /-- Least number of digits of an exponent. -/
  exponentWidth : Nat
  /-- Text of an infinity. -/
  infinity : String
  /-- Text of what is not a number. -/
  notANumber : String

namespace NumeralLayout

/-- A list of digits without the zeros at its end. -/
def dropTrailingZeros (digits : List Char) : List Char :=
  (digits.reverse.dropWhile (· == '0')).reverse

/-- Digits whose first one stands at a power of ten, written with a decimal point. -/
def positional (digits : List Char) (power : Int) : List Char :=
  if power < 0 then
    '0' :: '.' :: List.replicate (-power - 1).toNat '0' ++ digits
  else
    let count := power.toNat + 1
    let fraction := digits.drop count
    digits.take count ++ List.replicate (count - digits.length) '0' ++
      '.' :: (if fraction.isEmpty then ['0'] else fraction)

/-- Digits whose first one stands at a power of ten, written with an exponent of two digits or
more. -/
def scientific (layout : NumeralLayout) (digits : List Char) (power : Int) : List Char :=
  let fraction := digits.drop 1
  let magnitude := Nat.toDigits 10 power.natAbs
  digits.take 1 ++ (if fraction.isEmpty then [] else '.' :: fraction) ++
    'e' :: (if power < 0 then '-' else '+') ::
      List.replicate (layout.exponentWidth - magnitude.length) '0' ++ magnitude

/-- The text of a floating-point number. -/
def render (layout : NumeralLayout) : Binary64 → String
  | .nan => layout.notANumber
  | .infinite negative => (if negative then "-" else "") ++ layout.infinity
  | .finite negative significand exponent =>
      let sign := if negative then ['-'] else []
      if significand = 0 then
        String.ofList (sign ++ positional ['0'] 0)
      else
        let decimal := (RoundingInterval.ofParts significand exponent).shortest
        let all := Nat.toDigits 10 decimal.digits
        let power := (all.length : Int) - 1 + decimal.exponent
        let digits := dropTrailingZeros all
        String.ofList <| sign ++
          if layout.lowPower ≤ power && power ≤ layout.highPower then positional digits power
          else layout.scientific digits power

end NumeralLayout

/-- Numbers from `10 ^ -4` up to below `10 ^ 16` are written without an exponent, and an exponent
has a sign and at least two digits. -/
def Binary64.layout : NumeralLayout where
  lowPower := -4
  highPower := 15
  exponentWidth := 2
  infinity := "inf"
  notANumber := "nan"

/-- The shortest numeral of a floating-point number. -/
def Binary64.text (number : Binary64) : String :=
  Binary64.layout.render number

end ProtocolCodegen
