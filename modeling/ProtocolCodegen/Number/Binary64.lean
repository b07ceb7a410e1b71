/-!
# Binary floating-point numbers

Numbers of the 64-bit binary format, held exactly as a significand times a power of two.  Decimal
numerals are rounded to the nearest such number, ties to the even significand.
-/

namespace ProtocolCodegen

/-- A number of the 64-bit binary floating-point format. -/
inductive Binary64 where
  /-- Not a number. -/
  | nan
  /-- An infinity. -/
  | infinite (negative : Bool)
  /-- The number `± significand * 2 ^ exponent`. -/
  | finite (negative : Bool) (significand : Nat) (exponent : Int)
  deriving DecidableEq, Repr, Inhabited

namespace Binary64

/-- Least exponent of a significand, that of the subnormal numbers. -/
def minExponent : Int := -1074

/-- Greatest exponent of a significand. -/
def maxExponent : Int := 971

/-- A zero with a sign. -/
def zero (negative : Bool) : Binary64 :=
  .finite negative 0 minExponent

/-- The quotient of two natural numbers rounded to the nearest one, ties to even. -/
def roundQuotient (numerator denominator : Nat) : Nat :=
  let quotient := numerator / denominator
  let remainder := numerator % denominator
  if 2 * remainder < denominator then quotient
  else if denominator < 2 * remainder then quotient + 1
  else quotient + quotient % 2

/-- A ratio divided by a power of two, as numerator and denominator. -/
def divideByPower (numerator denominator : Nat) (exponent : Int) : Nat × Nat :=
  if exponent < 0 then (numerator * Nat.pow 2 (-exponent).toNat, denominator)
  else (numerator, denominator * Nat.pow 2 exponent.toNat)

/-- The exponent at which a positive ratio has a significand of at most 53 bits. -/
def exponentOfRatio (numerator denominator : Nat) : Int :=
  let low := max minExponent ((numerator.log2 : Int) - denominator.log2 - 53)
  let scaled := divideByPower numerator denominator low
  if scaled.1 / scaled.2 < Nat.pow 2 53 then low else low + 1

/-- The number nearest to a ratio of natural numbers. -/
def ofRatio (negative : Bool) (numerator denominator : Nat) : Binary64 :=
  if numerator = 0 then
    zero negative
  else
    let exponent := exponentOfRatio numerator denominator
    let scaled := divideByPower numerator denominator exponent
    let rounded := roundQuotient scaled.1 scaled.2
    let significand := if rounded = Nat.pow 2 53 then Nat.pow 2 52 else rounded
    let exponent := if rounded = Nat.pow 2 53 then exponent + 1 else exponent
    if maxExponent < exponent then .infinite negative
    else .finite negative significand exponent

/-- Number of decimal digits of a natural number. -/
def decimalLength (number : Nat) : Nat :=
  (Nat.toDigits 10 number).length

/-- The number nearest to `± digits * 10 ^ exponent`.  A numeral far out of range is decided by its
order of magnitude. -/
def ofDecimal (negative : Bool) (digits : Nat) (exponent : Int) : Binary64 :=
  let magnitude := (decimalLength digits : Int) + exponent
  if digits = 0 || magnitude < -400 then zero negative
  else if 400 < magnitude then .infinite negative
  else if exponent < 0 then ofRatio negative digits (Nat.pow 10 (-exponent).toNat)
  else ofRatio negative (digits * Nat.pow 10 exponent.toNat) 1

/-- The number nearest to an integer, unless that is beyond the finite numbers. -/
def ofInt? (value : Int) : Option Binary64 :=
  match ofRatio (value < 0) value.natAbs 1 with
  | .infinite _ => none
  | number => some number

/-- The integer that a number is equal to, if there is one. -/
def toInt? : Binary64 → Option Int
  | .finite negative significand exponent =>
      let signed (magnitude : Nat) : Int := if negative then -magnitude else magnitude
      if 0 ≤ exponent then
        some (signed (significand * Nat.pow 2 exponent.toNat))
      else
        let denominator := Nat.pow 2 (-exponent).toNat
        if significand % denominator = 0 then some (signed (significand / denominator)) else none
  | _ => none

/-- Whether a number is one of the two zeros. -/
def isZero : Binary64 → Bool
  | .finite _ significand _ => significand == 0
  | _ => false

end Binary64
end ProtocolCodegen
