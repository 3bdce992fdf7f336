/-! # Binary floating-point numbers as exact fractions

A finite floating-point number is a whole number times a power of two. Here it
is taken apart so that its decimal forms can be worked out in exact arithmetic.
-/

namespace Wayfare.Decimal

/-- What a floating-point number stands for. -/
inductive Binary where
  /-- The number `mantissa * 2 ^ exponent`, with its sign. -/
  | finite (negative : Bool) (mantissa : Nat) (exponent : Int)
  | infinite (negative : Bool)
  | notANumber
  deriving DecidableEq, Repr

/-- Takes the 64 bits apart: one for the sign, eleven for the exponent, 52 for the fraction. -/
def Binary.ofBits (bits : Nat) : Binary :=
  let negative := bits / Nat.pow 2 63 % 2 == 1
  let exponent := bits / Nat.pow 2 52 % 2048
  let fraction := bits % Nat.pow 2 52
  if exponent == 2047 then
    if fraction == 0 then .infinite negative else .notANumber
  else if exponent == 0 then .finite negative fraction (-1074)
  else .finite negative (Nat.pow 2 52 + fraction) (Int.ofNat exponent - 1075)

def Binary.ofFloat (x : Float) : Binary :=
  .ofBits x.toBits.toNat

/-- The numerator and denominator of `mantissa * 2 ^ exponent`. -/
def fraction (mantissa : Nat) (exponent : Int) : Nat × Nat :=
  (mantissa * Nat.pow 2 exponent.toNat, Nat.pow 2 (-exponent).toNat)

/-- The whole number nearest to a quotient; a half goes to the even neighbour. -/
def roundDiv (num den : Nat) : Nat :=
  let quotient := num / den
  let twice := 2 * (num % den)
  if twice < den then quotient
  else if den < twice then quotient + 1
  else quotient + quotient % 2

/-- The whole part of a floating-point number, unless it is infinite or not a number. -/
def wholePart? (x : Float) : Option Int :=
  match Binary.ofFloat x with
  | .finite negative m e =>
      let (num, den) := fraction m e
      let whole : Int := Int.ofNat (num / den)
      some (if negative then -whole else whole)
  | _ => none

/-- The least whole number that is not below a floating-point number. -/
def ceiling? (x : Float) : Option Int :=
  match Binary.ofFloat x with
  | .finite negative m e =>
      let (num, den) := fraction m e
      some (if negative then -(Int.ofNat (num / den)) else Int.ofNat ((num + den - 1) / den))
  | _ => none

end Wayfare.Decimal
