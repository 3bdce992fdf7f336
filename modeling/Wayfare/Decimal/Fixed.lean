import Wayfare.Decimal.Binary

/-! # Fixed decimal places

Rounding of a floating-point number to a given number of decimal places. The
exact binary value is rounded, and a half goes to the even neighbour.
-/

namespace Wayfare.Decimal

/-- The digits of `mantissa * 2 ^ exponent`, rounded to `places` places and read without the point. -/
def scaled (places : Nat) (mantissa : Nat) (exponent : Int) : Nat :=
  let (num, den) := fraction mantissa exponent
  roundDiv (num * Nat.pow 10 places) den

/-- Digits with at least `width` of them, filled with zeros on the left. -/
def padded (width n : Nat) : String :=
  let digits := toString n
  String.ofList (List.replicate (width - digits.length) '0') ++ digits

/-- A number written with exactly `places` digits after the point. -/
def fixed (places : Nat) (x : Float) : String :=
  match Binary.ofFloat x with
  | .notANumber => "nan"
  | .infinite negative => if negative then "-inf" else "inf"
  | .finite negative m e =>
      let digits := scaled places m e
      let whole := toString (digits / Nat.pow 10 places)
      let rest := if places == 0 then "" else "." ++ padded places (digits % Nat.pow 10 places)
      (if negative then "-" else "") ++ whole ++ rest

/-- The floating-point number nearest to `x` rounded to `places` decimal places. -/
def roundTo (places : Nat) (x : Float) : Float :=
  match Binary.ofFloat x with
  | .finite negative m e =>
      let rounded := Float.ofScientific (scaled places m e) true places
      if negative then -rounded else rounded
  | _ => x

end Wayfare.Decimal
