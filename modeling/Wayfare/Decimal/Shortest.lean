import Wayfare.Decimal.Binary

/-! # Shortest decimal form

The decimal with the fewest digits that reads back as a given floating-point
number; of several with as few digits, the one nearest to the number.
-/

namespace Wayfare.Decimal

/-- A decimal `digits * 10 ^ exponent`. -/
structure Scientific where
  digits : Nat
  exponent : Int
  deriving DecidableEq, Repr

/-- The largest power of ten, as an exponent, that does not exceed `num / den`, looked for among the
`tries` exponents from `low` on. -/
def powerBelow (num den : Nat) (low : Int) : Nat → Int
  | 0 => low
  | tries + 1 =>
      let next := low + 1
      if Nat.pow 10 next.toNat * den ≤ num * Nat.pow 10 (-next).toNat then powerBelow num den next tries
      else low

/-- The exponent of the leading decimal digit of a positive quotient. -/
def leadingExponent (num den : Nat) : Int :=
  powerBelow num den ((Int.ofNat num.log2 - Int.ofNat den.log2 - 1) * 30103 / 100000 - 1) 4

/-- Whether the decimal `digits * 10 ^ exponent` reads back as `mantissa * 2 ^ exponent₂`: it lies
between the midpoints to the two neighbouring numbers, the midpoints themselves counting when the
mantissa is even. All three are compared as fractions over `4 * 2 ^ _`. -/
def readsBack (mantissa : Nat) (exponent₂ : Int) (d : Scientific) : Bool :=
  let scaleUp := Nat.pow 10 d.exponent.toNat * Nat.pow 2 (-exponent₂).toNat
  let scaleDown := Nat.pow 10 (-d.exponent).toNat * Nat.pow 2 exponent₂.toNat
  let value := 4 * d.digits * scaleUp
  let high := (4 * mantissa + 2) * scaleDown
  -- Below a power of two the neighbour is only half as far away, unless numbers are subnormal there.
  let low :=
    if mantissa == Nat.pow 2 52 && exponent₂ > -1074 then (4 * mantissa - 1) * scaleDown
    else (4 * mantissa - 2) * scaleDown
  if mantissa % 2 == 0 then low ≤ value && value ≤ high else low < value && value < high

/-- Of the two decimals around the number on the grid of step `10 ^ exponent`, the one that reads back;
of two, the nearer, and of two equally near the even one. -/
def onGrid (mantissa : Nat) (exponent₂ exponent : Int) : Option Scientific :=
  let (num, den) := fraction mantissa exponent₂
  let n := num * Nat.pow 10 (-exponent).toNat
  let d := den * Nat.pow 10 exponent.toNat
  let below : Scientific := ⟨n / d, exponent⟩
  let above : Scientific := ⟨n / d + 1, exponent⟩
  let twice := 2 * (n % d)
  let belowFirst := twice < d || (twice == d && below.digits % 2 == 0)
  let (first, second) := if belowFirst then (below, above) else (above, below)
  if readsBack mantissa exponent₂ first then some first
  else if readsBack mantissa exponent₂ second then some second
  else none

/-- Tries grids from `exponent` downwards, each ten times finer than the last. -/
def searchGrids (mantissa : Nat) (exponent₂ exponent : Int) : Nat → Scientific
  | 0 => ⟨0, exponent⟩
  | tries + 1 =>
      match onGrid mantissa exponent₂ exponent with
      | some d => d
      | none => searchGrids mantissa exponent₂ (exponent - 1) tries

/-- The shortest decimal of a positive number; seventeen digits always suffice. -/
def shortestDigits (mantissa : Nat) (exponent₂ : Int) : Scientific :=
  let (num, den) := fraction mantissa exponent₂
  searchGrids mantissa exponent₂ (leadingExponent num den) 18

/-- Drops zeros at the end of the digits. -/
def Scientific.trimmed (d : Scientific) : Nat → Scientific
  | 0 => d
  | steps + 1 =>
      if d.digits % 10 == 0 && d.digits != 0 then
        Scientific.trimmed ⟨d.digits / 10, d.exponent + 1⟩ steps
      else d

/-- Writes a decimal positionally when its leading digit stands for at least `10 ^ -4` and less than
`10 ^ 16`, otherwise with an exponent of at least two digits. A positional form always has a point. -/
def Scientific.text (d : Scientific) : String :=
  let digits := toString d.digits
  let lead := Int.ofNat digits.length + d.exponent
  if -4 < lead && lead ≤ 16 then
    if 0 ≤ d.exponent then
      digits ++ String.ofList (List.replicate d.exponent.toNat '0') ++ ".0"
    else if 0 < lead then
      let cs := digits.toList
      String.ofList (cs.take lead.toNat) ++ "." ++ String.ofList (cs.drop lead.toNat)
    else
      "0." ++ String.ofList (List.replicate (-lead).toNat '0') ++ digits
  else
    let cs := digits.toList
    let rest := if cs.length ≤ 1 then "" else "." ++ String.ofList (cs.drop 1)
    let e := lead - 1
    let sign := if e < 0 then "-" else "+"
    let size := toString e.natAbs
    String.ofList (cs.take 1) ++ rest ++ "e" ++ sign ++ (if size.length < 2 then "0" else "") ++ size

/-- The shortest text that reads back as a floating-point number. -/
def shortest (x : Float) : String :=
  match Binary.ofFloat x with
  | .notANumber => "nan"
  | .infinite negative => if negative then "-inf" else "inf"
  | .finite negative m e =>
      let text := if m == 0 then "0.0" else ((shortestDigits m e).trimmed 20).text
      (if negative then "-" else "") ++ text

end Wayfare.Decimal
