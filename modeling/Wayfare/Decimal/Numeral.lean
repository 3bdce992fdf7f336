import Wayfare.Text.Blank
import Wayfare.Text.Digit

/-! # Reading numerals

Numbers as people write them in text fields: digits of any script, white space
around them, a low line between two digits to group them.
-/

namespace Wayfare.Decimal

open Wayfare.Text

/-- White space that may stand around a numeral; the separators of files and records may not. -/
def isNumeralBlank (c : Char) : Bool :=
  isBlankChar c && !(28 ≤ c.toNat && c.toNat ≤ 31)

/-- A numeral without the white space around it and with digits of any script as Latin digits. -/
def numeralChars (s : String) : List Char :=
  let trimmed := ((s.toList.dropWhile isNumeralBlank).reverse.dropWhile isNumeralBlank).reverse
  trimmed.map fun c => ((digitValue? c).map Nat.digitChar).getD c

/-- Removes low lines, each of which has to stand between two digits. -/
def ungroup (afterDigit : Bool) : List Char → Option (List Char)
  | [] => some []
  | '_' :: c :: rest =>
      if afterDigit && c.isDigit then (ungroup true rest).map (c :: ·) else none
  | c :: rest => if c == '_' then none else (ungroup c.isDigit rest).map (c :: ·)

/-- The number written by decimal digits, the most significant first. -/
def natOfDigits (ds : List Char) : Nat :=
  ds.foldl (fun n c => 10 * n + (c.toNat - 48)) 0

/-- A sign, `true` for minus, and what follows it. -/
def splitSign : List Char → Bool × List Char
  | '-' :: rest => (true, rest)
  | '+' :: rest => (false, rest)
  | cs => (false, cs)

/-- The most digits that a whole number in a text field may have. -/
def maxDigits : Nat := 4300

def readInt (s : String) : Option Int := do
  let cs ← ungroup false (numeralChars s)
  let (negative, digits) := splitSign cs
  if digits.isEmpty || !digits.all Char.isDigit || maxDigits < digits.length then none
  else
    let n := Int.ofNat (natOfDigits digits)
    some (if negative then -n else n)

/-- The floating-point number nearest to `mantissa * 10 ^ exponent`. Numbers far outside the range are
infinite or zero without a computation. -/
def realOf (mantissa : Nat) (exponent : Int) : Float :=
  let size := Int.ofNat (toString mantissa).length + exponent
  if mantissa == 0 || size < -400 then 0.0
  else if 400 < size then 1.0 / 0.0
  else Float.ofScientific mantissa (exponent < 0) exponent.natAbs

/-- Reads the exponent of a decimal, which is zero when absent. -/
def readExponent : List Char → Option Int
  | [] => some 0
  | c :: rest =>
      if c == 'e' || c == 'E' then
        let (negative, digits) := splitSign rest
        if digits.isEmpty || !digits.all Char.isDigit then none
        else
          let n := Int.ofNat (natOfDigits digits)
          some (if negative then -n else n)
      else none

/-- Reads a decimal without sign: digits, a point and digits, at least one digit in all, and perhaps
an exponent. -/
def readDecimal (cs : List Char) : Option Float := do
  let whole := cs.takeWhile Char.isDigit
  let afterWhole := cs.dropWhile Char.isDigit
  let (places, rest) :=
    match afterWhole with
    | '.' :: more => (more.takeWhile Char.isDigit, more.dropWhile Char.isDigit)
    | _ => ([], afterWhole)
  if whole.isEmpty && places.isEmpty then none
  else
    let exponent ← readExponent rest
    some (realOf (natOfDigits (whole ++ places)) (exponent - Int.ofNat places.length))

/-- Reads a real number in Latin digits with nothing around it: a decimal, or infinity, or a value that
is not a number. -/
def readBareReal (cs : List Char) : Option Float := do
  let (negative, body) := splitSign cs
  let word := String.ofList (body.map Char.toLower)
  let size ←
    if word == "inf" || word == "infinity" then some (1.0 / 0.0)
    else if word == "nan" then some (0.0 / 0.0)
    else readDecimal body
  some (if negative then -size else size)

def readReal (s : String) : Option Float := do
  readBareReal (← ungroup false (numeralChars s))

end Wayfare.Decimal
