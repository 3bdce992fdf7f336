import Wayfare.Value.Number

/-! # Lenient fields

The transport carries whole numbers, real numbers, truth values and texts. What
is to be a number or a truth value is read leniently: other kinds of value are
taken for what they say, if that is the kind that is asked for. Anything else is
a mismatch.

The program says only of which kind a field is. The reading is done by the
library of typed records that it builds on and that is no part of it. What is
here stands for the lenient mode that this library documents, and the mismatches
have the names that it gives them.
-/

namespace Wayfare.Wire

open Wayfare.Decimal

/-- The kind of mismatch of a field. -/
abbrev Mismatch := String

/-- A text without the white space around it; separators of files and records are not white space. -/
def trimField (s : String) : List Char :=
  ((s.toList.dropWhile isNumeralBlank).reverse.dropWhile isNumeralBlank).reverse

/-- Whether low lines only stand one by one between other characters. -/
def groupsFrom (previous : Char) : List Char → Bool
  | [] => previous != '_'
  | c :: rest => !(previous == '_' && c == '_') && groupsFrom c rest

/-- A text without low lines, if these only stand one by one between other characters. -/
def withoutGroups (cs : List Char) : List Char :=
  if groupsFrom '_' cs then cs.filter (· != '_') else cs

/-- What a plain whole number turns out to be. -/
inductive PlainInt where
  | number (n : Int)
  | tooLong
  | invalid

/-- Reads a whole number without leading zeros, perhaps with a minus sign. Digits beyond the limit are
too many whatever follows them. -/
def PlainInt.read (cs : List Char) : PlainInt :=
  let (negative, body) :=
    match cs with
    | '-' :: rest => (true, rest)
    | _ => (false, cs)
  let digits := body.takeWhile Char.isDigit
  let leading := digits.head? == some '0' && 1 < digits.length
  if leading then .invalid
  else if maxDigits < digits.length then .tooLong
  else if digits.isEmpty || digits.length != body.length then .invalid
  else
    let n := Int.ofNat (natOfDigits digits)
    .number (if negative then -n else n)

/-- What follows the zeros and low lines at the front of a numeral that begins with a zero. Before a
point, and at the end, the last of them stays. -/
def afterZeros (last : Char) : List Char → Option (List Char)
  | [] => some [last]
  | c :: rest =>
      if c == '0' || c == '_' then afterZeros c rest
      else if c.isDigit || c == '-' then some (c :: rest)
      else if c == '.' then some (last :: c :: rest)
      else none

/-- A numeral without zeros at its front. -/
def withoutLeadingZeros : List Char → Option (List Char)
  | [] => none
  | c :: rest =>
      if c == '0' then afterZeros c rest
      else if c.isDigit || c == '-' then some (c :: rest)
      else none

/-- A numeral without a fraction that consists of zeros. -/
def withoutZeroFraction (cs : List Char) : List Char :=
  match cs.dropWhile (· != '.') with
  | '.' :: zero :: zeros =>
      if (zero :: zeros).all (· == '0') then cs.takeWhile (· != '.') else cs
  | _ => cs

/-- A numeral in the form of a plain whole number: one sign, no zeros at the front, no fraction of
zeros and no low lines. -/
def plainForm (cs : List Char) : Option (List Char) :=
  let unsigned (body : List Char) : Option (List Char) := do
    return withoutGroups (withoutZeroFraction (← withoutLeadingZeros body))
  match cs with
  | '+' :: '-' :: _ => none
  | '+' :: rest => unsigned rest
  | '-' :: rest => ('-' :: ·) <$> unsigned rest
  | _ => unsigned cs

def intOfText (s : String) : Except Mismatch Value :=
  let cs := trimField s
  match PlainInt.read cs with
  | .number n => .ok (.int n)
  | .tooLong => .error "int_parsing_size"
  | .invalid =>
      match (plainForm cs).map PlainInt.read with
      | some (.number n) => .ok (.int n)
      | _ => .error "int_parsing"

/-- Whether a whole number that is given as a real one fits into a machine word. -/
def fitsWord (n : Int) : Bool :=
  decide (n.natAbs < Nat.pow 2 63)

/-- A real number as a whole one, which it has to be. -/
def intOfReal (x : Float) : Except Mismatch Value :=
  match Decimal.wholePart? x with
  | none => .error "finite_number"
  | some n =>
      if !(Float.ofInt n == x) then .error "int_from_float"
      else if fitsWord n then .ok (.int n)
      else .error "int_parsing_size"

def lenientInt : Value → Except Mismatch Value
  | .int n => .ok (.int n)
  | .bool b => .ok (.int (if b then 1 else 0))
  | .real x => intOfReal x
  | .text s => intOfText s
  | _ => .error "int_type"

def realOfText (s : String) : Except Mismatch Value :=
  let cs := trimField s
  match (readBareReal cs).or (readBareReal (withoutGroups cs)) with
  | some x => .ok (.real x)
  | none => .error "float_parsing"

def lenientReal : Value → Except Mismatch Value
  | .text s => realOfText s
  | v =>
      match v.asReal with
      | .ok x => .ok (.real x)
      | .error _ => .error "float_type"

def wordsForFalse : List String := ["0", "off", "f", "false", "n", "no"]

def wordsForTrue : List String := ["1", "on", "t", "true", "y", "yes"]

/-- A word as a truth value, whatever the case of its Latin letters. -/
def boolOfText (s : String) : Except Mismatch Value :=
  let word := String.ofList (s.toList.map Char.toLower)
  if wordsForFalse.contains word then .ok (.bool false)
  else if wordsForTrue.contains word then .ok (.bool true)
  else .error "bool_parsing"

/-- A whole number as a truth value; one that does not fit into a machine word is none. -/
def boolOfInt (n : Int) : Except Mismatch Value :=
  if n = 0 then .ok (.bool false)
  else if n = 1 then .ok (.bool true)
  else if fitsWord n || n = -Int.ofNat (Nat.pow 2 63) then .error "bool_parsing"
  else .error "bool_type"

def lenientBool : Value → Except Mismatch Value
  | .bool b => .ok (.bool b)
  | .int n => boolOfInt n
  | .real x =>
      match Decimal.wholePart? x with
      | some n => if Float.ofInt n == x && fitsWord n then boolOfInt n else .error "bool_type"
      | none => .error "bool_type"
  | .text s => boolOfText s
  | _ => .error "bool_type"

def plainText : Value → Except Mismatch Value
  | .text s => .ok (.text s)
  | _ => .error "string_type"

def optional (read : Value → Except Mismatch Value) (v : Value) : Except Mismatch Value :=
  if v.isNull then .ok .null else read v

end Wayfare.Wire
