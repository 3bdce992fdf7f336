import Wayfare.Value
import Wayfare.Decimal.Numeral

/-! # Reading values from JSON

A number with a point or an exponent is real, any other is whole. Of two fields
of one name the later value counts, in the place of the earlier. The words NaN
and Infinity are numbers.
-/

namespace Wayfare.Value

open Wayfare.Decimal

def isJsonBlank (c : Char) : Bool :=
  c == ' ' || c == '\t' || c == '\n' || c == '\r'

def skipBlank (cs : List Char) : List Char :=
  cs.dropWhile isJsonBlank

def hexValue? (c : Char) : Option Nat :=
  if c.isDigit then some (c.toNat - 48)
  else if 'a' ≤ c && c ≤ 'f' then some (c.toNat - 87)
  else if 'A' ≤ c && c ≤ 'F' then some (c.toNat - 55)
  else none

def hexUnit? (a b c d : Char) : Option Nat := do
  let a ← hexValue? a
  let b ← hexValue? b
  let c ← hexValue? c
  let d ← hexValue? d
  some (((a * 16 + b) * 16 + c) * 16 + d)

/-- The character that a letter after a backslash stands for. -/
def escaped? (c : Char) : Option Char :=
  if c == '"' || c == '\\' || c == '/' then some c
  else if c == 'n' then some '\n'
  else if c == 'r' then some '\r'
  else if c == 't' then some '\t'
  else if c == 'b' then some '\x08'
  else if c == 'f' then some '\x0c'
  else none

/-- The code units of the rest of a JSON string after its opening quote, in reverse and in front of
those in `seen`, and what follows the closing quote. -/
def readUnits (seen : List Nat) : List Char → Option (List Nat × List Char)
  | [] => none
  | '"' :: rest => some (seen, rest)
  | '\\' :: 'u' :: a :: b :: c :: d :: rest =>
      match hexUnit? a b c d with
      | some n => readUnits (n :: seen) rest
      | none => none
  | '\\' :: c :: rest =>
      match escaped? c with
      | some e => readUnits (e.toNat :: seen) rest
      | none => none
  | c :: rest => if c.toNat < 32 then none else readUnits (c.toNat :: seen) rest

/-- The text of code units given in reverse, put in front of `done`. A pair of units stands for one
character; half of a pair stands for a character that is missing. -/
def textOfUnits (done : List Char) : List Nat → List Char
  | [] => done
  | [n] => (if 0xD800 ≤ n && n < 0xE000 then '\ufffd' else Char.ofNat n) :: done
  | n :: m :: rest =>
      if 0xDC00 ≤ n && n < 0xE000 && 0xD800 ≤ m && m < 0xDC00 then
        textOfUnits (Char.ofNat (0x10000 + (m - 0xD800) * 0x400 + (n - 0xDC00)) :: done) rest
      else if 0xD800 ≤ n && n < 0xE000 then textOfUnits ('\ufffd' :: done) (m :: rest)
      else textOfUnits (Char.ofNat n :: done) (m :: rest)

/-- Reads the rest of a JSON string after its opening quote. -/
def readText (cs : List Char) : Option (String × List Char) :=
  (readUnits [] cs).map fun (units, rest) => (String.ofList (textOfUnits [] units), rest)

/-- Digits at the front of a text, at least one, and what follows them. -/
def takeDigits? (cs : List Char) : Option (List Char × List Char) :=
  let digits := cs.takeWhile Char.isDigit
  if digits.isEmpty then none else some (digits, cs.drop digits.length)

/-- Reads the point of a JSON number and the digits after it; a point without digits is left alone. -/
def readPlaces : List Char → Option (List Char × List Char)
  | '.' :: more => takeDigits? more
  | _ => none

/-- Reads the exponent of a JSON number; a letter without digits after it is left alone. -/
def readPower (cs : List Char) : Option (Int × List Char) := do
  match cs with
  | c :: rest =>
      if c == 'e' || c == 'E' then
        let (negative, body) := splitSign rest
        let (digits, after) ← takeDigits? body
        let n := Int.ofNat (natOfDigits digits)
        some (if negative then -n else n, after)
      else none
  | [] => none

def readNumber (negative : Bool) (cs : List Char) : Option (Value × List Char) := do
  let (run, _) ← takeDigits? cs
  let whole := if run.head? == some '0' then ['0'] else run
  let rest := cs.drop whole.length
  let places? := readPlaces rest
  let (places, rest) := places?.getD ([], rest)
  let power? := readPower rest
  let (power, rest) := power?.getD (0, rest)
  let mantissa := natOfDigits (whole ++ places)
  if places?.isNone && power?.isNone then
    some (int (if negative then -Int.ofNat mantissa else Int.ofNat mantissa), rest)
  else
    let size := realOf mantissa (power - Int.ofNat places.length)
    some (real (if negative then -size else size), rest)

def words : List (List Char × Value) :=
  [("null".toList, null), ("true".toList, bool true), ("false".toList, bool false),
   ("NaN".toList, real (0.0 / 0.0)), ("Infinity".toList, real (1.0 / 0.0)),
   ("-Infinity".toList, real (-1.0 / 0.0))]

def readPlain (cs : List Char) : Option (Value × List Char) :=
  match words.find? fun w => w.1.isPrefixOf cs with
  | some (word, v) => some (v, cs.drop word.length)
  | none =>
      match cs with
      | '-' :: rest => readNumber true rest
      | _ => readNumber false cs

mutual

def readValue : Nat → List Char → Option (Value × List Char)
  | 0, _ => none
  | fuel + 1, cs =>
      match cs with
      | '"' :: rest =>
          (readText rest).map fun (s, rest) => (text s, rest)
      | '[' :: rest =>
          match skipBlank rest with
          | ']' :: after => some (list [], after)
          | body => (readItems fuel body).map fun (items, rest) => (list items, rest)
      | '\x7b' :: rest =>
          match skipBlank rest with
          | '\x7d' :: after => some (record [], after)
          | body => (readFields [] fuel body).map fun (fields, rest) => (record fields, rest)
      | _ => readPlain cs

/-- Reads the items of a list up to its closing bracket. -/
def readItems : Nat → List Char → Option (List Value × List Char)
  | 0, _ => none
  | fuel + 1, cs =>
      match readValue fuel cs with
      | none => none
      | some (v, rest) =>
          match skipBlank rest with
          | ']' :: after => some ([v], after)
          | ',' :: more =>
              (readItems fuel (skipBlank more)).map fun (items, rest) => (v :: items, rest)
          | _ => none

/-- Reads the fields of a record up to its closing brace; `seen` holds the ones before. -/
def readFields (seen : Fields) : Nat → List Char → Option (Fields × List Char)
  | 0, _ => none
  | fuel + 1, cs =>
      match cs with
      | '"' :: rest =>
          match readText rest with
          | none => none
          | some (name, rest) =>
              match skipBlank rest with
              | ':' :: more =>
                  match readValue fuel (skipBlank more) with
                  | none => none
                  | some (v, rest) =>
                      let fields := Fields.set seen name v
                      match skipBlank rest with
                      | '\x7d' :: after => some (fields, after)
                      | ',' :: more => readFields fields fuel (skipBlank more)
                      | _ => none
              | _ => none
      | _ => none

end

/-- Reads a text that is one JSON value with nothing but white space around it. -/
def ofJson? (s : String) : Option Value :=
  let cs := skipBlank s.toList
  match readValue (cs.length + 1) cs with
  | some (v, rest) => if (skipBlank rest).isEmpty then some v else none
  | none => none

end Wayfare.Value
