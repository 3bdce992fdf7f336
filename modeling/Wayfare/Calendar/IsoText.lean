import Wayfare.Calendar.Moment
import Wayfare.Decimal.Numeral

/-! # Dates and moments in text

The forms of the international standard. A date is a year with a month and a
day, or a year with a week and perhaps a day of the week, with dashes or
without. After a date stands any one character and a time of day, with colons or
without, and perhaps an offset from universal time.
-/

namespace Wayfare.Calendar

open Wayfare.Decimal

def readDigits (width : Nat) (cs : List Char) : Option (Nat × List Char) :=
  let digits := cs.take width
  if digits.length == width && digits.all Char.isDigit then
    some (natOfDigits digits, cs.drop width)
  else none

def skip (c : Char) : List Char → Option (List Char)
  | d :: rest => if d == c then some rest else none
  | [] => none

/-- Skips a dash, if dashes are used. -/
def skipDash (dashed : Bool) (cs : List Char) : Option (List Char) :=
  if dashed then skip '-' cs else some cs

/-- Reads a week and, if more than the week is wanted, a day of it. -/
def readWeek (year : Nat) (dashed withDay : Bool) (cs : List Char) : Option Date := do
  let (week, cs) ← readDigits 2 cs
  if withDay then
    let (day, _) ← readDigits 1 (← skipDash dashed cs)
    Date.ofWeek? year week day
  else Date.ofWeek? year week 1

def readMonth (year : Nat) (dashed : Bool) (cs : List Char) : Option Date := do
  let (month, cs) ← readDigits 2 cs
  let (day, _) ← readDigits 2 (← skipDash dashed cs)
  Date.ofCivil? year month day

/-- Reads a date at the front of a text. A day of the week is read only within the first `width`
characters. -/
def readDate (width : Nat) (cs : List Char) : Option Date := do
  let (year, cs) ← readDigits 4 cs
  let dashed := cs.head? == some '-'
  let cs := if dashed then cs.drop 1 else cs
  match cs with
  | 'W' :: rest => readWeek year dashed (decide ((if dashed then 8 else 7) < width)) rest
  | _ => readMonth year dashed cs

def Date.read (s : String) : Option Date :=
  let width := s.utf8ByteSize
  if [7, 8, 10].contains width then readDate width s.toList else none

/-- The width of a date with a week and without dashes: a day of the week belongs to it unless it is
the first digit of a pair. -/
def plainWeekWidth (cs : List Char) : Nat :=
  let digits := ((cs.drop 7).takeWhile Char.isDigit).length
  if digits < 2 then 7 + digits else if digits % 2 == 1 then 7 else 8

/-- The width of a date with a week and with dashes: a day of the week belongs to it unless a digit
follows, which makes it the first of a pair. -/
def dashedWeekWidth (cs : List Char) : Option Nat :=
  if cs.length < 8 then none
  else if (cs.drop 8).head? == some '-' then
    if cs.length == 9 then none
    else if ((cs.drop 10).head?.map Char.isDigit).getD false then some 8
    else some 10
  else some 8

/-- The width of the date at the front of a text. -/
def dateWidth (cs : List Char) : Option Nat :=
  if cs.length == 7 then some 7
  else
    match cs.drop 4 with
    | '-' :: 'W' :: _ => dashedWeekWidth cs
    | '-' :: _ => some 10
    | 'W' :: _ => some (plainWeekWidth cs)
    | _ => some 8

/-- The numbers of a clock as far as they are given, the highest first, a fraction in microseconds, and
whether the text is used up. -/
structure ClockReading where
  numbers : List Nat
  micros : Nat := 0
  whole : Bool

namespace ClockReading

def after (n : Nat) (r : ClockReading) : ClockReading :=
  { r with numbers := n :: r.numbers }

/-- Hours, minutes and seconds. -/
def hoursMinutesSeconds (r : ClockReading) : Nat × Nat × Nat :=
  (r.numbers.getD 0 0, r.numbers.getD 1 0, r.numbers.getD 2 0)

/-- The microseconds of all numbers together, without the fraction. -/
def seconds (r : ClockReading) : Nat :=
  let (h, m, s) := r.hoursMinutesSeconds
  h * 3600 + m * 60 + s

end ClockReading

/-- Reads a fraction; digits beyond the sixth are dropped. -/
def readFraction (cs : List Char) : Option ClockReading :=
  let six := cs.take 6
  if six.isEmpty || !six.all Char.isDigit then none
  else
    some {
      numbers := []
      micros := natOfDigits (six ++ List.replicate (6 - six.length) '0')
      whole := ((cs.drop 6).dropWhile Char.isDigit).isEmpty }

/-- Reads up to so many numbers of two digits, and a fraction after any of them. Whether colons stand
between the numbers is told by the first character after a number. A single character after a number
is left over. -/
def readNumbers (colons : Option Bool) : Nat → List Char → Option ClockReading
  | 0, cs => readFraction cs
  | more + 1, cs => do
      let (n, rest) ← readDigits 2 cs
      match rest with
      | [] => some ⟨[n], 0, true⟩
      | [_] => some ⟨[n], 0, false⟩
      | c :: tail =>
          let colons := colons.getD (c == ':')
          if colons && c == ':' then (readNumbers colons more tail).map (·.after n)
          else if c == '.' || c == ',' then (readFraction tail).map (·.after n)
          else if colons then none
          else (readNumbers colons more rest).map (·.after n)

/-- Reads hours, and as far as they are given minutes, seconds and a fraction. -/
def readClock (cs : List Char) : Option ClockReading :=
  readNumbers none 3 cs

def beginsOffset (c : Char) : Bool :=
  c == '+' || c == '-' || c == 'Z'

/-- Reads an offset: the letter of universal time, or a sign and a clock that stays below a day. A
fraction without whole seconds counts as nothing. -/
def readOffset : List Char → Option Int
  | ['Z'] => some 0
  | 'Z' :: _ => none
  | sign :: cs => do
      let r ← readClock cs
      let size := if r.seconds == 0 then 0 else r.seconds * second + r.micros
      if r.whole && size < day then
        some (if sign == '-' then -Int.ofNat size else Int.ofNat size)
      else none
  | [] => none

/-- The microseconds since midnight that a clock shows. -/
def ClockReading.timeOfDay? (r : ClockReading) : Option Nat :=
  let (h, m, s) := r.hoursMinutesSeconds
  if h < 24 && m < 60 && s < 60 then some (r.seconds * second + r.micros) else none

/-- Reads a time of day and perhaps an offset. What stands between the two is dropped if a clock reads
without it. -/
def readTime (date : Date) (cs : List Char) : Option Moment := do
  let r ← readClock (cs.takeWhile fun c => !beginsOffset c)
  let time ← r.timeOfDay?
  match cs.dropWhile fun c => !beginsOffset c with
  | [] => if r.whole then Moment.at? date time none else none
  | zone => do Moment.at? date time (some (← readOffset zone))

/-- Reads a moment; a date alone means its midnight. -/
def Moment.read (s : String) : Option Moment := do
  let cs := s.toList
  let width ← dateWidth cs
  let date ← readDate width cs
  if cs.length ≤ width then Moment.at? date 0 none else readTime date (cs.drop (width + 1))

end Wayfare.Calendar
