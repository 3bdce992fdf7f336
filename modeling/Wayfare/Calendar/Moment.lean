import Wayfare.Calendar.Date

/-! # Moments

A moment is a date and a time of day, with or without an offset from universal
time. Two moments can be ordered only if both have an offset or both lack one.
-/

namespace Wayfare.Calendar

open Wayfare.Decimal

/-- Microseconds in a second. -/
def second : Nat := 1000000

/-- Microseconds in an hour. -/
def hour : Nat := 3600 * second

/-- Microseconds in a day. -/
def day : Nat := 24 * hour

/-- A date, the microseconds since its midnight, and perhaps the offset of the local clock ahead of
universal time, in microseconds. -/
structure Moment where
  date : Date
  clock : Nat
  offset : Option Int
  clock_lt_day : clock < day
  deriving DecidableEq

/-- The moment at so many microseconds after the midnight of a date, if the date is not over by then. -/
def Moment.at? (date : Date) (clock : Nat) (offset : Option Int) : Option Moment :=
  if h : clock < day then some ⟨date, clock, offset, h⟩ else none

def Moment.hour (m : Moment) : Nat :=
  m.clock / Calendar.hour

/-- Microseconds since the beginning of the calendar on the local clock. -/
def Moment.localTime (m : Moment) : Int :=
  Int.ofNat (m.date.ordinal * day + m.clock)

/-- Whether two moments can be ordered. -/
def Moment.comparable (a b : Moment) : Bool :=
  a.offset.isSome == b.offset.isSome

/-- Microseconds since the beginning of the calendar, in universal time where the offset is known. -/
def Moment.instant (m : Moment) : Int :=
  m.localTime - m.offset.getD 0

/-- Whether two moments are the same; a moment with an offset never equals one without. -/
def Moment.same (a b : Moment) : Bool :=
  a.comparable b && a.instant == b.instant

/-- Whether `a` comes before `b`, if they can be ordered. -/
def Moment.before? (a b : Moment) : Option Bool :=
  if a.comparable b then some (decide (a.instant < b.instant)) else none

/-- The moment `micros` later on the local clock, if the calendar reaches that far. -/
def Moment.add? (m : Moment) (micros : Int) : Option Moment :=
  let t := m.localTime + micros
  (Date.ofOrdinal? (t / Int.ofNat day)).bind fun d =>
    Moment.at? d (t % Int.ofNat day).toNat m.offset

/-- The digits of a fraction of a second, absent when it is zero. -/
def fractionText (micros : Nat) : String :=
  if micros == 0 then "" else "." ++ padded 6 micros

/-- Hours, minutes and seconds, with a fraction when there is one. -/
def clockText (micros : Nat) : String :=
  let seconds := micros / second
  padded 2 (seconds / 3600) ++ ":" ++ padded 2 (seconds / 60 % 60) ++ ":" ++
    padded 2 (seconds % 60) ++ fractionText (micros % second)

/-- An offset as sign, hours and minutes; seconds only when there are some. -/
def offsetText (offset : Int) : String :=
  let size := offset.natAbs
  let seconds := size / second
  let tail :=
    if size % (60 * second) == 0 then ""
    else ":" ++ padded 2 (seconds % 60) ++ fractionText (size % second)
  (if offset < 0 then "-" else "+") ++ padded 2 (seconds / 3600) ++ ":" ++
    padded 2 (seconds / 60 % 60) ++ tail

/-- A moment as its date and its time of day with a separator between them. -/
def Moment.textWith (separator : String) (m : Moment) : String :=
  m.date.text ++ separator ++ clockText m.clock ++ (m.offset.map offsetText).getD ""

def Moment.text (m : Moment) : String :=
  m.textWith "T"

def Moment.display (m : Moment) : String :=
  m.textWith " "

/-- A duration as it is quoted in messages: days, seconds and microseconds, zeros left out. -/
def quotedDuration (micros : Int) : String :=
  let days := micros / Int.ofNat day
  let rest := (micros % Int.ofNat day).toNat
  let part (name : String) (n : Int) : List String :=
    if n == 0 then [] else [name ++ "=" ++ toString n]
  let parts := part "days" days ++ part "seconds" (Int.ofNat (rest / second)) ++
    part "microseconds" (Int.ofNat (rest % second))
  "datetime.timedelta(" ++ (if parts.isEmpty then "0" else ", ".intercalate parts) ++ ")"

def Moment.quoted (m : Moment) : String :=
  let (year, month, dayOfMonth) := m.date.civil
  let seconds := m.clock / second
  let micros := m.clock % second
  let minor :=
    if micros != 0 then [seconds % 60, micros] else if seconds % 60 != 0 then [seconds % 60] else []
  let numbers := [year, month, dayOfMonth, seconds / 3600, seconds / 60 % 60] ++ minor
  let zone :=
    match m.offset with
    | none => []
    | some 0 => ["tzinfo=datetime.timezone.utc"]
    | some offset => ["tzinfo=datetime.timezone(" ++ quotedDuration offset ++ ")"]
  "datetime.datetime(" ++ ", ".intercalate (numbers.map toString ++ zone) ++ ")"

end Wayfare.Calendar
