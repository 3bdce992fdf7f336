import Wayfare.Decimal.Fixed

/-! # Dates

Days of the Gregorian calendar from the first of January of year 1 to the last
of December of year 9999. A date is the number of its day, so moving by days
and counting the days between two dates are whole-number arithmetic.
-/

namespace Wayfare.Calendar

open Wayfare.Decimal

/-- The number of the last day, the 31st of December 9999. -/
def lastDay : Nat := 3652059

/-- A day, counted from one at the first of January of year 1. -/
structure Date where
  ordinal : Nat
  one_le_ordinal : 1 ≤ ordinal
  ordinal_le_lastDay : ordinal ≤ lastDay
  deriving DecidableEq

/-- The date with a given day number, if there is one. -/
def Date.ofOrdinal? (n : Int) : Option Date :=
  if h : 1 ≤ n ∧ n ≤ lastDay then some ⟨n.toNat, by omega, by omega⟩ else none

/-- The date `days` later, if the calendar reaches that far. -/
def Date.addDays? (d : Date) (days : Int) : Option Date :=
  Date.ofOrdinal? (Int.ofNat d.ordinal + days)

/-- The days from `d` to `other`. -/
def Date.daysUntil (d other : Date) : Int :=
  Int.ofNat other.ordinal - Int.ofNat d.ordinal

instance : Min Date where
  min a b := if b.ordinal < a.ordinal then b else a

/-- Whether a year has a 29th of February. -/
def isLeapYear (year : Nat) : Bool :=
  year % 4 == 0 && (year % 100 != 0 || year % 400 == 0)

def monthLengths (year : Nat) : List Nat :=
  [31, if isLeapYear year then 29 else 28, 31, 30, 31, 30, 31, 31, 30, 31, 30, 31]

def daysBeforeYear (year : Nat) : Nat :=
  let y := year - 1
  365 * y + y / 4 - y / 100 + y / 400

/-- The date of a year, a month and a day of the month, if there is one. -/
def Date.ofCivil? (year month day : Nat) : Option Date :=
  let lengths := monthLengths year
  match lengths[month - 1]? with
  | some length =>
      let before := (lengths.take (month - 1)).foldr (· + ·) 0
      if 1 ≤ year && year ≤ 9999 && 1 ≤ month && 1 ≤ day && day ≤ length then
        Date.ofOrdinal? (Int.ofNat (daysBeforeYear year + before + day))
      else none
  | none => none

/-- The month and the day of the month of the day at a distance from the first of January. -/
def monthAndDay (month rest : Nat) : List Nat → Nat × Nat
  | [] => (month, rest + 1)
  | length :: lengths =>
      if rest < length then (month, rest + 1) else monthAndDay (month + 1) (rest - length) lengths

/-- The year, the month and the day of the month of a date. Years are counted off in spans of 400, 100,
4 and 1; the last day of a leap span would otherwise open a span of its own. -/
def Date.civil (d : Date) : Nat × Nat × Nat :=
  let n := d.ordinal - 1
  let n400 := n % 146097
  let hundreds := min 3 (n400 / 36524)
  let n100 := n400 - 36524 * hundreds
  let n4 := n100 % 1461
  let ones := min 3 (n4 / 365)
  let year := 400 * (n / 146097) + 100 * hundreds + 4 * (n100 / 1461) + ones + 1
  let (month, day) := monthAndDay 1 (n4 - 365 * ones) (monthLengths year)
  (year, month, day)

/-- A date written as year, month and day. -/
def Date.text (d : Date) : String :=
  let (year, month, day) := d.civil
  padded 4 year ++ "-" ++ padded 2 month ++ "-" ++ padded 2 day

/-- The number of the day before the first week of a year, that is before the Monday of the week with
the fourth of January. -/
def daysBeforeWeeks (year : Nat) : Int :=
  let fourth := Int.ofNat (daysBeforeYear year) + 4
  fourth - (fourth + 6) % 7 - 1

/-- The number of weeks of a year: as many as begin before the first week of the next year. -/
def weeksOf (year : Nat) : Int :=
  (daysBeforeWeeks (year + 1) - daysBeforeWeeks year) / 7

/-- The date of a year, a week of it and a day of the week, counted from one at Monday, if there is
one. -/
def Date.ofWeek? (year week day : Nat) : Option Date :=
  if 1 ≤ year && year ≤ 9999 && 1 ≤ week && Int.ofNat week ≤ weeksOf year && 1 ≤ day && day ≤ 7 then
    Date.ofOrdinal? (daysBeforeWeeks year + Int.ofNat (7 * (week - 1) + day))
  else none

end Wayfare.Calendar
