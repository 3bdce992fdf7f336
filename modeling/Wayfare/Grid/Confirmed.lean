import Wayfare.Grid
import Wayfare.Fault

/-! # Placing bookings

Every booking stands on the day of its start and in the block of its hour. None
is refused or moved; bookings whose times overlap are only warned about.
-/

namespace Wayfare.Grid

open Wayfare.Calendar

/-- The number of a trip's day on which something starts, from one to the number of days. It is the
first day when the start of the trip is not known. -/
def dayIndex (start : Moment) (tripStart : Option Date) (tripDays : Int) : Int :=
  match tripStart with
  | none => 1
  | some first =>
      if tripDays ≤ 0 then 1 else max 1 (min (first.daysUntil start.date + 1) tripDays)

/-- The number of a trip's day on which something starts, from one to a number of days that need not be
whole. -/
def dayNumber (start : Moment) (tripStart : Option Date) (tripDays : Number) : Number :=
  match tripStart with
  | none => .int 1
  | some first =>
      if tripDays ≤ .int 0 then .int 1
      else atLeast (.int 1) (atMost (.int (first.daysUntil start.date + 1)) tripDays)

/-- Whether a booking comes before another or together with it, by start and then by priority. -/
def startsBefore (a b : Booking) : Bool :=
  if a.instant == b.instant then decide (a.priority ≤ b.priority)
  else decide (a.instant < b.instant)

/-- Whether the starts of all bookings can be ordered. -/
def allComparable (bookings : List Booking) : Bool :=
  Value.areComparable (bookings.map (·.start))

/-- Sorts bookings by start and priority; equal ones keep their order. Starts that cannot be ordered
are a fault. -/
def chronological (bookings : List Booking) : Result (List Booking) :=
  if allComparable bookings then .ok (bookings.mergeSort startsBefore) else .error .wrongKind

/-- A function that gives the day of a start. -/
abbrev DayIndex := Moment → Option Date → Int → Int

/-- The day on which a booking is placed, kept within the trip. -/
def dayOf (index : DayIndex) (tripStart : Option Date) (tripDays : Int) (b : Booking) : Int :=
  max 1 (min ((b.start.moment?.map fun m => index m tripStart tripDays).getD 1) tripDays)

def clashes (b : Booking) (placed : List Booking) : Result (List Value) := do
  let judged ← placed.mapM fun other => do return (other.title, ← b.overlaps other)
  return (judged.filter (·.2)).map (·.1)

def overlapWarning (b : Booking) (titles : List Value) : String :=
  "Confirmed " ++ b.title.quoted ++ " overlaps " ++ (Value.list titles).quoted ++ "; keeping both"

/-- Places bookings one by one; `placed` are those that stand already. -/
def placeInOrder (day : Booking → Int) (placed : List Booking) (days : List DayPlan) :
    List Booking → Result (List DayPlan × List String)
  | [] => .ok (days, [])
  | b :: rest => do
      let titles ← clashes b placed
      let days := modifyDay days (day b) b.block fun s => { s with confirmed := s.confirmed ++ [b] }
      let (days, warnings) ← placeInOrder day (placed ++ [b]) days rest
      return (days, if titles.isEmpty then warnings else overlapWarning b titles :: warnings)

/-- Places all bookings of a trip, and warns of overlaps. The function that gives the day of a start is
asked for once the bookings are in order. -/
def placeConfirmed (index : Result DayIndex) (tripStart : Option Date) (tripDays : Int)
    (days : List DayPlan) (bookings : List Booking) : Result (List DayPlan × List String) := do
  let sorted ← chronological bookings
  placeInOrder (dayOf (← index) tripStart tripDays) [] days sorted

end Wayfare.Grid
