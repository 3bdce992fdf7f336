import Wayfare.Grid.Confirmed
import Wayfare.Grid.Selected
import Wayfare.Grid.Suggested
import Wayfare.Request

/-! # Distribution

The second stage: bookings, selections and suggestions are laid out on the days
and blocks of the trip, in this order of precedence.
-/

namespace Wayfare

open Wayfare.Calendar

/-- How the grid is filled. -/
structure Distributor where
  /-- The number of entries up to which a block has room. -/
  capacity : Value
  selectionsPerDay : Number
  suggestionsPerBlock : Value
  dayIndex : Grid.DayIndex := Grid.dayIndex
  /-- The day on which every booking is placed, when one is given. -/
  fixedDay : Option Value := none

namespace Distributor

def make (capacity selectionsPerDay suggestionsPerBlock : Value) (fixedDay : Option Value) :
    Result Distributor := do
  return {
    capacity := capacity
    selectionsPerDay := atLeast (.int 1) (← selectionsPerDay.asNumber)
    suggestionsPerBlock := suggestionsPerBlock
    fixedDay := fixedDay }

/-- The day that a number stands for once it is kept within the trip; it has to be the number of one. -/
def dayNumbered (tripDays : Int) (n : Number) : Result Int :=
  if n ≤ .int 1 then .ok 1
  else if (.int tripDays) ≤ n then .ok tripDays
  else
    match n with
    | .real x => if x.isNaN then .ok 1 else Result.ofOption .missingKey n.whole?
    | .int m => .ok m

/-- The function that gives the day of a start. A fixed day is read only when there is a booking. -/
def indexFor (d : Distributor) (tripDays : Int) (bookings : List Booking) : Result Grid.DayIndex :=
  match d.fixedDay, bookings with
  | some v, _ :: _ => do
      let day ← dayNumbered tripDays (← v.asNumber)
      return fun _ _ _ => day
  | _, _ => .ok d.dayIndex

/-- The first day of a trip: as requested, else the day of the first booking. -/
def tripStart (request : TripRequest) (bookings : List Booking) : Option Date :=
  match request.startDate, bookings.filterMap Booking.startDate? with
  | some d, _ => some d
  | none, [] => none
  | none, d :: rest => some (rest.foldl min d)

/-- An empty day of the trip. -/
def emptyDay (start : Option Date) (number : Int) : Result DayPlan := do
  match start with
  | none => return { number := number }
  | some first =>
      let date ← Result.ofOption .tooLarge (first.addDays? (number - 1))
      return { number := number, date := some date }

/-- The empty days of a trip, numbered from one. -/
def emptyDays (start : Option Date) (tripDays : Int) : Result (List DayPlan) :=
  (List.range tripDays.toNat).mapM fun i => emptyDay start (Int.ofNat i + 1)

/-- The days of a trip with its bookings and selections, and warnings of bookings that overlap. -/
def placeFixed (d : Distributor) (request : TripRequest) (selected : List Place)
    (bookings : List Booking) : Result (List DayPlan × List String) := do
  let start := tripStart request bookings
  let tripDays ← request.days
  let days ← emptyDays start tripDays
  let (days, warnings) ←
    Grid.placeConfirmed (d.indexFor tripDays bookings) start tripDays days bookings
  let capacity ← Grid.checkSelections d.capacity selected
  return (Grid.placeSelections capacity d.selectionsPerDay tripDays 0 days selected, warnings)

/-- The days of a trip with suggestions out of some candidates. No candidates, or no region, means no
suggestions. -/
def suggest (s : Settings) (d : Distributor) (request : TripRequest) (selected candidates : List Place)
    (days : List DayPlan) : Result (List DayPlan) := do
  Grid.checkKeys candidates
  let pool := Grid.distinctPlaces [] candidates
  let regions ← request.regions
  if regions.isEmpty || pool.isEmpty then return days
  Grid.checkKeys selected
  Grid.fillDays s (← d.capacity.asCapacity) d.suggestionsPerBlock pool selected days

/-- Lays out a trip, and warns of bookings that overlap. The candidates are asked for once bookings and
selections are placed. -/
def distribute (s : Settings) (d : Distributor) (request : TripRequest) (selections : List Place)
    (bookings : List Booking) (candidates : Result (List Place)) : Result (Grid × List String) := do
  request.check
  let selected := selections.map (·.withSource .userSelected)
  let (days, warnings) ← d.placeFixed request selected bookings
  let days ← d.suggest s request selected (← candidates) days
  let grid : Grid :=
    { threadId := request.threadId
      tripDays := request.tripDays
      start := tripStart request bookings
      days := days }
  return (grid, warnings)

end Distributor

end Wayfare
