import Wayfare.Category.Affinity
import Wayfare.Grid
import Wayfare.Score

/-! # Suggestions

A block that is not full is offered the best-scored candidates that suit it and
that are neither selected by the traveller nor suggested earlier in the day.
-/

namespace Wayfare.Grid

def distinctPlaces (seen : List Ident) : List Place → List Place
  | [] => []
  | p :: rest =>
      if seen.contains p.key then distinctPlaces seen rest
      else p :: distinctPlaces (p.key :: seen) rest

def checkKeys (places : List Place) : Result Unit :=
  places.forM fun p => do
    let _ ← p.readKey

/-- The located places that a day is built around: its selections and the sites of its bookings. -/
def references (d : DayPlan) : Result (List Place) := do
  return d.selected.filter Place.isLocated ++ (← Booking.sites d.confirmed)

def eligible (pool : List Place) (taken : List Ident) (b : Block) : List Place :=
  pool.filter fun p => !taken.contains p.key && Category.fits p b

/-- Refuses candidates that may still be suggested and have no category text to go by. -/
def checkEligible (pool : List Place) (taken : List Ident) : Result Unit :=
  (pool.filter fun p => !taken.contains p.key).forM fun p => do
    let _ ← p.readCategory

/-- Fills blocks one by one. `top` picks the best of some candidates, and `taken` are the identifiers
that may not be suggested any more. -/
def fillBlocks (capacity : Int) (pool : List Place) (top : List Place → Result (List Place))
    (taken : List Ident) (d : DayPlan) : List Block → Result DayPlan
  | [] => .ok d
  | b :: rest =>
      if (d.slots.get b).isFull capacity then fillBlocks capacity pool top taken d rest
      else do
        checkEligible pool taken
        let best ← top (eligible pool taken b)
        let d := d.modify b fun s =>
          { s with suggested := s.suggested ++ best.map (·.withSource .aiRecommended) }
        fillBlocks capacity pool top (taken ++ best.map (·.key)) d rest

/-- Fills the blocks of a day. Candidates are ranked by the day's references, or by the located
selections of the whole trip when the day has none. -/
def fillDay (s : Settings) (capacity : Int) (limit : Value) (pool selected : List Place)
    (d : DayPlan) : Result DayPlan := do
  let own ← references d
  let refs := if own.isEmpty then selected.filter Place.isLocated else own
  fillBlocks capacity pool (fun ps => Score.topPlaces s refs ps limit) (selected.map (·.key)) d
    Block.all

def fillDays (s : Settings) (capacity : Int) (limit : Value) (pool selected : List Place)
    (days : List DayPlan) : Result (List DayPlan) :=
  days.mapM (fillDay s capacity limit pool selected)

end Wayfare.Grid
