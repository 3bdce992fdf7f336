import Wayfare.Geo.Distance
import Wayfare.Geo.Travel
import Wayfare.Grid.Suggested
import Wayfare.Plan.Beam

/-! # Final selection

What is visited of all that stands on the grid: every selection, and as many
suggestions as a block has room for. A place that has been taken anywhere on
the trip is not taken again.
-/

namespace Wayfare.Plan

open Wayfare.Geo

variable {α : Type}

/-- What a block of a planned day holds. -/
structure TimeSlot where
  block : Block
  confirmed : List Booking := []
  places : List Place := []

/-- How suggestions are chosen. -/
inductive SelectionMode where
  /-- In the order of their rank. -/
  | rank
  /-- In the order of their rank, after the pick of a beam search over the day. -/
  | beam
  deriving DecidableEq, Repr

def SelectionMode.ofName? (s : String) : Option SelectionMode :=
  if s == "rank" then some rank else if s == "beam" then some beam else none

/-- The first so many places whose identifiers are not used yet, and the identifiers used then. No place
is looked at once there is no room. -/
def takeNew (room : Nat) (used : List Ident) : List Place → Result (List Place × List Ident)
  | [] => .ok ([], used)
  | p :: rest =>
      match room with
      | 0 => .ok ([], used)
      | room + 1 => do
          let key ← p.readKey
          -- A place that is used already takes no room.
          if used.contains key then takeNew (room + 1) used rest
          else
            let (taken, used) ← takeNew room (key :: used) rest
            return (p :: taken, used)

/-- The suggestions of a block with its pick moved to the front. -/
def withPick (pick : Option Place) (ranked : List Place) : List Place :=
  match pick with
  | none => ranked
  | some p => p :: ranked.filter fun q => q.id != p.id

def selectSlot (capacity : Int) (pick : Option Place) (used : List Ident) (s : Slot) :
    Result (List Place × List Ident) := do
  let (chosen, used) ← takeNew s.selected.length used s.selected
  let (added, used) ← takeNew (s.room capacity) used (withPick pick s.suggested)
  return (chosen ++ added, used)

/-- What is visited in some blocks of a day, one after the other. -/
def selectBlocks (capacity : Int) (picks : List (Block × Place)) (d : DayPlan)
    (used : List Ident) : List Block → Result (List TimeSlot × List Ident)
  | [] => .ok ([], used)
  | b :: rest => do
      let slot := d.slots.get b
      let (places, used) ← selectSlot capacity (picks.lookup b) used slot
      let (slots, used) ← selectBlocks capacity picks d used rest
      return (⟨b, slot.confirmed, places⟩ :: slots, used)

/-- The kilometres and the minutes to a place, none from nowhere. -/
def stepWay (s : Settings) (speed : Float) (previous : Option Place) (p : Place) :
    Result (Float × Int) := do
  match previous with
  | none => return (0.0, 0)
  | some q =>
      checkPair (some q) (some p)
      let km := distance s.earthRadius q p
      return (km, ← travelMinutes ceilReal km speed)

/-- The cost of going on to a place: the way, the time and how far its rating is from the best. -/
def stepCost (s : Settings) (speed : Float) (previous : Option Place) (p : Place) :
    Result Float := do
  let (km, minutes) ← stepWay s speed previous p
  let wayCost ← divide (s.beamDistance * km) s.beamDistanceUnit
  let timeCost ← divide (s.beamTime * Float.ofInt minutes) s.beamTimeUnit
  let stars ← if p.rating.isNull then .ok 0.0 else p.rating.asReal
  return wayCost + timeCost + s.beamRating * (5.0 - stars) / 5.0

/-- The options of a slot with room: suggestions with a position that are not excluded. -/
def optionsOf (capacity : Int) (excluded : List Ident) (s : Slot) : Result (List Place) :=
  if s.room capacity = 0 then .ok []
  else do
    let located := s.suggested.filter Place.isLocated
    Grid.checkKeys located
    return located.filter fun p => !excluded.contains p.key

/-- The layers of a day for the search. Options have a position, and they are neither used nor among
the day's selections. -/
def layersOf (capacity : Int) (used : List Ident) (d : DayPlan) : Result (List (Layer Place)) := do
  Grid.checkKeys d.selected
  let excluded := used ++ d.selected.map (·.key)
  Block.all.mapM fun b => do
    let slot := d.slots.get b
    return {
      block := b
      fixed := (← Booking.sites slot.confirmed) ++ slot.selected.filter Place.isLocated
      options := ← optionsOf capacity excluded slot }

/-- The partial day that a search finds for a day, going on at the costs of `step`. The width is looked at
only when there is something to pick. -/
def searchDay [Zero α] [Add α] [LT α] [DecidableLT α] [BEq α]
    (step : Option Place → Place → Result α) (capacity : Int) (width : Value) (used : List Ident)
    (d : DayPlan) : Result (Partial Place α) := do
  let layers ← layersOf capacity used d
  let width ← if layers.all (·.options.isEmpty) then .ok 1 else width.asRepeats
  searchBeam (·.key) step width layers

/-- The pick of the search for each block that has one. -/
def beamPicks (s : Settings) (speed : Float) (capacity : Int) (width : Value) (used : List Ident)
    (d : DayPlan) : Result (List (Block × Place)) := do
  let best ← searchDay (stepCost s speed) capacity width used d
  return best.picks

/-- What is visited on a day, block by block, and the identifiers used then. -/
def selectDay (s : Settings) (selection : SelectionMode) (mode capacity width : Value)
    (used : List Ident) (d : DayPlan) : Result (List TimeSlot × List Ident) := do
  match selection with
  | .rank => selectBlocks (← capacity.asCapacity) [] d used Block.all
  | .beam => do
      let speed ← readSpeed s (if mode.isTruthy then mode else .text s.defaultMode)
      let capacity ← capacity.asCapacity
      let picks ← beamPicks s speed capacity width used d
      selectBlocks capacity picks d used Block.all

end Wayfare.Plan
