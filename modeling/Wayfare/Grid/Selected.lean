import Wayfare.Category.Affinity
import Wayfare.Grid

/-! # Placing selections

The traveller's selections go to the days in turn, so many to a day, and there
into the block that suits them. A full block passes a selection on to the first
one with room; if the whole day is full it is kept all the same.
-/

namespace Wayfare.Grid

/-- The block for a category: its own unless that is full, else the first with room, else its own. -/
def bestBlock (capacity : Int) (category : String) (slots : PerBlock Slot) : Block :=
  let own := Category.preferredBlock category
  if !(slots.get own).isFull capacity then own
  else (Block.all.find? fun b => !(slots.get b).isFull capacity).getD own

/-- How many times a number that is at least one goes into a position. -/
def timesInto (position : Nat) : Number → Int
  | .int n => Int.ofNat position / n
  | .real x =>
      match Decimal.Binary.ofFloat x with
      | .finite _ m e =>
          let (num, den) := Decimal.fraction m e
          Int.ofNat (position * den / num)
      | _ => 0

def selectionDay (perDay : Number) (tripDays : Int) (position : Nat) : Int :=
  min (timesInto position (atLeast (.int 1) perDay) + 1) tripDays

def addSelection (capacity : Int) (p : Place) (d : DayPlan) : DayPlan :=
  d.modify (bestBlock capacity p.categoryText d.slots) fun s =>
    { s with selected := s.selected ++ [p] }

/-- Places selections one by one; `position` is that of the first of them. -/
def placeSelections (capacity : Int) (perDay : Number) (tripDays : Int) (position : Nat)
    (days : List DayPlan) : List Place → List DayPlan
  | [] => days
  | p :: rest =>
      let number := selectionDay perDay tripDays position
      let days := days.map fun d => if d.number = number then addSelection capacity p d else d
      placeSelections capacity perDay tripDays (position + 1) days rest

/-- Refuses selections without a category text to go by, and a capacity that is no number if there is a
selection. -/
def checkSelections (capacity : Value) (selections : List Place) : Result Int :=
  match selections with
  | [] => .ok 0
  | p :: rest => do
      let _ ← p.readCategory
      let capacity ← capacity.asCapacity
      rest.forM fun q => do
        let _ ← q.readCategory
      return capacity

end Wayfare.Grid
