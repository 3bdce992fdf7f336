import Wayfare.Booking
import Wayfare.Calendar.Date
import Wayfare.Numeric

/-! # The grid

The second stage's result: for every day and every block of the trip, the
bookings that stand there, the places that the traveller chose, and ranked
suggestions for the room that is left.
-/

namespace Wayfare

open Wayfare.Calendar

def Block.named : Value → Result Block
  | .text s => Result.ofOption .missingKey (ofName? s)
  | .list _ | .record _ => .error .wrongKind
  | _ => .error .missingKey

/-- What one block of one day holds. -/
structure Slot where
  confirmed : List Booking := []
  selected : List Place := []
  suggested : List Place := []

instance : Inhabited Slot := ⟨{}⟩

namespace Slot

/-- The entries that are never dropped: bookings and selections. -/
def fixedCount (s : Slot) : Nat :=
  s.confirmed.length + s.selected.length

def room (s : Slot) (capacity : Int) : Nat :=
  (capacity - Int.ofNat s.fixedCount).toNat

/-- The room that is left by a number of either kind. -/
def roomLeft (s : Slot) (capacity : Number) : Result Number := do
  let left ← capacity.sub (.int (Int.ofNat s.fixedCount))
  return atLeast (.int 0) left

def isFull (s : Slot) (capacity : Int) : Bool :=
  decide (capacity ≤ Int.ofNat s.fixedCount)

end Slot

/-- A day of the trip. -/
structure DayPlan where
  number : Int
  date : Option Date := none
  slots : PerBlock Slot := PerBlock.ofFn fun _ => {}

namespace DayPlan

/-- The bookings of a day, block by block. -/
def confirmed (d : DayPlan) : List Booking :=
  d.slots.toList.flatMap (·.confirmed)

/-- The selections of a day, block by block. -/
def selected (d : DayPlan) : List Place :=
  d.slots.toList.flatMap (·.selected)

/-- The suggestions of a day, block by block. -/
def suggested (d : DayPlan) : List Place :=
  d.slots.toList.flatMap (·.suggested)

def modify (d : DayPlan) (b : Block) (f : Slot → Slot) : DayPlan :=
  { d with slots := d.slots.modify b f }

end DayPlan

/-- Changes one slot of the day with a given number. -/
def modifyDay (days : List DayPlan) (number : Int) (b : Block) (f : Slot → Slot) :
    List DayPlan :=
  days.map fun d => if d.number = number then d.modify b f else d

/-- The days of a trip with everything that is allotted to them. -/
structure Grid where
  threadId : Value := .text ""
  /-- The number of days as it was requested. -/
  tripDays : Value := .int 0
  start : Option Date := none
  days : List DayPlan := []

namespace Grid

def confirmedCount (g : Grid) : Nat :=
  sumNat (g.days.map fun d => d.confirmed.length)

def selectedCount (g : Grid) : Nat :=
  sumNat (g.days.map fun d => d.selected.length)

def inOrder (g : Grid) : List DayPlan :=
  g.days.mergeSort fun a b => decide (a.number ≤ b.number)

end Grid

end Wayfare
