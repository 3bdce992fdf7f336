import Wayfare.Route.Path
import Wayfare.Route.Terrain

/-! # Costs between the stops of a list

Lengths and travel minutes are tabulated once for a list of stops. The costs
look them up; they depend on the direction, since congestion is that of the
block in which a trip ends.
-/

namespace Wayfare.Route

variable {P α : Type}

/-- The tables for a list of stops. -/
structure CostModel (P α : Type) where
  stops : List P
  km : List (List α)
  minutes : List (List Int)
  congestion : List α

namespace CostModel

def build [Zero α] (t : Terrain P α) (stops : List P) : Result (CostModel P α) := do
  let km := matrix t.leg stops
  let minutes ← km.mapM fun row => row.mapM t.minutes
  let congestion ← stops.mapM fun p => do return t.congestion (← t.block p)
  return ⟨stops, km, minutes, congestion⟩

/-- The position of a stop in the list; of a stop that is listed more than once, the last one. -/
def position (t : Terrain P α) (m : CostModel P α) (p : P) : Nat :=
  m.stops.length - 1 - (m.stops.reverse.findIdx fun q => t.same q p)

def entry {β : Type} (zero : β) (table : List (List β)) (i j : Nat) : β :=
  ((table[i]?).bind fun row => row[j]?).getD zero

variable [Zero α] [Add α] [Sub α] [Mul α] [IntCast α] [LT α] [DecidableLT α]

/-- The travel minutes from one stop to another, made longer by the congestion at the end. -/
def timeCost (t : Terrain P α) (m : CostModel P α) (a b : P) : α :=
  let j := position t m b
  ((entry 0 m.minutes (position t m a) j : Int) : α) * (m.congestion[j]?).getD 0

/-- What the traveller minds about going on from one stop to another: a step down in rating, and
another category. -/
def preferenceCost (t : Terrain P α) (a b : P) : α :=
  let stepDown :=
    match t.rating a, t.rating b with
    | some x, some y => atLeast 0 (x - y)
    | _, _ => 0
  if t.sameCategory a b then stepDown else stepDown + t.switchCost

/-- The weighted sum of length, time and preference. -/
def balancedCost (t : Terrain P α) (m : CostModel P α) (a b : P) : α :=
  t.lengthWeight * entry 0 m.km (position t m a) (position t m b) +
    t.timeWeight * timeCost t m a b + t.preferenceWeight * preferenceCost t a b

end CostModel

end Wayfare.Route
