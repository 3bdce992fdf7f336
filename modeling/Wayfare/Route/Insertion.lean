import Wayfare.Route.TwoOpt

/-! # Cheapest insertion

Where a stop fits into a path with the smallest detour. Of positions that cost
the same the first is taken, and the first of all if no detour has a length.
-/

namespace Wayfare.Route

variable {P α : Type} [Zero α] [Add α] [Sub α] [LT α] [DecidableLT α] [BEq α]

/-- The detour of going from one end to another over a stop; an end that does not exist costs
nothing. -/
def detour (leg : P → P → α) (previous next : Option P) (stop : P) : α :=
  let there := legOrZero leg previous (some stop)
  let onward := legOrZero leg (some stop) next
  match previous, next with
  | some a, some b => there + onward - leg a b
  | _, _ => there + onward

/-- The detour of a stop that is put at a position of a path. -/
def detourAt (leg : P → P → α) (path : List P) (stop : P) (position : Nat) : α :=
  detour leg (if position = 0 then none else path[position - 1]?) path[position]? stop

/-- Whether a cost is one at all: nothing is left of it once it is taken off itself. -/
def isFinite (cost : α) : Bool :=
  cost - cost == 0

/-- Keeps a cost with its place unless another is lower by more than the slack. -/
def keepCheaper {β : Type} (slack : α) (best : Option (α × β)) (candidate : α × β) :
    Option (α × β) :=
  match best with
  | none => if isFinite candidate.1 then some candidate else none
  | some b => if candidate.1 < b.1 - slack then some candidate else some b

/-- The cheapest of some costs, each with its place; of equally cheap ones the first. There is none
among costs that are none. -/
def cheapest {β : Type} (slack : α) (candidates : List (α × β)) : Option (α × β) :=
  candidates.foldl (keepCheaper slack) none

/-- Puts a stop at the position from `low` to `high` where it costs the least. -/
def insertCheapest (cost : P → P → α) (slack : α) (low high : Nat) (path : List P) (stop : P) :
    List P :=
  let positions := List.range' low (high + 1 - low)
  let best := cheapest slack (positions.map fun i => (detourAt cost path stop i, i))
  path.insertIdx (best.elim low (·.2)) stop

/-- A part of a day's path between two fixed ends, either of which may be open. -/
structure Stretch (P : Type) where
  start : Option P
  members : List P
  finish : Option P

namespace Stretch

def path (s : Stretch P) : List P :=
  s.start.toList ++ s.members ++ s.finish.toList

def pins (s : Stretch P) : Pins :=
  ⟨s.start.isSome, s.finish.isSome⟩

/-- Where a stop may be put into a stretch, as positions of its path: between its fixed ends, and
anywhere at an open one. -/
def positions (s : Stretch P) : List Nat :=
  let low := if s.start.isSome then 1 else 0
  let high := if s.finish.isSome then s.path.length - 1 else s.path.length
  List.range' low (high + 1 - low)

/-- The cheapest way to put a stop into a stretch: the detour, and the position among the members. -/
def cheapestPosition (leg : P → P → α) (slack : α) (s : Stretch P) (stop : P) :
    Option (α × Nat) :=
  let offset := if s.start.isSome then 1 else 0
  cheapest slack (s.positions.map fun i => (detourAt leg s.path stop i, i - offset))

/-- The stretch with a stop at a position among its members. -/
def insert (s : Stretch P) (position : Nat) (stop : P) : Stretch P :=
  { s with members := s.members.insertIdx position stop }

end Stretch

/-- The stretches into which fixed stops split a day, from its open beginning to its open end. -/
def stretchesBetween (previous : Option P) : List P → List (Stretch P)
  | [] => [⟨previous, [], none⟩]
  | a :: rest => ⟨previous, [], some a⟩ :: stretchesBetween (some a) rest

/-- Puts a stop into the stretch where it costs the least. -/
def insertStop (leg : P → P → α) (slack : α) (day : List (Stretch P)) (stop : P) :
    List (Stretch P) :=
  let candidates := day.zipIdx.filterMap fun (s, i) =>
    (s.cheapestPosition leg slack stop).map fun (cost, position) => (cost, (i, position))
  let (i, position) := (cheapest slack candidates).elim (0, 0) (·.2)
  day.modify i (·.insert position stop)

end Wayfare.Route
