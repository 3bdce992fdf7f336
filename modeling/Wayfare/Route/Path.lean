import Wayfare.Numeric

/-! # Paths

A path is a list of stops, visited from the first to the last. Its length is
the sum of its legs. Everything here works for any kind of stop and any
function that gives the length of a leg.
-/

namespace Wayfare.Route

variable {P α : Type}

/-- The legs of a path: each stop with the next. -/
def legs (path : List P) : List (P × P) :=
  path.zip path.tail

/-- The length of a path: its legs, added from the first to the last. -/
def length [Zero α] [Add α] (leg : P → P → α) (path : List P) : α :=
  total ((legs path).map fun l => leg l.1 l.2)

/-- The table of leg lengths between the stops of a list. A leg back is as long as the leg there, and
there is no way from a position to itself. -/
def matrix [Zero α] (leg : P → P → α) (stops : List P) : List (List α) :=
  stops.zipIdx.map fun (p, i) =>
    stops.zipIdx.map fun (q, j) =>
      if i < j then leg p q else if j < i then leg q p else 0

/-- Which ends of a path keep their stop. -/
structure Pins where
  start : Bool := false
  finish : Bool := false
  deriving DecidableEq, Repr

end Wayfare.Route
