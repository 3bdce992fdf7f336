import Wayfare.Choice

/-! # Nearest neighbour

A walk that always goes on to the closest of the stops that are left. Of
equally close ones it takes the first.
-/

namespace Wayfare.Route

variable {P α : Type} [LT α] [DecidableLT α]

/-- The walk over some stops from a place that is not one of them. -/
def walkFrom (leg : P → P → α) (from_ : P) : List P → List P
  | [] => []
  | x :: rest =>
      let choice := Choice.least (leg from_) x rest
      choice.best :: walkFrom leg choice.best choice.others
termination_by stops => stops.length
decreasing_by simp [Choice.least]

def walk (leg : P → P → α) : List P → List P
  | [] => []
  | x :: rest => x :: walkFrom leg x rest

/-- The walk that begins with the first stop that is the one wanted, or with the first stop. -/
def walkStarting (leg : P → P → α) (wanted : P → Bool) (stops : List P) : List P :=
  match stops.findIdx? wanted with
  | none => walk leg stops
  | some i => walk leg ((stops[i]?).toList ++ stops.eraseIdx i)

end Wayfare.Route
