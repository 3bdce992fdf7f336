import Wayfare.Block
import Wayfare.Fault

/-! # Terrain

What the ordering of a day's stops depends on: how far they lie apart, which
block and category each belongs to, how it is rated, and the weights and bounds
of the route strategies.
-/

namespace Wayfare.Route

/-- What the route strategies know about stops of a kind, with lengths in a number type. -/
structure Terrain (P α : Type) where
  leg : P → P → α
  /-- By how much a change has to improve a path to be made. -/
  slack : α
  /-- Whether two entries of a list are one and the same stop. -/
  same : P → P → Bool
  walkable : P → P → Bool
  block : P → Result Block
  /-- The travel minutes for a length, on roads without congestion. -/
  minutes : α → Result Int
  /-- How much longer a trip into a block takes. -/
  congestion : Block → α
  /-- Above this congestion a block is walked group by group. -/
  congestedAbove : α
  rating : P → Option α
  /-- How much a stop deserves to be visited first in its block. -/
  keyWeight : P → α
  sameCategory : P → P → Bool
  /-- The weights of length, time and preference in the balanced cost. -/
  lengthWeight : α
  timeWeight : α
  preferenceWeight : α
  /-- The preference cost of going on to another category. -/
  switchCost : α

end Wayfare.Route
