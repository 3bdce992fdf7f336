import Wayfare.Numeric
import Wayfare.Settings
import Wayfare.Value.Number

/-! # Travel times

Whole minutes at the mean speed of a mode of transport, and how far a distance
counts as.
-/

namespace Wayfare.Geo

/-- The minutes to cover a distance, rounded up; none without a distance or a speed. -/
def travelMinutes {α : Type} [Zero α] [LE α] [DecidableLE α] [Div α] [Mul α] [OfNat α 60]
    (ceil : α → Result Int) (km speed : α) : Result Int :=
  if km ≤ 0 ∨ speed ≤ 0 then .ok 0 else ceil (km / speed * 60)

/-- The minutes to cover a distance given as numbers of either kind. The speed is looked at only when
there is a distance. -/
def travelMinutesOf (km speed : Value) : Result Int := do
  let km ← km.asNumber
  if km ≤ .int 0 then return 0
  let speed ← speed.asNumber
  if speed ≤ .int 0 then return 0
  ceilReal ((← km.divide speed) * 60.0)

/-- The speed of a mode of transport in km/h; every unknown mode has the same. -/
def speedOf (s : Settings) (mode : String) : Float :=
  (s.speeds.lookup (Text.lower mode)).getD s.defaultSpeed

/-- The speed of a mode of transport that is given as a value; one that counts as not given is unknown. -/
def readSpeed (s : Settings) (mode : Value) : Result Float := do
  return speedOf s ((← mode.givenText?).getD "")

/-- How far a distance counts as. -/
inductive Nearness where
  | walkable
  | near
  | far
  deriving DecidableEq, Repr

def Nearness.name : Nearness → String
  | walkable => "walkable"
  | near => "near"
  | far => "far"

/-- How far a distance counts as, given the bounds of the walkable and the near. -/
def nearness {α : Type} [LE α] [DecidableLE α] (walking near km : α) : Nearness :=
  if km ≤ walking then .walkable else if km ≤ near then .near else .far

def nearnessOf (s : Settings) (km : Float) : Nearness :=
  nearness s.walkingDistance s.nearDistance km

end Wayfare.Geo
