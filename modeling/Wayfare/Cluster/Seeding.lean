import Wayfare.Cluster.KMeans
import Wayfare.Cluster.Seed
import Wayfare.Cluster.Twister
import Wayfare.Geo.Distance
import Wayfare.Settings

/-! # First centres

Two ways to choose the centres from which clusters grow: points evenly spaced
in the order of their coordinates, or points drawn at random so that points far
from the centres so far are more likely.
-/

namespace Wayfare.Cluster

/-- A way to choose the first centres. -/
inductive Seeding where
  /-- Evenly spaced among the points sorted by coordinates. -/
  | spread
  /-- Drawn at random, by the squared distance from the centres so far. -/
  | plusPlus
  deriving DecidableEq, Repr

namespace Seeding

def ofName? (s : String) : Option Seeding :=
  if s == "spread" then some spread else if s == "kmeans++" then some plusPlus else none

/-- Whether a pair of coordinates comes before another or is the same, by latitude and then by
longitude. -/
def southWest (a b : Value × Value) : Bool :=
  if a.1 == b.1 then !b.2.isBelow a.2 else !b.1.isBelow a.1

/-- Whether two pairs of coordinates can be ordered: the first coordinates in which they differ can. -/
def areOrdered (a b : Value × Value) : Bool :=
  if a.1 == b.1 then a.2 == b.2 || a.2.comparable b.2 else a.1.comparable b.1

def spacedPositions (n k : Nat) : List Nat :=
  let step := Float.ofNat n / Float.ofNat k
  (List.range k).map fun i => ((Decimal.wholePart? (Float.ofNat i * step)).getD 0).toNat

/-- The positions of evenly spaced ones in the order of their coordinates. -/
def spreadPositions (pairs : List (Value × Value)) (k : Nat) : Result (List Nat) :=
  let sorted := pairs.zipIdx.mergeSort fun a b => southWest a.1 b.1
  (spacedPositions pairs.length k).mapM fun i =>
    Result.ofOption .emptyChoice ((sorted[i]?).map (·.2))

/-- The sums of the first weights, one for each weight. -/
def runningSums (sum : Float) : List Float → List Float
  | [] => []
  | w :: rest => (sum + w) :: runningSums (sum + w) rest

/-- A position drawn by weight: the first whose running sum is above a random share of the total, or
the last. -/
def chooseWeighted (weights : List Float) (t : Twister) : Result (Nat × Twister) :=
  let sums := runningSums 0.0 weights
  let (x, t) := t.nextReal
  let limit := sums.getLastD 0.0
  if limit.isNaN || limit.isInf then .error .unreadable
  else
    let share := x * limit
    .ok (min ((sums.findIdx? fun c => share < c).getD weights.length) (weights.length - 1), t)

/-- The square of a distance; that of a finite one has to be in range. -/
def squared (x : Float) : Result Float :=
  let y := Float.pow x 2.0
  if y.isInf && !x.isInf then .error .tooLarge else .ok y

/-- How far points are apart, and how much a point at some distance from the nearest centre weighs when
one is drawn. -/
structure Measure where
  gap : Point Float → Point Float → Float
  weigh : Float → Result Float

/-- Great-circle distances, and their squares. -/
def Measure.onGlobe (radius : Float) : Measure where
  gap := Geo.greatCircle radius
  weigh := squared

/-- A position drawn by the weight of the distance to the nearest centre; if no point is away from all
centres, all are equally likely. -/
def chooseFar (m : Measure) (points centres : List (Point Float)) (t : Twister) :
    Result (Nat × Twister) := do
  let weights ← points.mapM fun p =>
    match centres.map (m.gap p) with
    | [] => .ok 0.0
    | d :: ds => m.weigh (leastOf d ds)
  if total weights ≤ 0.0 then return t.choose points.length else chooseWeighted weights t

def drawMore (m : Measure) (points : List (Point Float)) (drawn : List Nat) (t : Twister) :
    Nat → Result (List Nat)
  | 0 => .ok drawn
  | more + 1 => do
      let (i, t) ← chooseFar m points (drawn.filterMap fun j => points[j]?) t
      drawMore m points (drawn ++ [i]) t more

/-- Positions drawn at random from a seed; at least one is drawn. -/
def drawnPositions (m : Measure) (seed : Int) (points : List (Point Float)) (k : Nat) :
    Result (List Nat) :=
  if points.isEmpty then .error .emptyChoice
  else
    let (i, t) := (Twister.ofSeed seed).choose points.length
    drawMore m points [i] t (k - 1)

def positions (s : Seeding) (m : Measure) (seed : Int) (points : List (Point Float)) (k : Nat) :
    Result (List Nat) :=
  match s with
  | spread => spreadPositions (points.map fun p => (.real p.lat, .real p.lon)) k
  | plusPlus => drawnPositions m seed points k

/-- The first centres for some points: some of them. -/
def centres (s : Seeding) (m : Measure) (seed : Int) (points : List (Point Float)) (k : Nat) :
    Result (List (Point Float)) := do
  return (← s.positions m seed points k).filterMap fun i => points[i]?

/-- The positions of evenly spaced places. The coordinates of the places have to be such that they can be
ordered, and the number of places one that can be counted to. -/
def spreadAmong (places : List Place) (k : Value) : Result (List Nat) := do
  let pairs := places.map fun p => (p.latitude, p.longitude)
  if !(pairs.all fun a => pairs.all (areOrdered a)) then throw .wrongKind
  let k ← k.asNumber
  if k.same (.int 0) then throw .divisionByZero
  match k with
  | .int n => spreadPositions pairs n.toNat
  | .real _ => throw .wrongKind

/-- The positions of places drawn at random. Nothing is measured for the first of them. -/
def drawnAmong (radius : Float) (seed : Int) (places : List Place) (k : Value) :
    Result (List Nat) := do
  if places.isEmpty then throw .emptyChoice
  let k := (← k.asNumber).ceiling?.getD 1
  if 1 < k && !places.all Place.isMeasurable then throw .wrongKind
  let points := places.map fun p => p.location.getD ⟨0.0, 0.0⟩
  drawnPositions (.onGlobe radius) seed points k.toNat

/-- The positions of the first centres among places of which some may have no position. -/
def among (s : Seeding) (radius : Float) (seed : Value) (places : List Place) (k : Value) :
    Result (List Nat) := do
  match s with
  | spread => spreadAmong places k
  | plusPlus => drawnAmong radius (← readSeed seed) places k

end Seeding

/-- Stops are grouped by a measure of distance, from first centres that are chosen by it too. -/
def measuredBy {P : Type} (m : Seeding.Measure) (position : P → Option (Point Float))
    (seeding : Seeding) (seed maxIterations : Int) (tolerance : Float) : Clusterer P Float where
  position := position
  gap := m.gap
  maxIterations := maxIterations
  tolerance := tolerance
  seeds := seeding.centres m seed

def onGlobe {P : Type} (s : Settings) (position : P → Option (Point Float)) (seeding : Seeding)
    (seed maxIterations : Int) (tolerance : Float) : Clusterer P Float :=
  measuredBy (.onGlobe s.earthRadius) position seeding seed maxIterations tolerance

end Wayfare.Cluster
