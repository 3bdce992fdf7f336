import Wayfare.Category.Affinity
import Wayfare.Cluster.Seeding
import Wayfare.Geo.Travel
import Wayfare.Plan.Router
import Wayfare.Route.Strategy

/-! # Stops on the globe

A stop is a place with a number of its own, so that two entries of a list can
be told to be one and the same stop. Here the routing of a day meets the
settings and the places of a trip.
-/

namespace Wayfare.Plan

open Wayfare.Geo Wayfare.Route Wayfare.Cluster

/-- A place as an entry of a list of stops; entries with one number are the same stop. -/
structure Stop where
  visit : Nat
  place : Place

instance : Inhabited Stop := ⟨⟨0, default⟩⟩

namespace Stop

/-- Places as stops of their own, numbered from `first`. -/
def number (first : Nat) (places : List Place) : List Stop :=
  places.zipIdx.map fun (p, i) => ⟨first + i, p⟩

def distance (s : Settings) (a b : Stop) : Float :=
  Geo.distance s.earthRadius a.place b.place

end Stop

/-- How much a category deserves to be visited first in its block. -/
def keyWeights : List (String × Float) :=
  [("attraction", 5.0), ("restaurant", 4.0), ("shopping", 3.0), ("cafe", 2.0)]

/-- How much a place deserves to be visited first in its block: by its rating and its category. -/
def keyWeight (p : Place) : Float :=
  p.stars * 2.0 +
    ((Category.ofText? p.categoryText).bind fun key => keyWeights.lookup key).getD 2.5

/-- Whether two places have the same category text, whatever the case of its letters. -/
def sameCategory (a b : Place) : Bool :=
  Text.lower a.categoryText == Text.lower b.categoryText

/-- By how much a change has to improve a path to be made, in kilometres or units of cost. -/
def slack : Float := 1e-9

def terrain (s : Settings) : Terrain Stop Float where
  leg := Stop.distance s
  slack := slack
  same := fun a b => a.visit == b.visit
  walkable := fun a b => nearnessOf s (Stop.distance s a b) == .walkable
  block := fun a => Category.visitBlock a.place
  minutes := fun km => travelMinutes ceilReal km (speedOf s s.congestionMode)
  congestion := s.congestion.get
  congestedAbove := s.congestedAbove
  rating := fun a => a.place.stars?
  keyWeight := fun a => keyWeight a.place
  sameCategory := fun a b => sameCategory a.place b.place
  lengthWeight := s.balancedDistance
  timeWeight := s.balancedTime
  preferenceWeight := s.balancedPreference
  switchCost := s.categorySwitch

/-- Refuses places between which a step down in rating or another category could not be told. -/
def checkPreferences (places : List Place) : Result Unit := do
  places.forM fun p => do
    let _ ← p.readCategory
  let rated := places.filter fun p => !p.rating.isNull
  if 1 < rated.length then
    rated.forM fun p => do
      let _ ← p.rating.asReal

/-- Refuses places of which it could not be told how much they deserve to be visited first. -/
def checkKeyWeights (places : List Place) : Result Unit :=
  places.forM fun p => do
    let _ ← p.readCategory
    let _ ← (← p.rating.numberOrZero).toReal?

/-- How stops are grouped. The numbers are read when there are stops to be grouped. -/
structure ClusterOptions where
  seeding : Seeding
  seed : Value
  maxIterations : Value
  tolerance : Value

namespace ClusterOptions

def make (seeding seed maxIterations tolerance : Value) : Result ClusterOptions := do
  let s ← match seeding with
    | .text name => Result.ofOption (.unknownSeeding seeding.quoted) (Seeding.ofName? name)
    | .list _ | .record _ => .error .wrongKind
    | _ => .error (.unknownSeeding seeding.quoted)
  let _ ← maxIterations.asNumber
  return ⟨s, seed, maxIterations, tolerance⟩

def clusterer (s : Settings) (o : ClusterOptions) : Result (Clusterer Stop Float) := do
  let seed ← match o.seeding with
    | .spread => .ok 0
    | .plusPlus => readSeed o.seed
  return onGlobe s (fun a => a.place.location) o.seeding seed (← o.maxIterations.asRepeats)
    (← o.tolerance.asMagnitude)

/-- Groups stops around at most `k` centres. If there are as many centres as stops, nothing is measured
and no option is looked at. -/
def cluster (s : Settings) (o : ClusterOptions) (stops : List Stop) (k : Int) :
    Result (Assignment Stop Float) := do
  let located := stops.filter fun a => a.place.isLocated
  if located.length ≤ (max 1 k).toNat then return apart (fun a => a.place.location) stops
  if !(located.all fun a => a.place.isMeasurable) then throw .wrongKind
  Cluster.cluster (← o.clusterer s) stops k

/-- Groups stops around a number of centres that is given as a value. -/
def clusterBy (s : Settings) (o : ClusterOptions) (stops : List Stop) (k : Value) :
    Result (Assignment Stop Float) := do
  let located := stops.filter fun a => a.place.isLocated
  o.cluster s stops (← groupCount located.length k)

end ClusterOptions

/-- How a day's stops are put in order. The numbers are read when they are needed. -/
structure RouteOptions where
  strategy : Strategy
  mode : Value
  maxPasses : Value
  stayMinutes : Value

namespace RouteOptions

def make (strategy mode maxPasses stayMinutes : Value) : Result RouteOptions := do
  let s ← match strategy with
    | .text name => Result.ofOption (.unknownStrategy strategy.quoted) (Strategy.ofName? name)
    | .list _ | .record _ => .error .wrongKind
    | _ => .error (.unknownStrategy strategy.quoted)
  return ⟨s, mode, maxPasses, stayMinutes⟩

def checkStops (o : RouteOptions) (pins : Pins) (stops : List Stop) : Result Unit := do
  checkAll (stops.map (·.place))
  if o.strategy = .balanced then
    stops.forM fun a => do
      let _ ← Category.visitBlock a.place
    checkKeyWeights ((splitPinned pins stops).2.1.map (·.place))
    checkPreferences (stops.map (·.place))

/-- The most passes of improvement; the strategy by blocks makes none. -/
def passes (o : RouteOptions) : Result Int :=
  if o.strategy = .time then .ok 1 else o.maxPasses.asRepeats

/-- The stops in the order of the strategy. -/
def optimize (s : Settings) (o : RouteOptions) (pins : Pins) (stops : List Stop) :
    Result (List Stop) := do
  if stops.length ≤ 2 then
    checkLegs (stops.map (·.place))
    return stops
  else
    o.checkStops pins stops
    Route.optimize (terrain s) o.strategy pins (← o.passes) stops

/-- The mode of transport of a route: the one asked for, else that of the options. -/
def modeFor (o : RouteOptions) (mode : Value) : Value :=
  if mode.isTruthy then mode else o.mode

def meter (s : Settings) (o : RouteOptions) (mode : Value) : Result (Meter Stop Float) := do
  let mode := o.modeFor mode
  let speed ← readSpeed s mode
  let stay ← o.stayMinutes.asNumber
  return {
    leg := Stop.distance s
    minutes := fun km => travelMinutes ceilReal km speed
    nearness := nearnessOf s
    stayMinutes := stay
    mode := mode }

/-- The route through stops in the order in which they are given. -/
def route (s : Settings) (o : RouteOptions) (mode day : Value) (raw : Option Float)
    (stops : List Stop) : Result (Annotated Stop Float) := do
  let meter ← o.meter s mode
  checkLegs (stops.map (·.place))
  annotate meter day raw stops

/-- The route through stops in the order of the strategy, measured against the given order. -/
def optimizedRoute (s : Settings) (o : RouteOptions) (mode day : Value) (pins : Pins)
    (stops : List Stop) : Result (Annotated Stop Float) := do
  checkLegs (stops.map (·.place))
  let ordered ← o.optimize s pins stops
  o.route s mode day (some (length (Stop.distance s) stops)) ordered

end RouteOptions

end Wayfare.Plan
