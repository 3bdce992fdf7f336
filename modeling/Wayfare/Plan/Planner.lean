import Wayfare.Grid.Confirmed
import Wayfare.Grid.Suggested
import Wayfare.Plan.Selection
import Wayfare.Plan.Stop
import Wayfare.Request

/-! # Planning a trip

The third stage: the grid, or a plain list of places, becomes one route a day.
Places whose position is not known stay on their day but are not routed.
-/

namespace Wayfare.Plan

open Wayfare.Calendar Wayfare.Cluster Wayfare.Route

/-- One day of a plan, under its label. -/
structure PlannedDay where
  number : Value
  date : Option Date
  route : Annotated Place Float
  slots : List TimeSlot
  unrouted : List Place

/-- How trips are planned. -/
structure Planner where
  clusters : ClusterOptions
  routes : RouteOptions
  capacity : Value
  placesPerCluster : Number
  selection : SelectionMode
  beamWidth : Value

namespace Planner

/-- The way of choosing suggestions that a name stands for. -/
def readSelection (selection : Value) : Result SelectionMode :=
  match selection with
  | .text name => Result.ofOption (.unknownSelection selection.quoted) (SelectionMode.ofName? name)
  | _ => .error (.unknownSelection selection.quoted)

/-- The groups of stops of which some will be measured. -/
def clusterMeasured (s : Settings) (p : Planner) (stops : List Stop) (k : Int) :
    Result (Assignment Stop Float) := do
  if stops.any fun a => a.place.isLocated && !a.place.isMeasurable then throw .wrongKind
  p.clusters.cluster s stops k

def router (s : Settings) (p : Planner) : Router Stop Float where
  leg := Stop.distance s
  slack := slack
  position := fun a => a.place.location
  gap := Geo.greatCircle s.earthRadius
  cluster := p.clusterMeasured s
  arrange := p.routes.optimize s
  stopsPerCluster := p.placesPerCluster

def orderStops (s : Settings) (p : Planner) (stops : List Stop) (start : Option Stop) :
    Result (List Stop) := do
  let places := stops.map (·.place)
  if p.placesPerCluster < .int (Int.ofNat stops.length) && places.any Place.isLocated then
    if start.any fun a => a.place.isLocated && !a.place.isMeasurable then throw .wrongKind
  orderByClusters (p.router s) stops start

/-- The route of a day through fixed and flexible stops. -/
def routeStops (s : Settings) (p : Planner) (mode day : Value) (anchors flexible : List Stop) :
    Result (Annotated Stop Float) := do
  Geo.checkAll ((anchors ++ flexible).map (·.place))
  routeDay (p.router s) (p.routes.meter s mode) day anchors flexible

/-- The route of a day through the sites of bookings and flexible places. -/
def routePlaces (s : Settings) (p : Planner) (mode day : Value) (anchors flexible : List Place) :
    Result (Annotated Place Float) := do
  let stops := Stop.number 0 flexible
  let fixed := Stop.number stops.length anchors
  return (← p.routeStops s mode day fixed stops).map (·.place)

/-- The sites of a day's bookings by their start. Starts that cannot be ordered are a fault. -/
def anchorsOf (d : DayPlan) : Result (List Place) := do
  Value.sortBy (·.fixedTime) (← Booking.sites d.confirmed)

/-- The plan of one day of the grid, and the identifiers used after it. -/
def planDay (s : Settings) (p : Planner) (mode : Value) (used : List Ident) (label : Value)
    (d : DayPlan) : Result (PlannedDay × List Ident) := do
  let (slots, used) ← selectDay s p.selection mode p.capacity p.beamWidth used d
  let anchors ← anchorsOf d
  let flexible := slots.flatMap (·.places)
  let route ← p.routePlaces s mode label anchors (flexible.filter Place.isLocated)
  let unrouted := flexible.filter fun q => !q.isLocated
  return (⟨label, d.date, route, slots, unrouted⟩, used)

/-- The plans of days one after the other; no place is visited twice. -/
def planDays (s : Settings) (p : Planner) (mode : Value) (used : List Ident) :
    List (Value × DayPlan) → Result (List PlannedDay)
  | [] => .ok []
  | (label, d) :: rest => do
      let (day, used) ← p.planDay s mode used label d
      return day :: (← p.planDays s mode used rest)

/-- Puts a day under its label, in the place of an earlier one with that label. -/
def putDay (days : List (Value × DayPlan)) (label : Value) (d : DayPlan) :
    List (Value × DayPlan) :=
  if days.any fun e => e.1.ident? == label.ident? then
    days.map fun e => if e.1.ident? == label.ident? then (e.1, d) else e
  else days ++ [(label, d)]

/-- The plan of days under labels, in the order of the labels. Of two days with one label the later
counts. -/
def planLabelled (s : Settings) (p : Planner) (days : List (Value × DayPlan))
    (request : TripRequest) : Result (List PlannedDay) := do
  if days.any fun e => e.1.ident?.isNone then throw .wrongKind
  let kept := days.foldl (fun kept e => putDay kept e.1 e.2) []
  p.planDays s request.transportMode [] (← Value.sortBy (·.1) kept)

def planGrid (s : Settings) (p : Planner) (grid : Grid) (request : TripRequest) :
    Result (List PlannedDay) :=
  p.planDays s request.transportMode [] (grid.inOrder.map fun d => (.int d.number, d))

def slotsByCategory (places : List Place) : List TimeSlot :=
  Block.all.map fun b =>
    { block := b, places := places.filter fun q => Category.preferredBlock q.categoryText == b }

/-- The places of each day of a trip: clusters shared out among the days, then the places without a
position one by one. -/
def shareOutPlaces (s : Settings) (p : Planner) (tripDays : Int) (places : List Place) :
    Result (List (List Place)) := do
  let stops := Stop.number 0 (Grid.distinctPlaces [] places)
  let assignment ← p.clusters.cluster s stops tripDays
  let days := shareOut tripDays.toNat (assignment.groups.map (·.members))
  let days := assignment.unclustered.foldl (fun days q => ontoLightest days [q]) days
  return days.map fun day => day.map (·.place)

/-- The plan of one day of a list of places. -/
def planMembers (s : Settings) (p : Planner) (request : TripRequest) (number : Int)
    (members : List Place) : Result PlannedDay := do
  let route ← p.routePlaces s request.transportMode (.int number) []
    (members.filter Place.isLocated)
  let date ← match request.startDate with
    | none => .ok none
    | some first => some <$> Result.ofOption .tooLarge (first.addDays? (number - 1))
  members.forM fun q => do
    let _ ← q.readCategory
  return ⟨.int number, date, route, slotsByCategory members, members.filter fun q => !q.isLocated⟩

def planPlaces (s : Settings) (p : Planner) (places : List Place) (request : TripRequest) :
    Result (List PlannedDay) := do
  Grid.checkKeys places
  let tripDays ← request.sharedDays
  let days ← p.shareOutPlaces s tripDays places
  days.zipIdx.mapM fun (members, i) => p.planMembers s request (Int.ofNat i + 1) members

end Planner

end Wayfare.Plan
