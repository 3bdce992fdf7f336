import Wayfare.Plan.Planner

/-! # The itinerary

Planned days folded into one itinerary, with sums over its routes and figures
about its places.
-/

namespace Wayfare

open Wayfare.Calendar Wayfare.Plan Wayfare.Route

/-- A day of the itinerary: its places in visiting order and what its blocks hold. -/
structure DayItinerary where
  number : Value
  date : Option Date := none
  places : List Place := []
  slots : List TimeSlot := []
  route : Option (Annotated Place Float) := none

/-- Figures about the places of an itinerary. -/
structure TripStatistics where
  totalPlaces : Nat
  userSelected : Nat
  aiRecommended : Nat
  confirmed : Nat
  userSelectedRatio : Float
  averageRating : Float
  totalReviews : Number
  /-- The number of places of each category, in the order of first occurrence. -/
  categories : List (Value × Nat)

/-- A whole trip, without the moment at which it was put together. -/
structure Itinerary where
  days : List DayItinerary
  routes : List (Annotated Place Float)
  km : Float
  durationMinutes : Number
  statistics : TripStatistics

namespace Itinerary

/-- How often each of some values occurs, in the order of first occurrence. -/
def tally (values : List Value) : List (Value × Nat) :=
  (values.foldl (fun seen v => if seen.contains v then seen else seen ++ [v]) []).map fun v =>
    (v, values.countP (· == v))

/-- The categories of some places that count as given; each has to be one that can be told apart. -/
def givenCategories (places : List Place) : Result (List Value) :=
  ((places.map (·.category)).filter Value.isTruthy).mapM fun v => do
    let _ ← Result.ofOption .wrongKind v.ident?
    return v

/-- The mean rating of some places. A missing rating counts as zero. -/
def meanRating (places : List Place) : Result Float := do
  let ratings ← places.mapM fun p => p.rating.numberOrZero
  if places.isEmpty then return 0.0
  else (Number.sum ratings).divide (.int (Int.ofNat places.length))

/-- The figures about the places of some days. A missing rating counts as zero, a missing category not
at all. -/
def statisticsOf (days : List DayItinerary) : Result TripStatistics := do
  let places := days.flatMap (·.places)
  let selected := places.countP fun p => p.source == .userSelected
  let suggested := places.countP fun p => p.source == .aiRecommended
  let chosen := selected + suggested
  let categories ← givenCategories places
  let rating ← meanRating places
  let reviews ← places.mapM fun p => p.reviewCount.numberOrZero
  return {
    totalPlaces := places.length
    userSelected := selected
    aiRecommended := suggested
    confirmed := sumNat ((days.flatMap (·.slots)).map fun s => s.confirmed.length)
    userSelectedRatio :=
      if chosen = 0 then 0.0 else Float.ofNat selected / Float.ofNat chosen
    averageRating := rating
    totalReviews := Number.sum reviews
    categories := tally categories }

/-- A day of the itinerary from its route and the places that are not routed. -/
def assembleDay (number : Value) (date : Option Date) (route : Annotated Place Float)
    (slots : List TimeSlot) (unrouted : List Place) : DayItinerary where
  number := number
  date := date
  places := route.stops ++ unrouted
  slots := slots
  route := some route

/-- The itinerary of some days, by their numbers. Its routes are those of the days unless others are
given. -/
def assemble (days : List DayItinerary) (routes : Option (List (Annotated Place Float))) :
    Result Itinerary := do
  let sorted ← Value.sortBy (·.number) days
  let routes := routes.getD (sorted.filterMap (·.route))
  return {
    days := sorted
    routes := routes
    km := total (routes.map (·.km))
    durationMinutes := Number.sum (routes.map (·.durationMinutes))
    statistics := ← statisticsOf sorted }

def ofPlan (planned : List PlannedDay) : Result Itinerary :=
  assemble (planned.map fun d => assembleDay d.number d.date d.route d.slots d.unrouted) none

end Itinerary

end Wayfare
