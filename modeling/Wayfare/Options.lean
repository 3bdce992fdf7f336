import Wayfare.Grid.Distribution
import Wayfare.Plan.Planner
import Wayfare.Shortlist

/-! # Options

Every stage can be tuned for one use. An option that is not given is as the
settings say; a name that stands for nothing is refused.
-/

namespace Wayfare

/-- A field as it is given, with what it is when it is not given; it can be given as absent. -/
def Fields.givenOr (fields : Fields) (name : String) (default : Value) : Value :=
  (fields.lookup name).getD default

def Selector.ofOptions (s : Settings) (options : Fields) : Result Selector := do
  let categories ← match options.lookup "categories" with
    | none => .ok (Category.categories.map .text)
    | some v => Validation.entries v
  Selector.make (options.givenOr "per_category" (.int s.candidatesPerCategory))
    (options.givenOr "fetch_multiplier" (.int s.fetchMultiplier)) categories

/-- The distributor with given options. A day that is given is the day of every start. -/
def Distributor.ofOptions (s : Settings) (options : Fields) : Result Distributor :=
  Distributor.make (options.givenOr "capacity" (.int s.blockCapacity))
    (options.givenOr "places_per_day" (.int s.selectionsPerDay))
    (options.givenOr "ai_per_block" (.int s.suggestionsPerBlock)) (options.lookup "day_index")

namespace Plan

def ClusterOptions.ofOptions (s : Settings) (options : Fields) : Result ClusterOptions :=
  ClusterOptions.make (options.givenOr "init" (.text s.clusterSeeding))
    (options.givenOr "seed" (.int s.clusterSeed))
    (options.givenOr "max_iterations" (.int s.clusterIterations))
    (options.givenOr "tolerance_km" (.real s.clusterTolerance))

def RouteOptions.ofOptions (s : Settings) (options : Fields) : Result RouteOptions :=
  RouteOptions.make (options.givenOr "strategy" (.text s.routeStrategy))
    (options.givenOr "transport_mode" (.text s.defaultMode))
    (options.givenOr "max_passes" (.int s.maxPasses))
    (options.givenOr "stay_minutes" (.int s.stayMinutes))

/-- Options of a part, when some are given. -/
def given {α : Type} (options : Fields) (name : String) (read : Fields → Result α) :
    Result (Option α) :=
  match options.field name with
  | .record part => some <$> read part
  | .null => .ok none
  | _ => .error .wrongKind

/-- The planner with given options. Clustering and routing that are given are looked at before the way
suggestions are chosen, and the usual ones after it. -/
def Planner.ofOptions (s : Settings) (options : Fields) : Result Planner := do
  let clusters ← given options "clusterer" (ClusterOptions.ofOptions s)
  let routes ← given options "optimizer" (RouteOptions.ofOptions s)
  let selection ← Planner.readSelection (options.givenOr "ai_selection" (.text s.selection))
  let clusters ← clusters.elim (ClusterOptions.ofOptions s []) .ok
  let routes ← routes.elim (RouteOptions.ofOptions s []) .ok
  let perCluster ← (options.givenOr "places_per_cluster" (.int s.placesPerCluster)).asNumber
  let width := options.givenOr "beam_width" (.int s.beamWidth)
  let _ ← width.asNumber
  return {
    clusters := clusters
    routes := routes
    capacity := options.givenOr "capacity" (.int s.blockCapacity)
    placesPerCluster := atLeast (.int 1) perCluster
    selection := selection
    beamWidth := width }

end Plan

end Wayfare
