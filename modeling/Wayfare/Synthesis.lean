import Wayfare.Intake
import Wayfare.Itinerary
import Wayfare.Log
import Wayfare.Options

/-! # The three stages

A request is answered in three stages: a shortlist of candidates, a grid of
what is visited when, and the itinerary. Each stage checks the request anew and
reports what it has done when an event log is kept.
-/

namespace Wayfare

open Wayfare.Plan

/-- A computation that reports events. It can fail, and what it has reported by then stays in the log;
without a log nothing is kept. -/
abbrev Reporting (α : Type) := ExceptT Fault (StateM (Option Log)) α

namespace Reporting

def ofResult {α : Type} (r : Result α) : Reporting α :=
  ExceptT.mk (pure r)

def report (request : TripRequest) (kind : String) (payload : Fields) : Reporting Unit := do
  match ← get with
  | none => pure ()
  | some log =>
      match request.threadId with
      | .text session =>
          let log ← ofResult (log.append ⟨session, .text kind, .record payload⟩)
          set (some log)
      | _ => throw .wrongKind

/-- Reports that a stage is complete, with what it has to say; how long it took is left out. -/
def complete (request : TripRequest) (stage : Nat) (payload : Fields) : Reporting Unit := do
  report request ("STAGE" ++ toString stage ++ "_COMPLETE") payload
  report request "PERFORMANCE"
    [("component", .text ("ItinerarySynthesizer.stage" ++ toString stage))]

end Reporting

/-- What answers requests: the pool, the source of bookings if there is one, and how each stage works. -/
structure Synthesizer where
  settings : Settings
  pool : Pool
  source : Option BookingSource := none
  selector : Selector
  distributor : Distributor
  planner : Planner

namespace Synthesizer

open Reporting

/-- A synthesizer with options for its selector, its distributor and its planner. -/
def ofOptions (s : Settings) (pool : Pool) (source : Option BookingSource) (options : Fields) :
    Result Synthesizer := do
  let part (name : String) : Result Fields :=
    match options.field name with
    | .record fields => .ok fields
    | .null => .ok []
    | _ => .error .wrongKind
  return {
    settings := s
    pool := pool
    source := source
    selector := ← Selector.ofOptions s (← part "selector")
    distributor := ← Distributor.ofOptions s (← part "distributor")
    planner := ← Planner.ofOptions s (← part "planner") }

/-- The first stage: the shortlists of candidates. -/
def shortlist (y : Synthesizer) (request : TripRequest) : Reporting Shortlist := do
  let (result, _) ← ofResult (y.selector.select y.pool request)
  complete request 1
    [("destinations", .list (result.destinations.map .text)),
     ("total_candidates", .int (Int.ofNat result.total))]
  return result

/-- The bookings of a request when none are handed over: those that the source has for its thread. -/
def bookingsFor (y : Synthesizer) (request : TripRequest) : Result (List Offer) :=
  match y.source with
  | none => .ok []
  | some source => do
      let thread ← Result.ofOption .wrongKind request.threadId.ident?
      return (source.forThread thread).map .booking

/-- The second stage: the grid. Without bookings the source is asked, and without candidates the first
stage is run. -/
def grid (y : Synthesizer) (request : TripRequest) (selections : List Selection)
    (offers : Option (List Offer)) (candidates : Option (Result (List Place))) : Reporting Grid := do
  ofResult request.check
  let places ← ofResult (selections.mapM Selection.toPlace)
  let offers ← ofResult (offers.elim (y.bookingsFor request) .ok)
  let bookings ← ofResult (offers.mapM Offer.toBooking)
  let candidates ←
    match candidates with
    | some given => pure given
    | none => do
        let shortlist ← y.shortlist request
        pure (.ok shortlist.all)
  let (result, _) ←
    ofResult (y.distributor.distribute y.settings request places bookings candidates)
  complete request 2
    [("trip_days", result.tripDays),
     ("confirmed", .int (Int.ofNat result.confirmedCount)),
     ("user_selected", .int (Int.ofNat result.selectedCount))]
  return result

/-- The length of an itinerary as it is reported: a whole zero when nothing is travelled. -/
def reportedLength (i : Itinerary) : Value :=
  if i.routes.all (·.segments.isEmpty) then .int 0 else .real (Decimal.roundTo 3 i.km)

/-- The third stage: the itinerary, from the grid or else from a plain list of places. -/
def itinerary (y : Synthesizer) (request : TripRequest) (grid : Option Grid)
    (places : List Selection) : Reporting Itinerary := do
  ofResult request.check
  let planned ←
    match grid with
    | some g => ofResult (y.planner.planGrid y.settings g request)
    | none => do
        let places ← ofResult (places.mapM Selection.toPlace)
        ofResult (y.planner.planPlaces y.settings places request)
  let result ← ofResult (Itinerary.ofPlan planned)
  complete request 3
    [("days", .int (Int.ofNat result.days.length)),
     ("total_places", .int (Int.ofNat result.statistics.totalPlaces)),
     ("total_distance_km", reportedLength result),
     ("total_duration_minutes", .ofNumber result.durationMinutes)]
  return result

/-- All three stages, one after the other. -/
def synthesize (y : Synthesizer) (request : TripRequest) (selections : List Selection)
    (offers : Option (List Offer)) : Reporting Itinerary := do
  let candidates ← y.shortlist request
  let grid ← y.grid request selections offers (some (.ok candidates.all))
  y.itinerary request (some grid) []

end Synthesizer

end Wayfare
