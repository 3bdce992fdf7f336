import Wayfare.Settings
import Wayfare.Validation

/-! # Trip requests

What a traveller asks for. The fields that callers fill in freely are kept as
values; they are checked when a stage begins, and read when they are needed.
-/

namespace Wayfare

open Wayfare.Calendar Wayfare.Text

/-- A request for a trip. -/
structure TripRequest where
  threadId : Value
  destinations : Value := .list []
  tripDays : Value := .int 1
  styles : Value := .list []
  startDate : Option Date := none
  transportMode : Value := .null

namespace TripRequest

def fieldNames : List String :=
  ["thread_id", "destinations", "trip_days", "styles", "start_date", "transport_mode"]

/-- The first day of a trip: a date in text, or nothing. -/
def startOf : Value → Result (Option Date)
  | .null => .ok none
  | .text s => some <$> Result.ofOption .unreadable (Date.read s)
  | _ => .error .wrongKind

/-- A request of given fields. Only the thread has to be given; an unknown field is a fault. -/
def ofFields (s : Settings) (fields : Fields) : Result TripRequest := do
  let start ← startOf (fields.field "start_date")
  fields.onlyNamed fieldNames
  let thread ← Result.ofOption .wrongKind (fields.lookup "thread_id")
  return {
    threadId := thread
    destinations := (fields.lookup "destinations").getD (.list [])
    tripDays := (fields.lookup "trip_days").getD (.int 1)
    styles := (fields.lookup "styles").getD (.list [])
    startDate := start
    transportMode := (fields.lookup "transport_mode").getD (.text s.defaultMode) }

def toRecord (r : TripRequest) : Result Fields := do
  let destinations ← Validation.entries r.destinations
  let styles ← Validation.entries r.styles
  return [("thread_id", r.threadId), ("destinations", .list destinations),
    ("trip_days", r.tripDays), ("styles", .list styles),
    ("start_date", Value.ofText? (r.startDate.map Date.text)),
    ("transport_mode", r.transportMode)]

def check (r : TripRequest) : Result Unit := do
  let verdict ← Validation.request (← r.toRecord)
  verdict.require none

/-- The names of the destinations, trimmed; an entry that is no text has none. -/
def destinationNames (r : TripRequest) : Result (List String) := do
  (← Validation.entries r.destinations).mapM fun
    | .text s => .ok (trim s)
    | v => if v.isTruthy then .error .missingMember else .ok ""

/-- The destinations without blanks and repetitions, in order. -/
def regions (r : TripRequest) : Result (List String) := do
  return ((← r.destinationNames).filter (!·.isEmpty)).eraseDups

def days (r : TripRequest) : Result Int :=
  r.tripDays.asInt

/-- The number of days among which places are shared out, at least one. -/
def sharedDays (r : TripRequest) : Result Int :=
  r.tripDays.asRepeats

end TripRequest

end Wayfare
