import Wayfare.Geo.Travel
import Wayfare.Route.Path

/-! # Annotated routes

A visiting order with the length and the travel time of every leg, their sums,
and how they compare with the order before it was improved.
-/

namespace Wayfare.Route

open Wayfare.Geo

variable {P α : Type}

/-- A leg of a route. -/
structure Segment (P α : Type) where
  origin : P
  destination : P
  km : α
  minutes : Int
  nearness : Nearness

/-- A day's visiting order with its lengths and times, under the label of its day. -/
structure Annotated (P α : Type) where
  day : Value
  stops : List P
  segments : List (Segment P α)
  km : α
  /-- The length of the order before it was improved. -/
  rawKm : α
  travelMinutes : Int
  stayMinutes : Number
  mode : Value
  averageKm : α
  averageMinutes : α
  /-- The length as a share of the raw length, one if that is zero. -/
  rate : α

/-- What annotation needs besides the order. -/
structure Meter (P α : Type) where
  leg : P → P → α
  minutes : α → Result Int
  nearness : α → Nearness
  stayMinutes : Number
  mode : Value

section

variable [Zero α] [One α] [Add α] [Sub α] [Div α] [LT α] [DecidableLT α] [NatCast α] [IntCast α]

def segment (m : Meter P α) (l : P × P) : Result (Segment P α) := do
  let km := m.leg l.1 l.2
  return ⟨l.1, l.2, km, ← m.minutes km, m.nearness km⟩

/-- A mean over the segments of a route, zero when there are none. -/
def mean (n : Nat) (x : α) : α :=
  if n = 0 then 0 else x / (n : α)

/-- The annotation of a visiting order. Without a raw length its own length counts as that. -/
def annotate (m : Meter P α) (day : Value) (raw : Option α) (stops : List P) :
    Result (Annotated P α) := do
  let segments ← (legs stops).mapM (segment m)
  let km := total (segments.map (·.km))
  let travel := sumInt (segments.map (·.minutes))
  let rawKm := raw.getD km
  return {
    day := day
    stops := stops
    segments := segments
    km := km
    rawKm := rawKm
    travelMinutes := travel
    stayMinutes := m.stayMinutes.times stops.length
    mode := m.mode
    averageKm := mean segments.length km
    averageMinutes := mean segments.length (travel : α)
    rate := if 0 < rawKm then km / rawKm else 1 }

/-- The share of the raw length that was saved, between zero and one. -/
def Annotated.efficiency (r : Annotated P α) : α :=
  atLeast 0 (atMost 1 (1 - r.rate))

end

/-- The route with every stop replaced by what stands for it. -/
def Annotated.map {Q : Type} (f : P → Q) (r : Annotated P α) : Annotated Q α where
  day := r.day
  stops := r.stops.map f
  segments := r.segments.map fun s => ⟨f s.origin, f s.destination, s.km, s.minutes, s.nearness⟩
  km := r.km
  rawKm := r.rawKm
  travelMinutes := r.travelMinutes
  stayMinutes := r.stayMinutes
  mode := r.mode
  averageKm := r.averageKm
  averageMinutes := r.averageMinutes
  rate := r.rate

/-- The minutes of a route: on the way and at its stops. -/
def Annotated.durationMinutes (r : Annotated P α) : Number :=
  Number.add (.int r.travelMinutes) r.stayMinutes

end Wayfare.Route
