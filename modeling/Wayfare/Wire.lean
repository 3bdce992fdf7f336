import Wayfare.Itinerary
import Wayfare.Shortlist
import Wayfare.Wire.Lenient

/-! # Wire forms

What the stages return as records for transport: field names in camel case,
lengths rounded to metres, rates to four places. A field that the transport
cannot carry is a mismatch, reported under the field's own name.
-/

namespace Wayfare.Wire

open Wayfare.Plan Wayfare.Route

/-- A field on its way to the wire: its name there and the value that it has, or the mismatches, each
under its path. -/
structure Slot where
  name : String
  value : Except (List (List String × Mismatch)) Value

def Slot.mismatches (s : Slot) : List (List String × Mismatch) :=
  match s.value with
  | .ok _ => []
  | .error found => found

/-- The field under its name, if it can be carried. -/
def Slot.field? (s : Slot) : Option (String × Value) :=
  match s.value with
  | .ok v => some (s.name, v)
  | .error _ => none

/-- The record of some fields, unless there are mismatches. -/
def record (slots : List Slot) : Result Value :=
  let mismatches := slots.flatMap Slot.mismatches
  if mismatches.isEmpty then .ok (.record (slots.filterMap Slot.field?))
  else .error (.wireMismatch mismatches)

def plain (name : String) (v : Value) : Slot :=
  ⟨name, .ok v⟩

/-- A field that is read; `own` is its own name. -/
def given (name own : String) (v : Except Mismatch Value) : Slot :=
  ⟨name, v.mapError fun kind => [([own], kind)]⟩

/-- A field that is a list of texts; a mismatch is reported under its position. -/
def textList (name own : String) (vs : List Value) : Slot :=
  let found := vs.zipIdx.filterMap fun (v, i) =>
    match plainText v with
    | .ok _ => none
    | .error kind => some ([own, toString i], kind)
  ⟨name, if found.isEmpty then .ok (.list vs) else .error found⟩

/-- How the fields of a wire form are named: in camel case, or by their own names. -/
inductive Naming where
  | camelCase
  | own

/-- Of the two names of a field the one that is asked for. -/
def Naming.choose : Naming → String → String → String
  | camelCase, name, _ => name
  | own, _, name => name

/-- The wire form of a place. -/
def placeAs (naming : Naming) (p : Place) : Result Value :=
  let given (name own : String) := given (naming.choose name own) own
  record
    [given "placeId" "place_id" (plainText p.id),
     given "name" "name" (plainText p.name),
     given "category" "category" (plainText p.category),
     given "latitude" "latitude" (optional lenientReal p.latitude),
     given "longitude" "longitude" (optional lenientReal p.longitude),
     given "address" "address" (plainText p.address),
     given "rating" "rating" (optional lenientReal p.rating),
     given "reviewCount" "review_count" (optional lenientInt p.reviewCount),
     given "priceLevel" "price_level" (optional lenientInt p.priceLevel),
     given "openNow" "open_now" (optional lenientBool p.openNow),
     plain "source" (.text p.source.name),
     given "region" "region" (plainText p.region)]

def place (p : Place) : Result Value :=
  placeAs .camelCase p

def places (ps : List Place) : Result Value :=
  .list <$> ps.mapM place

def plainMoment : Value → Except Mismatch Value
  | .moment m => .ok (.moment m)
  | _ => .error "datetime_type"

def booking (b : Booking) : Result Value := do
  let kind ← b.readKind
  record
    [given "title" "title" (plainText b.title),
     given "startTime" "start_time" (plainMoment b.start),
     given "endTime" "end_time" (plainMoment b.finish),
     given "location" "location" (plainText b.location),
     plain "documentType" (.text kind.name),
     plain "priority" (.int (Int.ofNat kind.priority)),
     plain "fixed" (.bool true),
     given "address" "address" (plainText b.address),
     given "latitude" "latitude" (optional lenientReal b.latitude),
     given "longitude" "longitude" (optional lenientReal b.longitude)]

def shortlist (s : Shortlist) : Result Value := do
  let regions ← s.regions.mapM fun (region, lists) => do
    return (region, Value.record (← lists.mapM fun (category, ps) => do
      return (category, ← places ps)))
  record
    [given "threadId" "thread_id" (plainText s.threadId),
     plain "destinations" (.list (s.destinations.map .text)),
     plain "regionCandidates" (.record regions),
     plain "totalCandidates" (.int (Int.ofNat s.total))]

/-- The wire form of what one block of one day holds. -/
def slot (s : Wayfare.Slot) : Result Value := do
  let confirmed ← s.confirmed.mapM booking
  let selected ← places s.selected
  let suggested ← places s.suggested
  return .record
    [("confirmed", .list confirmed), ("userSelected", selected), ("aiCandidates", suggested)]

def blocks (d : DayPlan) : Result Value :=
  .record <$> Block.all.mapM fun b => do return (b.name, ← slot (d.slots.get b))

def grid (g : Grid) : Result Value := do
  let days ← g.inOrder.mapM fun d => do return (toString d.number, ← blocks d)
  record
    [given "threadId" "thread_id" (plainText g.threadId),
     given "tripDays" "trip_days" (lenientInt g.tripDays),
     plain "timeBlocks" (.record days)]

/-- A length in kilometres, rounded to metres. -/
def kilometres (x : Float) : Value :=
  .real (Decimal.roundTo 3 x)

/-- A rate, rounded to four places. -/
def rate (x : Float) : Value :=
  .real (Decimal.roundTo 4 x)

def wholeNumber (n : Number) : Except Mismatch Value :=
  lenientInt (.ofNumber n)

def segment (mode : Value) (l : Segment Place Float) : Result Value :=
  record
    [given "fromPlaceId" "from_place_id" (plainText l.origin.id),
     given "toPlaceId" "to_place_id" (plainText l.destination.id),
     plain "distanceKm" (kilometres l.km),
     plain "travelMinutes" (.int l.minutes),
     given "transportMode" "transport_mode" (plainText mode),
     plain "distanceCategory" (.text l.nearness.name)]

def route (r : Annotated Place Float) : Result Value := do
  let stops ← places r.stops
  let segments ← r.segments.mapM (segment r.mode)
  record
    [given "dayNumber" "day_number" (lenientInt r.day),
     plain "places" stops,
     plain "segments" (.list segments),
     plain "totalDistance" (kilometres r.km),
     given "totalDuration" "total_duration" (wholeNumber r.durationMinutes),
     plain "totalTravelMinutes" (.int r.travelMinutes),
     plain "optimizationRate" (rate r.rate),
     plain "efficiencyScore" (rate r.efficiency)]

/-- The wire form of a block of a planned day. -/
def timeSlot (s : TimeSlot) : Result Value :=
  record
    [textList "confirmed" "confirmed" (s.confirmed.map (·.title)),
     textList "placeIds" "place_ids" (s.places.map (·.id))]

/-- The wire form of a day of the itinerary. Of two entries for one block the later counts. -/
def day (d : DayItinerary) : Result Value := do
  let stops ← places d.places
  let slots ← d.slots.mapM fun s => do return (s.block.name, ← timeSlot s)
  record
    [plain "date" (Value.ofText? (d.date.map Calendar.Date.text)),
     given "dayNumber" "day_number" (lenientInt d.number),
     plain "places" stops,
     plain "timeSlots" (.record (slots.foldl (fun fields s => Fields.set fields s.1 s.2) []))]

def statistics (s : TripStatistics) : Result Value :=
  record
    [plain "totalPlaces" (.int (Int.ofNat s.totalPlaces)),
     plain "userSelectedCount" (.int (Int.ofNat s.userSelected)),
     plain "aiRecommendedCount" (.int (Int.ofNat s.aiRecommended)),
     plain "confirmedCount" (.int (Int.ofNat s.confirmed)),
     plain "userSelectedRatio" (rate s.userSelectedRatio),
     plain "averageRating" (.real (Decimal.roundTo 2 s.averageRating)),
     given "totalReviewCount" "total_review_count" (wholeNumber s.totalReviews),
     plain "categoryDistribution"
       (.record (s.categories.map fun (c, n) => (c.display, .int (Int.ofNat n))))]

def itinerary (i : Itinerary) : Result Value := do
  let days ← i.days.mapM day
  let routes ← i.routes.mapM route
  let figures ← statistics i.statistics
  record
    [plain "dailyItineraries" (.list days),
     plain "optimizedRoutes" (.list routes),
     plain "totalDistance" (kilometres i.km),
     given "totalDuration" "total_duration" (wholeNumber i.durationMinutes),
     plain "statistics" figures]

end Wayfare.Wire

namespace Wayfare

/-- What can be handed over for transport. -/
inductive Outcome where
  | shortlist (s : Shortlist)
  | grid (g : Grid)
  | itinerary (i : Itinerary)
  /-- Anything else, which no stage returns. -/
  | other (v : Value)

/-- The wire form of the result of a stage; nothing else has one. -/
def Outcome.toWire : Outcome → Result Value
  | shortlist s => Wire.shortlist s
  | grid g => Wire.grid g
  | itinerary i => Wire.itinerary i
  | other v => .error (.noWireForm v.kindName)

end Wayfare
