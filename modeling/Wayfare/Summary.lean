import Wayfare.Session

/-! # Summaries

Results as values, in short forms for reading: places by identifiers, bookings
by titles, blocks by names. What was given is shown as it was given, except that
whole numbers among coordinates and ratings are shown as real ones.
-/

namespace Wayfare.Summary

open Wayfare.Calendar Wayfare.Plan Wayfare.Route

def measure : Value → Value
  | .int n => .real (Float.ofInt n)
  | v => v

def count (n : Nat) : Value :=
  .int (Int.ofNat n)

def texts (ss : List String) : Value :=
  .list (ss.map .text)

def reals (xs : List Float) : Value :=
  .list (xs.map .real)

def ints (ns : List Int) : Value :=
  .list (ns.map .int)

/-- A date, if there is one. -/
def date (d : Option Date) : Value :=
  Value.ofText? (d.map Date.text)

def block (b : Block) : Value :=
  .text b.name

def blocks (bs : List Block) : Value :=
  .list (bs.map block)

def point (p : Point Float) : Value :=
  reals [p.lat, p.lon]

def coordinates (p : Place) : Value :=
  .list [measure p.latitude, measure p.longitude]

def measured (fields : Fields) : Fields :=
  fields.map fun f => (f.1, if ["latitude", "longitude", "rating"].contains f.1 then measure f.2 else f.2)

/-- All fields of a place. A rating beyond the real numbers cannot be shown. -/
def place (p : Place) : Result Value := do
  match p.rating with
  | .int n =>
      let _ ← Value.realOfInt n
      return .record (measured p.toRecord)
  | _ => return .record (measured p.toRecord)

def ids (ps : List Place) : Value :=
  .list (ps.map (·.id))

/-- Places by their identifiers, each with its source. -/
def tagged (ps : List Place) : Value :=
  .list (ps.map fun p => .list [p.id, .text p.source.name])

def titles (bs : List Booking) : Value :=
  .list (bs.map (·.title))

def booking (b : Booking) : Result Value := do
  let kind ← b.readKind
  let site ← match ← b.site with
    | none => .ok .null
    | some p => place p
  return .record
    [("schedule", .record (measured (← b.toRecord))), ("category", .text kind.category),
     ("block", block b.block), ("fixed", .bool true), ("priority", count kind.priority),
     ("has_coordinates", .bool b.isLocated), ("details", b.details), ("place", site)]

def shortlist (l : Shortlist) : Value :=
  .record
    [("thread_id", l.threadId), ("destinations", texts l.destinations), ("total", count l.total),
     ("all", ids l.all),
     ("regions", .record (l.regions.map fun (region, lists) =>
       (region, .record ((lists.filter fun c => !c.2.isEmpty).map fun (c, ps) => (c, ids ps)))))]

/-- The parts of a slot that are not empty. -/
def slotParts (s : Slot) : Fields :=
  (if s.confirmed.isEmpty then [] else [("confirmed", titles s.confirmed)]) ++
    (if s.selected.isEmpty then [] else [("user", tagged s.selected)]) ++
    (if s.suggested.isEmpty then [] else [("ai", tagged s.suggested)])

def slot (s : Slot) : Value :=
  .record (slotParts s)

/-- A day of the grid with the slots that hold something. -/
def dayPlan (d : DayPlan) : Value :=
  let slots := (Block.all.map fun b => (b.name, slotParts (d.slots.get b))).filter (!·.2.isEmpty)
  .record
    [("day", .int d.number), ("date", date d.date),
     ("blocks", .record (slots.map fun s => (s.1, .record s.2)))]

def grid (g : Grid) : Value :=
  .record
    [("thread_id", g.threadId), ("trip_days", g.tripDays), ("start", date g.start),
     ("confirmed", count g.confirmedCount), ("user", count g.selectedCount),
     ("days", .list (g.inOrder.map dayPlan))]

def segments (r : Annotated Place Float) : Value :=
  .list (r.segments.map fun l => .list
    [l.origin.id, l.destination.id, .real l.km, .int l.minutes, r.mode, .text l.nearness.name])

/-- A route with its lengths and times. -/
def route (r : Annotated Place Float) : Value :=
  .record
    [("day", r.day), ("places", ids r.stops), ("mode", r.mode), ("segments", segments r),
     ("km", .real r.km), ("original_km", .real r.rawKm), ("travel", .int r.travelMinutes),
     ("stay", .ofNumber r.stayMinutes), ("duration", .ofNumber r.durationMinutes),
     ("efficiency", .real r.efficiency),
     ("stats", .list
       [.real r.averageKm, .real r.averageMinutes, count r.segments.length, .real r.rate])]

def timeSlots (slots : List TimeSlot) : Value :=
  let shown := slots.filter fun t => !(t.confirmed.isEmpty && t.places.isEmpty)
  .list (shown.map fun t => .list [block t.block, titles t.confirmed, tagged t.places])

def plannedDay (d : PlannedDay) : Value :=
  .record
    [("day", d.number), ("date", date d.date), ("route", route d.route),
     ("slots", timeSlots d.slots), ("slot_count", count d.slots.length),
     ("unrouted", ids d.unrouted)]

def statistics (t : TripStatistics) : Value :=
  .record
    [("total_places", count t.totalPlaces), ("user_selected_count", count t.userSelected),
     ("ai_recommended_count", count t.aiRecommended), ("confirmed_count", count t.confirmed),
     ("user_selected_ratio", .real t.userSelectedRatio), ("average_rating", .real t.averageRating),
     ("total_review_count", .ofNumber t.totalReviews),
     ("category_distribution", .record (t.categories.map fun (c, n) => (c.display, count n)))]

def day (d : DayItinerary) : Value :=
  .record
    [("day", d.number), ("date", date d.date), ("places", tagged d.places),
     ("slots", timeSlots d.slots)]

def itinerary (i : Itinerary) : Value :=
  .record
    [("days", .list (i.days.map day)), ("routes", .list (i.routes.map route)), ("km", .real i.km),
     ("duration", .ofNumber i.durationMinutes), ("statistics", statistics i.statistics)]

def outcome : Outcome → Value
  | .shortlist l => shortlist l
  | .grid g => grid g
  | .itinerary i => itinerary i
  | .other v => v

/-- A point in the middle of a group of stops; stops that are left apart are shown by their own
coordinates. -/
def centre (a : Cluster.Assignment Stop Float) (g : Cluster.Group Stop Float) : Value :=
  match a.iterations, g.members with
  | 0, [stop] => coordinates stop.place
  | _, _ => point g.centre

/-- Groups of stops, numbered from zero. -/
def clusters (a : Cluster.Assignment Stop Float) : Value :=
  .record
    [("clusters", .list (a.groups.zipIdx.map fun (g, i) =>
       .list [count i, ids (g.members.map (·.place)), centre a g])),
     ("num", count a.groups.length), ("iterations", count a.iterations),
     ("converged", .bool a.converged), ("unclustered", ids (a.unclustered.map (·.place)))]

/-- The costs between the stops of a list, each from its own table. -/
def costs (model : CostModel Stop Float) (time balanced : Stop → Stop → Float) : Value :=
  let table (cost : Stop → Stop → Float) : Value :=
    .list (model.stops.map fun a => reals (model.stops.map (cost a)))
  .record
    [("minutes", .list (model.minutes.map ints)), ("congestion", reals model.congestion),
     ("time", table time), ("balanced", table balanced),
     ("route", reals [length time model.stops, length balanced model.stops])]

def score (b : Score.Breakdown Place Float) : Value :=
  .record
    [("base", .real b.base), ("comprehensive", .real b.total),
     ("scorer", .list [b.place.id, .real b.base, .real b.km, .real b.distance, .real b.diversity,
       .real b.total])]

def event (e : Event) : Value :=
  .record [("session", .text e.session), ("type", e.kind), ("payload", e.payload)]

/-- The state of a day while it is filled, for a capacity, with the best blocks for some categories. -/
def dayState (day : DayPlan) (capacity : Value) (best : Fields) : Result Value := do
  let slots := day.slots.toList
  let number ← capacity.asNumber
  let limit ← capacity.asCapacity
  let rooms ← slots.mapM fun s => s.roomLeft number
  return .record
    [("fixed", .list (slots.map fun s => count s.fixedCount)),
     ("room", .list (rooms.map .ofNumber)),
     ("full", blocks (Block.all.filter fun b => (day.slots.get b).isFull limit)),
     ("best", .record best),
     ("order", .list [titles day.confirmed, ids day.selected, ids day.suggested])]

end Wayfare.Summary
