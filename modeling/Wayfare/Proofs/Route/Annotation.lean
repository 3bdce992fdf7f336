import Mathlib.Algebra.Ring.Int.Defs
import Wayfare.Proofs.Numeric
import Wayfare.Proofs.Success
import Wayfare.Route.Annotated

/-! # What annotation adds to an order

The length that a route shows is that of its order, leg by leg, and its share
of the raw length is a share of what the order was measured against. Its
segments lead on from one another, from each stop to the next, and its minutes
are those of its segments and those spent at its stops.
-/

namespace Wayfare.Route

variable {P α : Type} {m : Meter P α}

theorem segment_eq_ok {l : P × P} {s : Segment P α} (h : segment m l = .ok s) :
    s.origin = l.1 ∧ s.destination = l.2 ∧ s.km = m.leg l.1 l.2 ∧ m.minutes s.km = .ok s.minutes := by
  obtain ⟨minutes, hminutes, h⟩ := Result.bind_eq_ok.mp h
  rw [Result.pure_eq_ok] at h
  subst h
  exact ⟨rfl, rfl, rfl, hminutes⟩

theorem map_km_segments {path : List (P × P)} {segments : List (Segment P α)}
    (h : path.mapM (segment m) = .ok segments) :
    segments.map (·.km) = path.map fun l => m.leg l.1 l.2 := by
  apply Result.map_eq_map_of_forall₂
  exact Result.forall₂_of_mapM h fun l _ s hs => (segment_eq_ok hs).2.2.1

theorem Annotated.efficiency_eq_max_min [Zero α] [One α] [Sub α] [LinearOrder α]
    (route : Annotated P α) : route.efficiency = max 0 (min 1 (1 - route.rate)) := by
  rw [efficiency, atLeast_eq_max, atMost_eq_min]

variable [Zero α] [One α] [Add α] [Div α] [LT α] [DecidableLT α] [NatCast α] [IntCast α]
variable {day : Value} {raw : Option α} {stops : List P} {route : Annotated P α}

/-- A route goes through the stops of its order and is as long as that. -/
theorem annotate_eq_ok (h : annotate m day raw stops = .ok route) :
    route.stops = stops ∧ route.km = length m.leg stops ∧ route.rawKm = raw.getD route.km ∧
      route.rate = if 0 < route.rawKm then route.km / route.rawKm else 1 := by
  obtain ⟨segments, hsegments, h⟩ := Result.bind_eq_ok.mp h
  rw [Result.pure_eq_ok] at h
  subst h
  refine ⟨rfl, ?_, rfl, rfl⟩
  dsimp only
  rw [map_km_segments hsegments, length]

/-- A route tells of its order what a meter measures: from each stop to the next there is a segment, and
its sums are those of its segments and of the time at each stop. -/
structure Annotated.Follows (m : Meter P α) (raw : Option α) (stops : List P)
    (route : Annotated P α) : Prop where
  order : route.stops = stops
  length_segments : route.segments.length = stops.length - 1
  segment : ∀ i s, route.segments[i]? = some s →
    stops[i]? = some s.origin ∧ stops[i + 1]? = some s.destination ∧
      s.km = m.leg s.origin s.destination ∧ m.minutes s.km = .ok s.minutes
  km : route.km = length m.leg stops
  rawKm : route.rawKm = raw.getD route.km
  travelMinutes : route.travelMinutes = (route.segments.map (·.minutes)).sum
  durationMinutes : route.durationMinutes =
    Number.add (.int route.travelMinutes) (m.stayMinutes.times stops.length)
  wholeDuration : ∀ n, m.stayMinutes = .int n →
    route.durationMinutes = .int (route.travelMinutes + n * stops.length)

/-- The leg at a position leads from the stop there to the next one. -/
theorem getElem?_legs {i : Nat} {l : P × P} (h : (legs stops)[i]? = some l) :
    stops[i]? = some l.1 ∧ stops[i + 1]? = some l.2 := by
  obtain ⟨hfirst, hsecond⟩ := List.getElem?_zip_eq_some.mp h
  exact ⟨hfirst, List.getElem?_tail ▸ hsecond⟩

theorem annotate_follows (h : annotate m day raw stops = .ok route) : route.Follows m raw stops := by
  obtain ⟨hstops, hkm, hraw, _⟩ := annotate_eq_ok h
  obtain ⟨segments, hsegments, h⟩ := Result.bind_eq_ok.mp h
  rw [Result.pure_eq_ok] at h
  subst h
  have hall := Result.mapM_eq_ok.mp hsegments
  exact {
    order := hstops
    length_segments := by
      rw [← hall.length_eq, legs, List.length_zip, List.length_tail]
      exact Nat.min_eq_right (Nat.sub_le _ _)
    segment := by
      intro i s hs
      obtain ⟨l, hl, hsegment⟩ := Result.exists_getElem?_of_forall₂ hall.flip hs
      obtain ⟨horigin, hdestination, hlength, hminutes⟩ := segment_eq_ok hsegment
      obtain ⟨hfirst, hsecond⟩ := getElem?_legs hl
      rw [horigin, hdestination]
      exact ⟨hfirst, hsecond, hlength, hminutes⟩
    km := hkm
    rawKm := hraw
    travelMinutes := rfl
    durationMinutes := rfl
    wholeDuration := by
      intro n hstay
      rw [Annotated.durationMinutes, hstay]
      rfl }

theorem km_eq_total (h : annotate m day raw stops = .ok route) :
    route.km = total (route.segments.map (·.km)) := by
  obtain ⟨segments, _, h⟩ := Result.bind_eq_ok.mp h
  rw [Result.pure_eq_ok] at h
  subst h
  rfl

theorem exists_annotate (hminutes : ∀ l ∈ legs stops, ∃ n, m.minutes (m.leg l.1 l.2) = .ok n) :
    ∃ route, annotate m day raw stops = .ok route := by
  refine Result.exists_bind_eq_ok ?_ fun segments _ => ⟨_, rfl⟩
  apply Result.exists_mapM_eq_ok
  intro l hl
  exact Result.exists_bind_eq_ok (hminutes l hl) fun n _ => ⟨_, rfl⟩

/-- The minutes of every leg of a route are known. -/
theorem exists_minutes_of_annotate (h : annotate m day raw stops = .ok route) {l : P × P}
    (hl : l ∈ legs stops) : ∃ n, m.minutes (m.leg l.1 l.2) = .ok n := by
  obtain ⟨segments, hsegments, _⟩ := Result.bind_eq_ok.mp h
  obtain ⟨s, _, hs⟩ := Result.exists_eq_ok_of_mapM hsegments hl
  obtain ⟨_, _, hkm, hminutes⟩ := segment_eq_ok hs
  rw [hkm] at hminutes
  exact ⟨s.minutes, hminutes⟩

end Wayfare.Route
