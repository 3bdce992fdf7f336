import Mathlib.Algebra.Order.Field.Rat
import Mathlib.Data.Rat.Floor
import Mathlib.Tactic.Linarith
import Wayfare.Plan.Stop
import Wayfare.Proofs.Geo.Travel
import Wayfare.Proofs.Plan.FreeDays
import Wayfare.Proofs.Route.Annotation

/-! # Totals of routes

A route through stops in their given order has a segment from each stop to the
next, and its totals are sums over these. Each segment's time is rounded up by
less than a minute, so the time of a route exceeds the exact time for its length
by less than one minute for each of its segments. The share of the raw length
that a route saves is nothing when it is as long as that or longer.
-/

namespace Wayfare

open Wayfare.Geo Wayfare.Route

namespace Route

variable {P α : Type} [Field α] [LinearOrder α] [IsStrictOrderedRing α]

/-! ## Times -/

/-- The minutes of a route are the exact time for its length, rounded up segment by segment. -/
structure Annotated.RoundsUp (speed : α) (route : Annotated P α) : Prop where
  le_travelMinutes : route.km / speed * 60 ≤ route.travelMinutes
  travelMinutes_lt : route.segments ≠ [] →
    (route.travelMinutes : α) < route.km / speed * 60 + route.segments.length
  travelMinutes_eq : route.segments = [] → (route.travelMinutes : α) = route.km / speed * 60

/-- What is rounded up by less than one for each of some segments is rounded up by less than their
number for all of them. -/
theorem sum_minutes_bounds (speed : α) {segments : List (Segment P α)}
    (h : ∀ s ∈ segments, s.km / speed * 60 ≤ s.minutes ∧ (s.minutes : α) < s.km / speed * 60 + 1) :
    (segments.map (·.km)).sum / speed * 60 ≤ ((segments.map (·.minutes)).sum : Int) ∧
      (((segments.map (·.minutes)).sum : Int) : α) ≤
        (segments.map (·.km)).sum / speed * 60 + segments.length ∧
      (segments ≠ [] → (((segments.map (·.minutes)).sum : Int) : α) <
        (segments.map (·.km)).sum / speed * 60 + segments.length) := by
  induction segments with
  | nil => simp
  | cons s rest ih =>
      obtain ⟨⟨hlow, hhigh⟩, hrest⟩ := List.forall_mem_cons.mp h
      obtain ⟨hlow_rest, hhigh_rest, -⟩ := ih hrest
      simp only [List.map_cons, List.sum_cons, List.length_cons, add_div, add_mul, Int.cast_add,
        Nat.cast_add, Nat.cast_one]
      refine ⟨?_, ?_, fun _ => ?_⟩ <;> linarith

variable {m : Meter P α} {speed : α} {day : Value} {raw : Option α} {stops : List P}
  {route : Annotated P α}

theorem annotate_roundsUp [FloorRing α] (hspeed : 0 < speed) (hleg : ∀ a b, 0 ≤ m.leg a b)
    (hminutes : ∀ km, m.minutes km = Geo.travelMinutes (fun x => .ok ⌈x⌉) km speed)
    (h : annotate m day raw stops = .ok route) : route.RoundsUp speed := by
  have hfollows := annotate_follows h
  have hkm : route.km = (route.segments.map (·.km)).sum := by
    rw [← total_eq_sum]
    exact km_eq_total h
  have hbounds : ∀ s ∈ route.segments,
      s.km / speed * 60 ≤ s.minutes ∧ (s.minutes : α) < s.km / speed * 60 + 1 := by
    intro s hs
    obtain ⟨i, hi⟩ := List.getElem?_of_mem hs
    obtain ⟨-, -, hlength, htime⟩ := hfollows.segment i s hi
    rw [hminutes] at htime
    exact travelMinutes_bounds (hlength ▸ hleg _ _) hspeed htime
  obtain ⟨hlow, -, hhigh⟩ := sum_minutes_bounds speed hbounds
  rw [← hkm, ← hfollows.travelMinutes] at hlow hhigh
  refine ⟨hlow, hhigh, fun hnone => ?_⟩
  rw [hfollows.travelMinutes, hkm, hnone]
  simp

/-! ## Savings -/

/-- The saved share lies between zero and one. -/
theorem Annotated.efficiency_mem (route : Annotated P α) :
    0 ≤ route.efficiency ∧ route.efficiency ≤ 1 := by
  rw [efficiency_eq_max_min]
  exact ⟨le_max_left _ _, max_le zero_le_one (min_le_left _ _)⟩

/-- Nothing is saved on a route that is at least as long as what it is measured against. -/
theorem annotate_efficiency_eq_zero (hleg : ∀ a b, 0 ≤ m.leg a b)
    (h : annotate m day raw stops = .ok route) (hraw : route.rawKm = 0 ∨ route.rawKm ≤ route.km) :
    route.efficiency = 0 := by
  obtain ⟨_, hkm, _, hrate⟩ := annotate_eq_ok h
  have hlonger : route.rawKm ≤ route.km := by
    rcases hraw with hzero | hlonger
    · rw [hzero, hkm]
      exact length_nonneg hleg stops
    · exact hlonger
  have hone : 1 ≤ route.rate := by
    rw [hrate]
    split
    next hpos => exact (one_le_div hpos).mpr hlonger
    next => exact le_rfl
  rw [Annotated.efficiency_eq_max_min]
  exact max_eq_left ((min_le_right _ _).trans (sub_nonpos.mpr hone))

end Route

namespace Plan.RouteOptions

variable {s : Settings} {o : RouteOptions} {mode day : Value} {raw : Option Float}
  {stops : List Stop}

theorem route_eq_ok {route : Annotated Stop Float} : o.route s mode day raw stops = .ok route ↔
    ∃ m, o.meter s mode = .ok m ∧ checkLegs (stops.map (·.place)) = .ok () ∧
      annotate m day raw stops = .ok route := by
  rw [RouteOptions.route, Result.bind_eq_ok]
  refine exists_congr fun m => and_congr_right fun _ => ?_
  rw [Result.bind_eq_ok]
  exact ⟨fun ⟨_, hlegs, h⟩ => ⟨hlegs, h⟩, fun ⟨hlegs, h⟩ => ⟨(), hlegs, h⟩⟩

/-- The legs of a list can be measured if each can. -/
theorem checkLegs_stops_eq_ok : checkLegs (stops.map (·.place)) = .ok () ↔
    ∀ l ∈ legs stops, measurable l.1.place l.2.place = true := by
  have hlegs : (stops.map (·.place)).zip (stops.map (·.place)).tail =
      (legs stops).map (Prod.map (·.place) (·.place)) := by
    rw [← List.map_tail, List.zip_map]
    rfl
  rw [checkLegs, hlegs, List.all_map]
  split
  next hall => exact ⟨fun _ => List.all_eq_true.mp hall, fun _ => rfl⟩
  next hnot => exact ⟨fun h => (by cases h), fun h => absurd (List.all_eq_true.mpr h) hnot⟩

/-- What a route through stops in their given order shows of it. There is such a route if every leg can
be measured and its minutes are known; in exact numbers there always is, its minutes exceed the exact
time by less than one for each segment, and it saves a share of what it is measured against, nothing
when it is not shorter. -/
theorem route_tells_order {P α : Type} [Field α] [LinearOrder α] [IsStrictOrderedRing α]
    [FloorRing α] :
    (∀ s o mode day raw stops,
      ((∃ route, RouteOptions.route s o mode day raw stops = .ok route) ↔
        ∃ m, o.meter s mode = .ok m ∧ ∀ l ∈ legs stops,
          measurable l.1.place l.2.place = true ∧ ∃ n, m.minutes (m.leg l.1 l.2) = .ok n) ∧
      ∀ route, o.route s mode day raw stops = .ok route →
        ∃ m, o.meter s mode = .ok m ∧ route.Follows m raw stops) ∧
    ∀ (m : Meter P α) (speed : α) (day : Value) (raw : Option α) (stops : List P),
      0 < speed → (∀ a b, 0 ≤ m.leg a b) →
      (∀ km, m.minutes km = travelMinutes (fun x => .ok ⌈x⌉) km speed) →
      ∃ route, annotate m day raw stops = .ok route ∧ route.Follows m raw stops ∧
        route.RoundsUp speed ∧ 0 ≤ route.efficiency ∧ route.efficiency ≤ 1 ∧
        (route.rawKm = 0 ∨ route.rawKm ≤ route.km → route.efficiency = 0) := by
  refine ⟨fun s o mode day raw stops => ⟨⟨?_, ?_⟩, ?_⟩, ?_⟩
  · rintro ⟨route, h⟩
    obtain ⟨m, hm, hlegs, h⟩ := route_eq_ok.mp h
    exact ⟨m, hm, fun l hl =>
      ⟨checkLegs_stops_eq_ok.mp hlegs l hl, exists_minutes_of_annotate h hl⟩⟩
  · rintro ⟨m, hm, hlegs⟩
    obtain ⟨route, hroute⟩ : ∃ route, annotate m day raw stops = .ok route :=
      exists_annotate fun l hl => (hlegs l hl).2
    have hmeasurable := checkLegs_stops_eq_ok.mpr fun l hl => (hlegs l hl).1
    exact ⟨route, route_eq_ok.mpr ⟨m, hm, hmeasurable, hroute⟩⟩
  · intro route h
    obtain ⟨m, hm, -, h⟩ := route_eq_ok.mp h
    exact ⟨m, hm, annotate_follows h⟩
  · intro m speed day raw stops hspeed hleg hminutes
    have hknown : ∀ l ∈ legs stops, ∃ n, m.minutes (m.leg l.1 l.2) = .ok n := fun l _ =>
      ⟨_, (hminutes _).trans (travelMinutes_eq_ceil (hleg l.1 l.2) hspeed)⟩
    obtain ⟨route, hroute⟩ : ∃ route, annotate m day raw stops = .ok route := exists_annotate hknown
    obtain ⟨hlow, hhigh⟩ := route.efficiency_mem
    exact ⟨route, hroute, annotate_follows hroute, annotate_roundsUp hspeed hleg hminutes hroute,
      hlow, hhigh, annotate_efficiency_eq_zero hleg hroute⟩

/-- Four stops on a line, two of them at one place and measured against their own length, and two stops
without positions. -/
theorem route_tells_order_line :
    let m : Meter ℚ ℚ :=
      { leg := fun a b => |a - b|
        minutes := fun km => travelMinutes (fun x => .ok ⌈x⌉) km 25
        nearness := nearness 1 5
        stayMinutes := .int 90
        mode := .text "car" }
    let o : RouteOptions := ⟨.balanced, .text "car", .int 10, .int 90⟩
    let stop (visit : Nat) : Stop := ⟨visit, { id := .null, name := .null }⟩
    (∃ route, annotate m (.int 1) (some 8) [0, 5, 5, 2] = .ok route ∧ route.segments.length = 3 ∧
      route.km = 8 ∧ 8 / 25 * 60 ≤ (route.travelMinutes : ℚ) ∧
      (route.travelMinutes : ℚ) < 8 / 25 * 60 + 3 ∧
      route.durationMinutes = .int (route.travelMinutes + 360) ∧ route.efficiency = 0) ∧
    ∃ route, o.route {} (.text "car") (.int 1) none [stop 0, stop 1] = .ok route ∧
      route.segments.length = 1 := by
  intro m o stop
  obtain ⟨hreal, hexact⟩ := route_tells_order (P := ℚ) (α := ℚ)
  constructor
  · obtain ⟨route, hroute, hfollows, hrounds, -, -, hzero⟩ :=
      hexact m 25 (.int 1) (some 8) [0, 5, 5, 2] (by norm_num) (fun a b => abs_nonneg (a - b))
        fun _ => rfl
    have hkm : route.km = 8 := hfollows.km.trans (by decide +kernel)
    have hsegments : route.segments.length = 3 := hfollows.length_segments
    have hsome : route.segments ≠ [] := by
      intro hnone
      rw [hnone] at hsegments
      cases hsegments
    have hlow := hrounds.le_travelMinutes
    have hhigh := hrounds.travelMinutes_lt hsome
    rw [hkm] at hlow
    rw [hkm, hsegments] at hhigh
    exact ⟨route, hroute, hsegments, hkm, hlow, hhigh, hfollows.wholeDuration 90 rfl,
      hzero (.inr (by rw [hfollows.rawKm, hkm, Option.getD_some]))⟩
  · obtain ⟨hexists, hfollows⟩ :=
      hreal {} o (.text "car") (.int 1) none [stop 0, stop 1]
    have hdistance : Stop.distance {} (stop 0) (stop 1) = 0.0 := rfl
    have hstill : ∀ speed, travelMinutes ceilReal (Stop.distance {} (stop 0) (stop 1)) speed =
        .ok 0 := fun speed => by rw [hdistance, travelMinutes, if_pos (.inl (by decide))]
    obtain ⟨route, hroute⟩ := hexists.mpr ⟨_, rfl, by
      intro l hl
      obtain rfl := List.mem_singleton.mp hl
      exact ⟨rfl, 0, hstill _⟩⟩
    obtain ⟨m, -, hfollows⟩ := hfollows route hroute
    exact ⟨route, hroute, hfollows.length_segments⟩

end Plan.RouteOptions

end Wayfare
