import Wayfare.Proofs.Booking
import Wayfare.Proofs.Plan.Outcome
import Wayfare.Proofs.SortedValues

/-! # The routes of a trip

Every day of a plan is routed through the sites of its bookings, by their
starts, and through whatever its blocks hold that has a position.
-/

namespace Wayfare.Plan

open Wayfare.Geo Wayfare.Route
open Wayfare.Booking (of_mem_sites oneSiteEach_of_sites)

namespace Stop

theorem map_place_number (first : Nat) (places : List Place) :
    (number first places).map (·.place) = places := by
  rw [number, List.map_map]
  exact List.zipIdx_map_fst 0 places

theorem nodup_visit_number (first : Nat) (places : List Place) :
    ((number first places).map (·.visit)).Nodup := by
  have hvisits : (number first places).map (·.visit) =
      (List.range' 0 places.length).map (first + ·) := by
    rw [number, List.map_map, ← List.zipIdx_map_snd 0 places, List.map_map]
    rfl
  rw [hvisits]
  exact List.Nodup.map (fun i j hij => Nat.add_left_cancel hij) List.nodup_range'

end Stop

namespace Planner

variable {s : Settings} {p : Planner} {mode day : Value}

theorem routePlaces_keeps {anchors flexible : List Place} {route : Annotated Place Float}
    (h : p.routePlaces s mode day anchors flexible = .ok route) :
    route.stops.Perm (anchors ++ flexible) ∧ anchors.Sublist route.stops := by
  obtain ⟨stops, hstops, h⟩ := Result.bind_eq_ok.mp h
  rw [Result.pure_eq_ok] at h
  subst h
  obtain ⟨hperm, hsub⟩ := routeStops_keeps (Stop.nodup_visit_number 0 flexible) hstops
  have hperm := hperm.map (·.place)
  have hsub := hsub.map (·.place)
  rw [List.map_append, Stop.map_place_number, Stop.map_place_number] at hperm
  rw [Stop.map_place_number] at hsub
  exact ⟨hperm, hsub⟩

/-- What a day of the grid becomes. Its route leads through the sites of its bookings, one for each that
has coordinates, in the order of their starts, and through what its blocks hold that is located; what is
not is beside the route. -/
def Routed (d : DayPlan) (day : PlannedDay) : Prop :=
  ∃ sites anchors, Booking.sites d.confirmed = .ok sites ∧
    Booking.OneSiteEach (Block.all.flatMap fun b => (d.slots.get b).confirmed) sites ∧
    anchors.Perm sites ∧
    (anchors.Pairwise fun a b => ∀ m n, a.fixedTime = .moment m → b.fixedTime = .moment n →
      m.instant ≤ n.instant) ∧
    anchors.Sublist day.route.stops ∧
    (day.route.stops ++ day.unrouted).Perm (anchors ++ day.slots.flatMap (·.places)) ∧
    (∀ q ∈ day.route.stops, q.isLocated = true) ∧
    day.unrouted = (day.slots.flatMap (·.places)).filter fun q => !q.isLocated

theorem planDay_eq_ok {used used' : List Ident} {label : Value} {d : DayPlan} {day : PlannedDay}
    (h : p.planDay s mode used label d = .ok (day, used')) :
    selectDay s p.selection mode p.capacity p.beamWidth used d = .ok (day.slots, used') ∧
      day.number = label ∧ Routed d day := by
  obtain ⟨⟨slots, after⟩, hslots, h⟩ := Result.bind_eq_ok.mp h
  obtain ⟨anchors, hanchors, h⟩ := Result.bind_eq_ok.mp h
  obtain ⟨route, hroute, h⟩ := Result.bind_eq_ok.mp h
  rw [Result.pure_eq_ok] at h
  cases h
  refine ⟨hslots, rfl, ?_⟩
  obtain ⟨sites, hsites, hsorted⟩ := Result.bind_eq_ok.mp hanchors
  obtain ⟨hperm, hsub⟩ := routePlaces_keeps hroute
  refine ⟨sites, anchors, hsites, d.confirmed_eq ▸ oneSiteEach_of_sites hsites,
    Value.sortBy_perm hsorted, Value.pairwise_sortBy hsorted, hsub, ?_, ?_, rfl⟩
  · refine (hperm.append_right _).trans ?_
    rw [List.append_assoc]
    exact (List.filter_append_perm Place.isLocated _).append_left _
  · intro q hq
    rcases List.mem_append.mp (hperm.mem_iff.mp hq) with hq | hq
    · exact (of_mem_sites hsites ((Value.sortBy_perm hsorted).mem_iff.mp hq)).1
    · exact (List.mem_filter.mp hq).2

theorem planDays_routed {used : List Ident} {days : List (Value × DayPlan)}
    {planned : List PlannedDay} (h : p.planDays s mode used days = .ok planned) :
    List.Forall₂ (fun d day => day.number = d.1 ∧ Routed d.2 day) days planned := by
  induction days generalizing used planned with
  | nil =>
      cases h
      exact .nil
  | cons d rest ih =>
      obtain ⟨⟨day, used'⟩, hday, h⟩ := Result.bind_eq_ok.mp h
      obtain ⟨later, hlater, h⟩ := Result.bind_eq_ok.mp h
      rw [Result.pure_eq_ok] at h
      subst h
      exact .cons (planDay_eq_ok hday).2 (ih hlater)

/-- Routing loses nothing and keeps bookings in the order of time. A day has a route if nothing that is
asked for it is refused; a route has all stops of its day, each once, and the fixed ones as they stood;
and so every day of a planned grid is routed through its bookings by their starts and through all located
places of its blocks. -/
theorem routes_keep_stops (s : Settings) (p : Planner) :
    (∀ mode day anchors flexible, (flexible.map (·.visit)).Nodup →
      (p.Ready s mode anchors flexible →
        ∃ route, p.routeStops s mode day anchors flexible = .ok route) ∧
      ∀ route, p.routeStops s mode day anchors flexible = .ok route →
        route.stops.Perm (anchors ++ flexible) ∧ anchors.Sublist route.stops) ∧
    ∀ grid request planned, p.planGrid s grid request = .ok planned →
      List.Forall₂ Routed grid.inOrder planned := by
  refine ⟨fun mode day anchors flexible hflexible => ⟨?_, ?_⟩, ?_⟩
  · exact fun hready => hready.exists_routeStops hflexible
  · exact fun route hroute => routeStops_keeps hflexible hroute
  · intro grid request planned h
    have hdays := planDays_routed h
    rw [List.forall₂_map_left_iff] at hdays
    exact hdays.imp fun d day hday => hday.2

/-- Three places, and no way of travelling takes any time. -/
theorem routes_keep_stops_at_rest :
    let s : Settings := { speeds := [], defaultSpeed := 0.0 }
    let p : Planner :=
      { clusters := ⟨.spread, .int 42, .int 100, .real 0.001⟩
        routes := ⟨.balanced, .text "car", .int 10, .int 90⟩
        capacity := .int 2
        placesPerCluster := .int 4
        selection := .rank
        beamWidth := .int 3 }
    let stop (visit : Nat) (id : String) : Stop :=
      ⟨visit, { id := .text id, name := .text id, latitude := .real 48.0, longitude := .real 2.0 }⟩
    ∃ route, p.routeStops s (.text "car") (.int 1) [stop 2 "hotel"] [stop 0 "a", stop 1 "b"] =
        .ok route ∧
      route.stops.Perm [stop 2 "hotel", stop 0 "a", stop 1 "b"] := by
  intro s p stop
  have hminutes : ∀ a b : Stop, travelMinutes ceilReal (Stop.distance s a b) 0.0 = .ok 0 := by
    intro a b
    rw [travelMinutes, if_pos (.inr (by decide))]
  have hlegible : ∀ visit id, (stop visit id).place.Legible := fun _ _ =>
    ⟨rfl, ⟨"", rfl⟩, .inl rfl, .inl rfl⟩
  have hready : p.Ready s (.text "car") [stop 2 "hotel"] [stop 0 "a", stop 1 "b"] :=
    { legible := by
        intro a ha
        simp only [List.cons_append, List.nil_append, List.mem_cons, List.not_mem_nil, or_false] at ha
        rcases ha with rfl | rfl | rfl <;> exact hlegible _ _
      passes := ⟨10, by decide⟩
      stay := ⟨.int 90, rfl⟩
      speed := ⟨0.0, rfl, fun a _ b _ => ⟨0, hminutes a b⟩⟩
      congested := fun a _ b _ => ⟨0, hminutes a b⟩
      centres := .inl (by decide) }
  obtain ⟨hroute, hkeeps⟩ := (routes_keep_stops s p).1 (.text "car") (.int 1) [stop 2 "hotel"]
    [stop 0 "a", stop 1 "b"] (by decide)
  obtain ⟨route, hroute⟩ := hroute hready
  exact ⟨route, hroute, (hkeeps route hroute).1⟩

end Planner

end Wayfare.Plan
