import Wayfare.Proofs.Grid.Distinct
import Wayfare.Proofs.Grid.SuggestionPass

/-! # The whole distribution

After all passes the grid has every booking once and every selection once, and
whatever else it suggests the traveller did not choose.
-/

namespace Wayfare.Distributor

variable {s : Settings} {d : Distributor} {request : TripRequest} {tripDays : Int}
variable {bookings : List Booking} {warnings : List String}

theorem placeFixed_eq_ok {selected : List Place} {days : List DayPlan}
    (hdays : request.days = .ok tripDays) (htrip : 1 ≤ tripDays)
    (h : d.placeFixed request selected bookings = .ok (days, warnings)) :
    (days.flatMap (·.confirmed)).Perm bookings ∧ (days.flatMap (·.selected)).Perm selected ∧
      ∀ e ∈ days, e.suggested = [] := by
  obtain ⟨n, hn, h⟩ := Result.bind_eq_ok.mp h
  rw [hdays] at hn
  cases hn
  obtain ⟨empty, hempty, h⟩ := Result.bind_eq_ok.mp h
  obtain ⟨⟨fixed, warnings'⟩, hfixed, h⟩ := Result.bind_eq_ok.mp h
  obtain ⟨capacity, _, h⟩ := Result.bind_eq_ok.mp h
  rw [Result.pure_eq_ok] at h
  cases h
  obtain ⟨day, order, horder, hday, hplaced⟩ := Grid.placeConfirmed_eq_ok hfixed
  -- Before the selections every block holds its bookings and nothing else.
  have hslots := fun e (he : e ∈ fixed) b => Grid.get_slots_placeInOrder hempty hplaced he b
  refine ⟨?_, ?_, ?_⟩
  · rw [Grid.placeSelections_eq, List.flatMap_map]
    have hconfirmed : (fixed.flatMap fun e => (Grid.addSelections capacity
        (Grid.selectionsFor d.selectionsPerDay tripDays 0 selected e.number) e).confirmed) =
        fixed.flatMap (·.confirmed) := by
      apply List.flatMap_congr
      intro e _
      rw [DayPlan.confirmed_eq, DayPlan.confirmed_eq]
      exact (Grid.agreeButSelections_addSelections capacity _ e).flatMap_eq Prod.fst
    rw [hconfirmed, Grid.flatMap_confirmed_placeInOrder hempty hplaced]
    exact (Grid.flatMap_bookingsAt_perm fun x _ => hday htrip x).trans horder
  · apply Grid.flatMap_selected_placeSelections_perm htrip
      (Grid.map_number_placeInOrder hempty hplaced)
    intro e he b
    rw [hslots e he b]
  · intro f hf
    rw [Grid.placeSelections_eq] at hf
    obtain ⟨e, he, rfl⟩ := List.mem_map.mp hf
    rw [DayPlan.suggested_eq, (Grid.agreeButSelections_addSelections _ _ e).flatMap_eq Prod.snd,
      List.flatMap_eq_nil_iff]
    intro b _
    rw [hslots e he b]

theorem suggest_eq_ok {selected candidates : List Place} {days after : List DayPlan}
    (h : d.suggest s request selected candidates days = .ok after) :
    List.Forall₂ (fun e f => Grid.AgreeButSuggestions e f ∧ ∀ p ∈ f.suggested, p ∈ e.suggested ∨
      ∃ q ∈ candidates, p = q.withSource .aiRecommended ∧ q.key ∉ selected.map (·.key))
      days after := by
  obtain ⟨_, _, h⟩ := Result.bind_eq_ok.mp h
  obtain ⟨regions, _, h⟩ := Result.bind_eq_ok.mp h
  split at h
  next =>
    rw [Result.pure_eq_ok] at h
    subst h
    exact List.forall₂_same.mpr fun e _ => ⟨DayPlan.AgreeOn.refl e, fun p hp => .inl hp⟩
  next =>
    obtain ⟨_, _, h⟩ := Result.bind_eq_ok.mp h
    obtain ⟨capacity, _, h⟩ := Result.bind_eq_ok.mp h
    refine Result.forall₂_of_mapM h fun e _ f hf => ?_
    obtain ⟨hagree, hnew⟩ := Grid.fillDay_eq_ok hf
    refine ⟨hagree, fun p hp => (hnew p hp).imp_right ?_⟩
    rintro ⟨q, hq, hsource, hfree⟩
    exact ⟨q, (Grid.distinctPlaces_sublist [] candidates).subset hq, hsource, hfree⟩

/-- A trip is laid out by its passes: bookings and selections are placed, and then candidates suggested. -/
theorem passes_of_distribute {selections : List Place} {candidates : Result (List Place)}
    {grid : Grid}
    (h : d.distribute s request selections bookings candidates = .ok (grid, warnings)) :
    ∃ fixed offered, candidates = .ok offered ∧
      d.placeFixed request (selections.map (·.withSource .userSelected)) bookings =
        .ok (fixed, warnings) ∧
      d.suggest s request (selections.map (·.withSource .userSelected)) offered fixed =
        .ok grid.days := by
  obtain ⟨_, _, h⟩ := Result.bind_eq_ok.mp h
  obtain ⟨⟨fixed, warnings'⟩, hfixed, h⟩ := Result.bind_eq_ok.mp h
  obtain ⟨offered, hoffered, h⟩ := Result.bind_eq_ok.mp h
  obtain ⟨days, hfilled, h⟩ := Result.bind_eq_ok.mp h
  rw [Result.pure_eq_ok] at h
  cases h
  exact ⟨fixed, offered, hoffered, hfixed, hfilled⟩

/-- Whatever a grid suggests is one of the candidates, and the traveller did not choose it. -/
theorem exists_candidate_of_distribute {selections offered : List Place} {grid : Grid}
    (hdays : request.days = .ok tripDays) (htrip : 1 ≤ tripDays)
    (h : d.distribute s request selections bookings (.ok offered) = .ok (grid, warnings)) :
    ∀ e ∈ grid.days, ∀ p ∈ e.suggested, ∃ q ∈ offered, p = q.withSource .aiRecommended ∧
      q.key ∉ selections.map (·.key) := by
  obtain ⟨fixed, _, ⟨rfl⟩, hfixed, hfilled⟩ := passes_of_distribute h
  obtain ⟨_, _, hnone⟩ := placeFixed_eq_ok hdays htrip hfixed
  intro f hf p hp
  obtain ⟨e, he, _, hnew⟩ := Result.exists_of_mem_forall₂ (suggest_eq_ok hfilled) hf
  -- No day had a suggestion before, so each of them is new.
  have hfresh := (hnew p hp).resolve_left (by rw [hnone e he]; exact List.not_mem_nil)
  rwa [List.map_map] at hfresh

/-- A grid has all bookings and all selections, and suggests nothing that the traveller chose. -/
theorem distribute_eq_ok {selections : List Place} {candidates : Result (List Place)} {grid : Grid}
    (hdays : request.days = .ok tripDays) (htrip : 1 ≤ tripDays)
    (h : d.distribute s request selections bookings candidates = .ok (grid, warnings)) :
    (grid.days.flatMap (·.confirmed)).Perm bookings ∧
      (grid.days.flatMap (·.selected)).Perm (selections.map (·.withSource .userSelected)) ∧
      ∀ e ∈ grid.days, ∀ p ∈ e.suggested,
        p.source = .aiRecommended ∧ p.key ∉ selections.map (·.key) := by
  obtain ⟨fixed, offered, rfl, hfixed, hfilled⟩ := passes_of_distribute h
  obtain ⟨hconfirmed, hselected, _⟩ := placeFixed_eq_ok hdays htrip hfixed
  have hfilled := suggest_eq_ok hfilled
  have hconfirmed' := Result.map_eq_map_of_forall₂ (hfilled.imp fun e f h => h.1.confirmed_eq)
  have hselected' := Result.map_eq_map_of_forall₂ (hfilled.imp fun e f h => h.1.selected_eq)
  refine ⟨?_, ?_, ?_⟩
  · rwa [List.flatMap_def, hconfirmed', ← List.flatMap_def]
  · rwa [List.flatMap_def, hselected', ← List.flatMap_def]
  · intro e he p hp
    obtain ⟨q, _, rfl, hfree⟩ := exists_candidate_of_distribute hdays htrip h e he p hp
    exact ⟨rfl, hfree⟩

end Wayfare.Distributor
