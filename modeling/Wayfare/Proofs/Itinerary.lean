import Mathlib.Data.Finset.Card
import Wayfare.Itinerary
import Wayfare.Proofs.Grid.Distribution
import Wayfare.Proofs.Plan.TripVisits

/-! # The stops of an itinerary

From the request to the itinerary nothing is lost and nothing is doubled: the
trip stops at the sites of its bookings, at every selection once, and at
suggestions that are neither selections nor repeated.
-/

namespace Wayfare

open Wayfare.Calendar Wayfare.Plan
open Wayfare.Booking (length_sites of_mem_sites sites_perm)

/-! ## Visits by where they come from -/

namespace Plan.Visits

variable {wanted offered visited : List Place}

theorem source_eq_iff (h : Visits wanted offered [] visited)
    (hwanted : ∀ p ∈ wanted, p.source = .userSelected)
    (hoffered : ∀ p ∈ offered, p.source = .aiRecommended ∧ p.key ∉ wanted.map (·.key))
    {p : Place} (hp : p ∈ visited) :
    (p.source = .userSelected ↔ p.key ∈ wanted.map (·.key)) ∧
      (p.source = .aiRecommended ↔ p.source ≠ .userSelected) ∧ p.source ≠ .confirmed := by
  rcases h.subset p hp with hmem | hmem
  · rw [hwanted p hmem]
    exact ⟨iff_of_true rfl (List.mem_map_of_mem hmem), by decide, by decide⟩
  · obtain ⟨hsource, hkey⟩ := hoffered p hmem
    rw [hsource]
    exact ⟨iff_of_false (by decide) hkey, by decide, by decide⟩

theorem mem_keys_iff (h : Visits wanted offered [] visited)
    (hwanted : ∀ p ∈ wanted, p.source = .userSelected)
    (hoffered : ∀ p ∈ offered, p.source = .aiRecommended ∧ p.key ∉ wanted.map (·.key))
    (k : Ident) :
    k ∈ (visited.filter fun p => p.source == .userSelected).map (·.key) ↔
      k ∈ wanted.map (·.key) := by
  constructor
  · intro hk
    obtain ⟨p, hp, rfl⟩ := List.mem_map.mp hk
    obtain ⟨hp, hsource⟩ := List.mem_filter.mp hp
    exact (h.source_eq_iff hwanted hoffered hp).1.mp (beq_iff_eq.mp hsource)
  · intro hk
    obtain ⟨p, hp, rfl⟩ := List.mem_map.mp hk
    have hvisited := (mem_usedAfter.mp (h.complete p hp)).resolve_right List.not_mem_nil
    obtain ⟨q, hq, hkey⟩ := List.mem_map.mp hvisited
    have hsource := (h.source_eq_iff hwanted hoffered hq).1.mpr (hkey ▸ hk)
    exact List.mem_map.mpr ⟨q, List.mem_filter.mpr ⟨hq, beq_iff_eq.mpr hsource⟩, hkey⟩

/-- As many visits are selections as the selections have identifiers. -/
theorem countP_userSelected (h : Visits wanted offered [] visited)
    (hwanted : ∀ p ∈ wanted, p.source = .userSelected)
    (hoffered : ∀ p ∈ offered, p.source = .aiRecommended ∧ p.key ∉ wanted.map (·.key)) :
    (visited.countP fun p => p.source == .userSelected) = (wanted.map (·.key)).toFinset.card := by
  have hnodup : ((visited.filter fun p => p.source == .userSelected).map (·.key)).Nodup :=
    (List.filter_sublist.map _).nodup h.nodup
  rw [List.countP_eq_length_filter, ← List.length_map (·.key),
    ← List.toFinset_card_of_nodup hnodup]
  congr 1
  ext k
  rw [List.mem_toFinset, List.mem_toFinset]
  exact h.mem_keys_iff hwanted hoffered k

theorem length_eq (h : Visits wanted offered [] visited)
    (hwanted : ∀ p ∈ wanted, p.source = .userSelected)
    (hoffered : ∀ p ∈ offered, p.source = .aiRecommended ∧ p.key ∉ wanted.map (·.key)) :
    visited.length = (visited.countP fun p => p.source == .userSelected) +
      visited.countP fun p => p.source == .aiRecommended := by
  rw [List.length_eq_countP_add_countP (fun p : Place => p.source == .userSelected)]
  congr 1
  apply List.countP_congr
  intro p hp
  rw [decide_eq_true_iff, beq_iff_eq, beq_iff_eq]
  exact (h.source_eq_iff hwanted hoffered hp).2.1.symm

end Plan.Visits

namespace Itinerary

def stops (t : Itinerary) : List Place :=
  t.days.flatMap (·.places)

/-- The stops of a trip other than the sites of bookings. -/
def visits (t : Itinerary) : List Place :=
  t.stops.filter fun p => p.source ≠ .confirmed

theorem statisticsOf_eq_ok {days : List DayItinerary} {figures : TripStatistics}
    (h : statisticsOf days = .ok figures) :
    let places := days.flatMap (·.places)
    figures.totalPlaces = places.length ∧
      figures.userSelected = (places.countP fun p => p.source == .userSelected) ∧
      figures.aiRecommended = (places.countP fun p => p.source == .aiRecommended) ∧
      figures.confirmed = ((days.flatMap (·.slots)).flatMap (·.confirmed)).length := by
  obtain ⟨categories, _, h⟩ := Result.bind_eq_ok.mp h
  obtain ⟨rating, _, h⟩ := Result.bind_eq_ok.mp h
  obtain ⟨reviews, _, h⟩ := Result.bind_eq_ok.mp h
  rw [Result.pure_eq_ok] at h
  subst h
  exact ⟨rfl, rfl, rfl, List.length_flatMap.symm⟩

/-- The days of a plan are those of its itinerary, and the figures are about their stops. -/
theorem ofPlan_eq_ok {planned : List PlannedDay} {t : Itinerary} (h : ofPlan planned = .ok t) :
    t.stops.Perm (planned.flatMap (·.stops)) ∧
      t.statistics.totalPlaces = t.stops.length ∧
      t.statistics.userSelected = (t.stops.countP fun p => p.source == .userSelected) ∧
      t.statistics.aiRecommended = (t.stops.countP fun p => p.source == .aiRecommended) ∧
      t.statistics.confirmed = (planned.flatMap (·.confirmed)).length := by
  obtain ⟨sorted, hsorted, h⟩ := Result.bind_eq_ok.mp h
  obtain ⟨figures, hfigures, h⟩ := Result.bind_eq_ok.mp h
  rw [Result.pure_eq_ok] at h
  subst h
  have hdays := Value.sortBy_perm hsorted
  obtain ⟨htotal, huser, hai, hconfirmed⟩ := statisticsOf_eq_ok hfigures
  refine ⟨?_, htotal, huser, hai, ?_⟩
  · have hstops := hdays.flatMap_right (·.places)
    rw [List.flatMap_map] at hstops
    exact hstops
  · have hslots := (hdays.flatMap_right (·.slots)).flatMap_right (·.confirmed)
    rw [List.flatMap_map] at hslots
    exact hconfirmed.trans (hslots.length_eq.trans (congrArg _ List.flatMap_assoc))

section Stops

variable {t : Itinerary} {sites visited : List Place}

theorem visits_perm (hstops : t.stops.Perm (sites ++ visited))
    (hsites : ∀ q ∈ sites, q.source = .confirmed)
    (hvisited : ∀ q ∈ visited, q.source ≠ .confirmed) : t.visits.Perm visited := by
  refine (hstops.filter _).trans ?_
  rw [List.filter_append, List.filter_eq_nil_iff.mpr, List.filter_eq_self.mpr, List.nil_append]
  · exact fun q hq => decide_eq_true (hvisited q hq)
  · exact fun q hq => by simp [hsites q hq]

theorem countP_stops (hstops : t.stops.Perm (sites ++ visited))
    (hsites : ∀ q ∈ sites, q.source = .confirmed) {source : Source} (h : source ≠ .confirmed) :
    (t.stops.countP fun q => q.source == source) = visited.countP fun q => q.source == source := by
  have hnone : (sites.countP fun q => q.source == source) = 0 := by
    apply List.countP_eq_zero.mpr
    intro q hq
    rw [hsites q hq, beq_iff_eq]
    exact h.symm
  rw [hstops.countP_eq, List.countP_append, hnone, Nat.zero_add]

end Stops

/-- A trip of at least one day, from the request to the itinerary. Every selection is visited once and as
a selection; nothing is visited twice; and the figures count the selections by their identifiers, the
bookings, and all stops, which are the visits and the sites of those bookings that have one. -/
theorem visits_once {s : Settings} {d : Distributor} {p : Planner} {request : TripRequest}
    {tripDays : Int} {selections : List Place} {bookings : List Booking}
    {candidates : Result (List Place)} {grid : Grid} {warnings : List String}
    {planned : List PlannedDay} {t : Itinerary}
    (hdays : request.days = .ok tripDays) (htrip : 1 ≤ tripDays)
    (hgrid : d.distribute s request selections bookings candidates = .ok (grid, warnings))
    (hplan : p.planGrid s grid request = .ok planned) (ht : ofPlan planned = .ok t) :
    (∀ q ∈ selections, (t.visits.map (·.key)).count q.key = 1 ∧
      ∀ v ∈ t.visits, v.key = q.key → v.source = .userSelected) ∧
    (t.visits.map (·.key)).Nodup ∧
    t.statistics.userSelected = (selections.map (·.key)).toFinset.card ∧
    t.statistics.confirmed = bookings.length ∧
    t.statistics.totalPlaces = t.statistics.userSelected + t.statistics.aiRecommended +
      bookings.countP Booking.isLocated ∧
    ∃ sites, Booking.sites bookings = .ok sites ∧ t.stops.Perm (sites ++ t.visits) := by
  obtain ⟨hconfirmed, hselected, hsuggested⟩ := Distributor.distribute_eq_ok hdays htrip hgrid
  obtain ⟨hvisits, hkept, sites, hsites, hplanned⟩ := Planner.visits_planGrid hplan
  obtain ⟨hstops, htotal, huser, hai, hfixed⟩ := ofPlan_eq_ok ht
  have horder : grid.inOrder.Perm grid.days := List.mergeSort_perm _ _
  have hconfirmed := (horder.flatMap_right (·.confirmed)).trans hconfirmed
  have hselected := (horder.flatMap_right (·.selected)).trans hselected
  -- What the days offer is told apart by its source, and so are the sites of bookings.
  have hkeys : ((grid.inOrder.flatMap (·.selected)).map (·.key)).Perm (selections.map (·.key)) := by
    have hmap := hselected.map (·.key)
    rwa [List.map_map] at hmap
  have hwanted : ∀ q ∈ grid.inOrder.flatMap (·.selected), q.source = .userSelected := by
    intro q hq
    obtain ⟨q, _, rfl⟩ := List.mem_map.mp (hselected.mem_iff.mp hq)
    rfl
  have hoffered : ∀ q ∈ grid.inOrder.flatMap (·.suggested), q.source = .aiRecommended ∧
      q.key ∉ (grid.inOrder.flatMap (·.selected)).map (·.key) := by
    intro q hq
    obtain ⟨e, he, hq⟩ := List.mem_flatMap.mp hq
    rw [hkeys.mem_iff]
    exact hsuggested e (horder.mem_iff.mp he) q hq
  have hsource := fun q hq => hvisits.source_eq_iff hwanted hoffered (p := q) hq
  -- The days have the bookings in another order than the request, and so the sites as well.
  obtain ⟨sites', hsites', hperm⟩ := sites_perm hconfirmed.symm hsites
  have hstops := hstops.trans (hplanned.trans (hperm.symm.append_right _))
  have hlength := length_sites hsites'
  have hanchors : ∀ q ∈ sites', q.source = .confirmed := fun q hq => (of_mem_sites hsites' hq).2
  have hvisited := visits_perm hstops hanchors fun q hq => (hsource q hq).2.2
  refine ⟨?_, (hvisited.map _).nodup_iff.mpr hvisits.nodup, ?_, ?_, ?_, sites', hsites', ?_⟩
  · intro q hq
    have hkey := hkeys.mem_iff.mpr (List.mem_map_of_mem hq)
    refine ⟨?_, ?_⟩
    · rw [(hvisited.map _).count_eq]
      apply List.count_eq_one_of_mem hvisits.nodup
      exact (List.filter_sublist.map _).subset
        ((hvisits.mem_keys_iff hwanted hoffered q.key).mpr hkey)
    · intro v hv heq
      exact (hsource v (hvisited.mem_iff.mp hv)).1.mpr (heq ▸ hkey)
  · rw [huser, countP_stops hstops hanchors (by decide),
      hvisits.countP_userSelected hwanted hoffered, List.toFinset_eq_of_perm _ _ hkeys]
  · rw [hfixed, List.flatMap_def, hkept, ← List.flatMap_def, hconfirmed.length_eq]
  · rw [htotal, huser, hai, countP_stops hstops hanchors (by decide),
      countP_stops hstops hanchors (by decide), hstops.length_eq, List.length_append, hlength,
      hvisits.length_eq hwanted hoffered, Nat.add_comm]
  · exact hstops.trans (hvisited.symm.append_left _)

/-- A day with one hotel, for which the same café was chosen twice. -/
theorem visits_once_cafe_twice :
    let s : Settings := { speeds := [], defaultSpeed := 0.0 }
    let d : Distributor :=
      { capacity := .int 2, selectionsPerDay := .int 3, suggestionsPerBlock := .int 2 }
    let p : Planner :=
      { clusters := ⟨.spread, .int 42, .int 100, .real 0.001⟩
        routes := ⟨.balanced, .text "car", .int 10, .int 90⟩
        capacity := .int 2
        placesPerCluster := .int 4
        selection := .rank
        beamWidth := .int 3 }
    let request : TripRequest :=
      { threadId := .text "t"
        destinations := .list [.text "Lyon"]
        transportMode := .text "car" }
    let first : Date := ⟨739000, by decide, by decide⟩
    let hotel : Booking :=
      { title := .text "Hotel"
        start := .moment ⟨first, 9 * hour, none, by decide⟩
        finish := .moment ⟨first, 10 * hour, none, by decide⟩
        kind := some .hotel
        latitude := .real 45.0
        longitude := .real 4.0
        id := .text "1" }
    let cafe : Place := { id := .text "cafe", name := .text "Cafe", category := .text "cafe" }
    let again : Place := { cafe with name := .text "Cafe again" }
    ∃ grid planned t, d.distribute s request [cafe, again] [hotel] (.ok []) = .ok (grid, []) ∧
      p.planGrid s grid request = .ok planned ∧ ofPlan planned = .ok t ∧
      (t.visits.map (·.key)).count (.text "cafe") = 1 ∧ t.statistics.userSelected = 1 ∧
      t.statistics.confirmed = 1 := by
  intro s d p request first hotel cafe again
  let day : DayPlan := { number := 1, date := some first }
  let days := Grid.placeSelections 2 (.int 3) 1 0
    [day.modify .morning fun s => { s with confirmed := [hotel] }]
    ([cafe, again].map (·.withSource .userSelected))
  let grid : Grid :=
    { threadId := .text "t", tripDays := .int 1, start := some first, days := days }
  have hfixed : Grid.placeConfirmed (d.indexFor 1 [hotel]) (some first) 1 [day] [hotel] =
      .ok ([day.modify .morning fun s => { s with confirmed := [hotel] }], []) := by
    rw [Grid.placeConfirmed, Grid.chronological, if_pos (by rfl), List.mergeSort_singleton]
    dsimp only [hotel, first, d, day]
    rfl
  have hlaid : d.placeFixed request ([cafe, again].map (·.withSource .userSelected)) [hotel] =
      .ok (days, []) :=
    Result.bind_eq_ok.mpr ⟨1, rfl, Result.bind_eq_ok.mpr ⟨[day], rfl,
      Result.bind_eq_ok.mpr ⟨_, hfixed, rfl⟩⟩⟩
  have hcheck : request.check = .ok () := by decide
  have hgrid : d.distribute s request [cafe, again] [hotel] (.ok []) = .ok (grid, []) :=
    Result.bind_eq_ok.mpr ⟨(), hcheck, Result.bind_eq_ok.mpr ⟨(days, []), hlaid, rfl⟩⟩
  have horder : grid.inOrder = days := List.mergeSort_singleton _
  have hplan : ∃ planned t, p.planGrid s grid request = .ok planned ∧ ofPlan planned = .ok t := by
    rw [Planner.planGrid, horder]
    dsimp only [days, hotel, first, day, p, s, request, cafe, again]
    exact ⟨_, _, Result.bind_eq_ok.mpr ⟨_, Result.bind_eq_ok.mpr ⟨_, rfl, Result.bind_eq_ok.mpr
      ⟨_, Result.bind_eq_ok.mpr ⟨_, rfl, Value.sortBy_singleton _ _⟩,
        Result.bind_eq_ok.mpr ⟨_, rfl, rfl⟩⟩⟩, rfl⟩,
      Result.bind_eq_ok.mpr ⟨_, Value.sortBy_singleton _ _, rfl⟩⟩
  obtain ⟨planned, t, hplan, ht⟩ := hplan
  obtain ⟨hselected, _, huser, hconfirmed, _⟩ := visits_once (by rfl) (by decide) hgrid hplan ht
  exact ⟨grid, planned, t, hgrid, hplan, ht, (hselected cafe List.mem_cons_self).1, huser.trans rfl,
    hconfirmed⟩

end Itinerary

end Wayfare
