import Wayfare.Proofs.Booking
import Wayfare.Proofs.Calendar.MomentText
import Wayfare.Proofs.Grid.Distribution
import Wayfare.Proofs.Plan.TripVisits

/-! # The identifiers of stops

Visits are told apart by their identifiers, wherever on the trip they are. The
sites of bookings are not: their identifiers are made from the bookings, and no
visit is passed over because a site goes by its identifier. So the stops of a
trip have identifiers of their own exactly if no two sites share one and no visit
has that of a site.
-/

namespace Wayfare

open Wayfare.Calendar

/-! ## The identifiers of sites -/

namespace Booking

/-- The identifier under which the site of a booking is a stop. -/
def siteKey (b : Booking) : Ident :=
  .text (b.siteId.toOption.getD "")

/-- The identifier of one booking spells the kind and the start of another one, which has none. -/
def Spells (a b : Booking) : Prop :=
  a.id.isTruthy = true ∧ b.id.isTruthy = false ∧ ∃ kind start,
    b.kind = some kind ∧ b.start = .moment start ∧ a.id.display = spelling kind start

/-- How two bookings come to sites with one identifier: their own identifiers read alike; or neither has
one, and both are of one kind and start at the same moment; or one spells the other. -/
def SharesSiteId (a b : Booking) : Prop :=
  (a.id.isTruthy = true ∧ b.id.isTruthy = true ∧ a.id.display = b.id.display) ∨
  (a.id.isTruthy = false ∧ b.id.isTruthy = false ∧ a.kind = b.kind ∧ a.start = b.start) ∨
  Spells a b ∨ Spells b a

theorem kind_name_injective {a b : BookingKind} (h : a.name = b.name) : a = b := by
  cases a <;> cases b <;> first | rfl | exact absurd h (by decide)

theorem spelling_injective {kind kind' : BookingKind} {start start' : Moment}
    (h : spelling kind start = spelling kind' start') : kind = kind' ∧ start = start' := by
  have hname : ∀ kind : BookingKind, ∀ c ∈ kind.name.toList, (c != ':') = true := by
    intro kind
    rw [← List.all_eq_true]
    cases kind <;> rfl
  have hcolon : ∀ rest : List Char, ∀ c ∈ (":".toList ++ rest).head?, (c != ':') = false := by
    rintro _ _ ⟨rfl⟩
    rfl
  have hlist := congrArg String.toList h
  simp only [spelling, String.toList_append, List.append_assoc] at hlist
  -- A name has no colon, so the first one ends it.
  have hfront := congrArg (List.takeWhile (· != ':')) hlist
  rw [Decimal.takeWhile_append_of_head (hname kind) (hcolon _),
    Decimal.takeWhile_append_of_head (hname kind') (hcolon _)] at hfront
  obtain rfl := kind_name_injective (String.toList_inj.mp hfront)
  have htext := List.append_cancel_left (List.append_cancel_left hlist)
  exact ⟨rfl, Moment.text_injective (String.toList_inj.mp htext)⟩

theorem confirmed_append_inj {s t : String} : "confirmed:" ++ s = "confirmed:" ++ t ↔ s = t :=
  String.append_right_inj _

/-- Two sites have one identifier exactly in the ways that bookings come to share one. -/
theorem siteId_eq_iff {a b : Booking} {i j : String} (ha : a.siteId = .ok i) (hb : b.siteId = .ok j) :
    i = j ↔ SharesSiteId a b := by
  rcases siteId_eq_ok ha with ⟨hgivenA, rfl⟩ | ⟨hopenA, kindA, startA, hkindA, hstartA, rfl⟩ <;>
    rcases siteId_eq_ok hb with ⟨hgivenB, rfl⟩ | ⟨hopenB, kindB, startB, hkindB, hstartB, rfl⟩ <;>
    rw [confirmed_append_inj]
  · simp [SharesSiteId, Spells, hgivenA, hgivenB]
  · simp [SharesSiteId, Spells, hgivenA, hopenB, hkindB, hstartB]
  · simp [SharesSiteId, Spells, hopenA, hgivenB, hkindA, hstartA, eq_comm]
  · have hsame : spelling kindA startA = spelling kindB startB ↔ kindA = kindB ∧ startA = startB :=
      ⟨spelling_injective, fun h => by rw [h.1, h.2]⟩
    simp [SharesSiteId, Spells, hopenA, hopenB, hkindA, hkindB, hstartA, hstartB, hsame]

theorem siteKey_eq {b : Booking} {id : String} (h : b.siteId = .ok id) : b.siteKey = .text id := by
  rw [siteKey, h]
  rfl

/-- The sites of bookings have the identifiers of the bookings that are located. -/
theorem keys_sites {bookings : List Booking} {sites : List Place}
    (h : Booking.sites bookings = .ok sites) :
    sites.map (·.key) = (bookings.filter isLocated).map siteKey ∧
      ∀ b ∈ bookings.filter isLocated, ∃ id, b.siteId = .ok id := by
  have hsites : List.Forall₂ (fun b q => q.key = siteKey b ∧ ∃ id, b.siteId = .ok id)
      (bookings.filter isLocated) sites := (sites_eq_ok h).imp fun b q hsite => by
    obtain ⟨_, id, _, hid, _, rfl⟩ := site_eq_some hsite
    exact ⟨(siteKey_eq hid).symm, id, hid⟩
  refine ⟨Result.map_eq_map_of_forall₂ (hsites.imp fun _ _ => And.left), fun b hb => ?_⟩
  obtain ⟨_, _, _, hid⟩ := Result.exists_of_mem_forall₂ hsites.flip hb
  exact hid

/-- The sites have identifiers of their own exactly if no two located bookings share one. -/
theorem nodup_siteKeys_iff {bookings : List Booking}
    (hids : ∀ b ∈ bookings.filter isLocated, ∃ id, b.siteId = .ok id) :
    ((bookings.filter isLocated).map siteKey).Nodup ↔
      (bookings.filter isLocated).Pairwise fun a b => ¬ SharesSiteId a b := by
  rw [List.Nodup, List.pairwise_map]
  apply List.Pairwise.iff_of_mem
  intro a b ha hb
  obtain ⟨i, hi⟩ := hids a ha
  obtain ⟨j, hj⟩ := hids b hb
  rw [siteKey_eq hi, siteKey_eq hj, ← siteId_eq_iff hi hj]
  simp

end Booking

/-! ## The stops of a trip -/

namespace Plan

section Stops

variable {s : Settings} {d : Distributor} {p : Planner} {request : TripRequest} {tripDays : Int}
variable {selections offered : List Place} {bookings : List Booking} {grid : Grid}
variable {warnings : List String} {planned : List PlannedDay}

/-- What is visited on a trip was selected or offered, and all selections are visited. -/
theorem keys_visited (hdays : request.days = .ok tripDays) (htrip : 1 ≤ tripDays)
    (hgrid : d.distribute s request selections bookings (.ok offered) = .ok (grid, warnings))
    {visited : List Place}
    (hvisits : Visits (grid.inOrder.flatMap (·.selected)) (grid.inOrder.flatMap (·.suggested)) []
      visited) :
    (∀ q ∈ selections, q.key ∈ visited.map (·.key)) ∧
      ∀ v ∈ visited, ∃ q ∈ selections ++ offered, v.key = q.key := by
  obtain ⟨_, hselected, _⟩ := Distributor.distribute_eq_ok hdays htrip hgrid
  have hsuggested := Distributor.exists_candidate_of_distribute hdays htrip hgrid
  have horder : grid.inOrder.Perm grid.days := List.mergeSort_perm _ _
  have hselected := (horder.flatMap_right (·.selected)).trans hselected
  refine ⟨fun q hq => ?_, fun v hv => ?_⟩
  · have hmem := hselected.mem_iff.mpr (List.mem_map_of_mem (f := (·.withSource .userSelected)) hq)
    exact (mem_usedAfter.mp (hvisits.complete _ hmem)).resolve_right List.not_mem_nil
  · rcases hvisits.subset v hv with hmem | hmem
    · obtain ⟨q, hq, rfl⟩ := List.mem_map.mp (hselected.mem_iff.mp hmem)
      exact ⟨q, List.mem_append_left _ hq, rfl⟩
    · obtain ⟨e, he, hmem⟩ := List.mem_flatMap.mp hmem
      obtain ⟨q, hq, rfl, _⟩ := hsuggested e (horder.mem_iff.mp he) v hmem
      exact ⟨q, List.mem_append_right _ hq, rfl⟩

/-- The stops of a trip are the sites of the bookings that have one and the visits. -/
theorem keys_stops_perm (hdays : request.days = .ok tripDays) (htrip : 1 ≤ tripDays)
    (hgrid : d.distribute s request selections bookings (.ok offered) = .ok (grid, warnings))
    (hplan : p.planGrid s grid request = .ok planned) :
    ((planned.flatMap (·.stops)).map (·.key)).Perm
        ((bookings.filter Booking.isLocated).map Booking.siteKey ++
          (planned.flatMap (·.visited)).map (·.key)) ∧
      ∀ b ∈ bookings.filter Booking.isLocated, ∃ id, b.siteId = .ok id := by
  obtain ⟨hconfirmed, _, _⟩ := Distributor.distribute_eq_ok hdays htrip hgrid
  obtain ⟨_, _, sites, hsites, hplanned⟩ := Planner.visits_planGrid hplan
  -- The days have the bookings in another order than the request, and so the sites as well.
  have horder : grid.inOrder.Perm grid.days := List.mergeSort_perm _ _
  have hconfirmed := (horder.flatMap_right (·.confirmed)).trans hconfirmed
  obtain ⟨sites', hsites', hperm⟩ := Booking.sites_perm hconfirmed.symm hsites
  obtain ⟨hkeys, hids⟩ := Booking.keys_sites hsites'
  refine ⟨?_, hids⟩
  rw [← hkeys, ← List.map_append]
  exact (hplanned.trans (hperm.symm.append_right _)).map _

end Stops

/-! ## A hotel and a place -/

namespace HotelDay

def settings : Settings :=
  { speeds := [], defaultSpeed := 0.0 }

def distributor : Distributor :=
  { capacity := .int 2, selectionsPerDay := .int 3, suggestionsPerBlock := .int 2 }

def planner : Planner :=
  { clusters := ⟨.spread, .int 42, .int 100, .real 0.001⟩
    routes := ⟨.balanced, .text "car", .int 10, .int 90⟩
    capacity := .int 2
    placesPerCluster := .int 4
    selection := .rank
    beamWidth := .int 3 }

def request : TripRequest :=
  { threadId := .text "t"
    destinations := .list [.text "Lyon"]
    transportMode := .text "car" }

def date : Date :=
  ⟨739000, by decide, by decide⟩

/-- A hotel whose site is a stop. -/
def hotel : Booking :=
  { title := .text "Hotel"
    start := .moment ⟨date, 9 * hour, none, by decide⟩
    finish := .moment ⟨date, 10 * hour, none, by decide⟩
    kind := some .hotel
    latitude := .real 45.0
    longitude := .real 4.0
    id := .text "1" }

/-- A place without a position, under any identifier. -/
def place (id : String) : Place :=
  { id := .text id, name := .text "Cafe", category := .text "cafe" }

/-- The day of the hotel with the place in a block. -/
def dayWith (id : String) : DayPlan :=
  (({ number := 1, date := some date } : DayPlan).modify .morning fun slot =>
    { slot with confirmed := [hotel] }).modify .afternoon fun slot =>
    { slot with selected := [(place id).withSource .userSelected] }

/-- A day with the hotel is planned, whatever the identifier of the place that is chosen for it. -/
theorem exists_plan (id : String) :
    ∃ grid planned,
      distributor.distribute settings request [place id] [hotel] (.ok []) = .ok (grid, []) ∧
        planner.planGrid settings grid request = .ok planned := by
  let empty : DayPlan := { number := 1, date := some date }
  let booked := empty.modify .morning fun slot => { slot with confirmed := [hotel] }
  have hblock : Grid.bestBlock 2 "cafe" booked.slots = .afternoon := by decide +kernel
  have hselected :
      Grid.addSelection 2 ((place id).withSource .userSelected) booked = dayWith id := by
    rw [Grid.addSelection, show ((place id).withSource .userSelected).categoryText = "cafe" from rfl,
      hblock]
    rfl
  have hfixed : Grid.placeConfirmed (distributor.indexFor 1 [hotel]) (some date) 1 [empty] [hotel] =
      .ok ([booked], []) := by
    rw [Grid.placeConfirmed, Grid.chronological, if_pos (by rfl), List.mergeSort_singleton]
    rfl
  have hlaid : distributor.placeFixed request ([place id].map (·.withSource .userSelected)) [hotel] =
      .ok ([dayWith id], []) := by
    rw [← hselected]
    exact Result.bind_eq_ok.mpr ⟨1, rfl, Result.bind_eq_ok.mpr ⟨[empty], rfl,
      Result.bind_eq_ok.mpr ⟨_, hfixed, rfl⟩⟩⟩
  let grid : Grid :=
    { threadId := .text "t", tripDays := .int 1, start := some date, days := [dayWith id] }
  have hcheck : request.check = .ok () := by decide
  have hgrid : distributor.distribute settings request [place id] [hotel] (.ok []) =
      .ok (grid, []) :=
    Result.bind_eq_ok.mpr ⟨(), hcheck, Result.bind_eq_ok.mpr ⟨_, hlaid, rfl⟩⟩
  have horder : grid.inOrder = [dayWith id] := List.mergeSort_singleton _
  have hplan : ∃ planned, planner.planDay settings (.text "car") [] (.int 1) (dayWith id) =
      .ok planned :=
    ⟨_, Result.bind_eq_ok.mpr ⟨_, rfl, Result.bind_eq_ok.mpr ⟨_,
      Result.bind_eq_ok.mpr ⟨_, rfl, Value.sortBy_singleton _ _⟩,
      Result.bind_eq_ok.mpr ⟨_, rfl, rfl⟩⟩⟩⟩
  obtain ⟨⟨day, used⟩, hday⟩ := hplan
  refine ⟨grid, [day], hgrid, ?_⟩
  rw [Planner.planGrid, horder]
  exact Result.bind_eq_ok.mpr ⟨_, hday, rfl⟩

end HotelDay

/-! ## When stops have identifiers of their own -/

/-- A trip of at least one day, from the request to the plan. Its stops are the sites of the bookings that
have one and the visits. The visits have identifiers of their own, each that of a selection or of a
candidate, and no selection is missed. So the stops have identifiers of their own exactly if no two
bookings share that of a site and no visit has one of a site. -/
theorem stops_nodup_iff {s : Settings} {d : Distributor} {p : Planner} {request : TripRequest}
    {tripDays : Int} {selections offered : List Place} {bookings : List Booking} {grid : Grid}
    {warnings : List String} {planned : List PlannedDay} (hdays : request.days = .ok tripDays)
    (htrip : 1 ≤ tripDays)
    (hgrid : d.distribute s request selections bookings (.ok offered) = .ok (grid, warnings))
    (hplan : p.planGrid s grid request = .ok planned) :
    let stops := (planned.flatMap (·.stops)).map (·.key)
    let visits := (planned.flatMap (·.visited)).map (·.key)
    let located := bookings.filter Booking.isLocated
    stops.Perm (located.map Booking.siteKey ++ visits) ∧ visits.Nodup ∧
    (∀ q ∈ selections, q.key ∈ visits) ∧ (∀ k ∈ visits, ∃ q ∈ selections ++ offered, k = q.key) ∧
    (stops.Nodup ↔ located.Pairwise (fun a b => ¬ a.SharesSiteId b) ∧
      ∀ b ∈ located, b.siteKey ∉ visits) := by
  intro stops visits located
  obtain ⟨hvisits, _, _⟩ := Planner.visits_planGrid hplan
  obtain ⟨hall, hfrom⟩ := keys_visited hdays htrip hgrid hvisits
  obtain ⟨hstops, hids⟩ := keys_stops_perm hdays htrip hgrid hplan
  refine ⟨hstops, hvisits.nodup, hall, List.forall_mem_map.mpr hfrom, ?_⟩
  rw [hstops.nodup_iff, List.nodup_append', Booking.nodup_siteKeys_iff hids]
  refine and_congr_right fun _ => ?_
  rw [and_iff_right hvisits.nodup, List.disjoint_left, List.forall_mem_map]

/-- A café under an identifier of its own is told apart from the hotel. -/
theorem stops_nodup_iff_cafe :
    ∃ grid planned,
      HotelDay.distributor.distribute HotelDay.settings HotelDay.request [HotelDay.place "cafe"]
        [HotelDay.hotel] (.ok []) = .ok (grid, []) ∧
      HotelDay.planner.planGrid HotelDay.settings grid HotelDay.request = .ok planned ∧
      ((planned.flatMap (·.stops)).map (·.key)).Nodup := by
  obtain ⟨grid, planned, hgrid, hplan⟩ := HotelDay.exists_plan "cafe"
  obtain ⟨_, _, _, hfrom, hiff⟩ := stops_nodup_iff (by rfl) (by decide) hgrid hplan
  refine ⟨grid, planned, hgrid, hplan, hiff.mpr ⟨List.pairwise_singleton _ _, ?_⟩⟩
  intro b hb hvisit
  obtain rfl := List.mem_singleton.mp hb
  obtain ⟨q, hq, hkey⟩ := hfrom _ hvisit
  obtain rfl := List.mem_singleton.mp hq
  exact absurd hkey (by decide)

/-- A place that goes by the identifier of the hotel is visited all the same, and then two stops have that
identifier. -/
theorem repeated_stop_identifier :
    ∃ grid planned,
      HotelDay.distributor.distribute HotelDay.settings HotelDay.request
        [HotelDay.place "confirmed:1"] [HotelDay.hotel] (.ok []) = .ok (grid, []) ∧
      HotelDay.planner.planGrid HotelDay.settings grid HotelDay.request = .ok planned ∧
      ¬ ((planned.flatMap (·.stops)).map (·.key)).Nodup := by
  obtain ⟨grid, planned, hgrid, hplan⟩ := HotelDay.exists_plan "confirmed:1"
  obtain ⟨hvisits, _, _⟩ := Planner.visits_planGrid hplan
  obtain ⟨hall, _⟩ := keys_visited (by rfl) (by decide) hgrid hvisits
  obtain ⟨hstops, _⟩ := keys_stops_perm (by rfl) (by decide) hgrid hplan
  refine ⟨grid, planned, hgrid, hplan, fun hnodup => ?_⟩
  have hdisjoint := (List.nodup_append'.mp (hstops.nodup_iff.mp hnodup)).2.2
  exact hdisjoint List.mem_cons_self (hall _ List.mem_cons_self)

end Plan

end Wayfare
