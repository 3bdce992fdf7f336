import Wayfare.Proofs.Cluster.Balance
import Wayfare.Proofs.Plan.TripVisits

/-! # Sharing out a list of places

A plain list of places is planned by sharing its clusters out among the days.
Every place is visited once, on a day with all of its cluster, and no day is
much longer than another.
-/

namespace Wayfare.Plan

open Wayfare.Cluster Wayfare.Geo
open scoped List

variable {s : Settings} {p : Planner} {request : TripRequest} {places : List Place}

namespace Planner

/-- The blocks take each of a day's places once. -/
theorem slotsByCategory_perm (members : List Place) :
    ((slotsByCategory members).flatMap (·.places)).Perm members := by
  rw [slotsByCategory, List.flatMap_map]
  exact flatMap_filter_perm Block.nodup_all fun q _ => Block.mem_all _

/-- A day of a list of places goes to all of them, and its blocks have them too. -/
theorem planMembers_eq_ok {number : Int} {members : List Place} {day : PlannedDay}
    (h : p.planMembers s request number members = .ok day) :
    day.number = .int number ∧ day.stops.Perm members ∧ day.visited.Perm members := by
  obtain ⟨route, hroute, h⟩ := Result.bind_eq_ok.mp h
  have hday : ∃ date, day = ⟨.int number, date, route, slotsByCategory members,
      members.filter fun q => !q.isLocated⟩ := by
    dsimp only at h
    split at h <;> obtain ⟨date, _, h⟩ := Result.bind_eq_ok.mp h <;>
      obtain ⟨_, _, h⟩ := Result.bind_eq_ok.mp h <;>
      exact ⟨date, (Result.pure_eq_ok.mp h).symm⟩
  obtain ⟨date, rfl⟩ := hday
  refine ⟨rfl, ?_, slotsByCategory_perm members⟩
  exact ((routePlaces_keeps hroute).1.append_right _).trans
    (List.filter_append_perm Place.isLocated members)

end Planner

/-- The number of stops in the largest cluster. -/
def largestGroup (a : Assignment Stop Float) : Nat :=
  (a.groups.map fun g => g.members.length).max?.getD 0

theorem le_largestGroup {a : Assignment Stop Float} {g : Group Stop Float} (hg : g ∈ a.groups) :
    g.members.length ≤ largestGroup a :=
  List.le_max?_getD_of_mem (List.mem_map_of_mem hg)

/-- What the days of a trip are to a list of places that was shared out among them by its clusters. -/
structure SharesOut (places : List Place) (clusters : Assignment Stop Float) (n : Int)
    (planned : List PlannedDay) : Prop where
  /-- The days are the days of the trip, in order. -/
  numbers : planned.map (·.number) = (List.range n.toNat).map fun i => .int (Int.ofNat i + 1)
  /-- What is told apart is visited once. -/
  once : ∀ q ∈ places, ((planned.flatMap (·.stops)).map (·.key)).count q.key = 1
  /-- Of places with one identifier the first is visited. -/
  first : ∀ v ∈ planned.flatMap (·.stops), places.find? (fun q => q.key == v.key) = some v
  /-- The blocks of a day hold its places and nothing else. -/
  blocks : ∀ day ∈ planned, day.visited.Perm day.stops
  slotted : ∀ day ∈ planned, ∀ v ∈ day.stops, (day.visited.map (·.key)).count v.key = 1
  /-- A cluster is not torn apart. -/
  together : ∀ g ∈ clusters.groups, ∃ day ∈ planned, ∀ m ∈ g.members, m.place ∈ day.stops
  /-- No day is longer than another by more than the largest cluster. -/
  balanced : ∀ d ∈ planned, ∀ e ∈ planned,
    d.stops.length ≤ e.stops.length + max 1 (largestGroup clusters)

namespace Planner

/-- The days of a list of places have grown from its clusters and the places that belong to none. -/
theorem shareOutPlaces_eq_ok {n : Int} {days : List (List Place)}
    (h : p.shareOutPlaces s n places = .ok days) :
    ∃ clusters shared, p.clusters.cluster s (Stop.number 0 (Grid.distinctPlaces [] places)) n =
        .ok clusters ∧
      days = shared.map (·.map (·.place)) ∧
      Grown (max 1 (largestGroup clusters))
        (clusters.groups.map (·.members) ++ clusters.unclustered.map fun q => [q])
        (List.replicate (max 1 n.toNat) []) shared := by
  obtain ⟨clusters, hclusters, h⟩ := Result.bind_eq_ok.mp h
  rw [Result.pure_eq_ok] at h
  refine ⟨clusters, _, hclusters, h.symm, ?_⟩
  have hgroups : ∀ g ∈ clusters.groups.map (·.members),
      g.length ≤ max 1 (largestGroup clusters) := by
    intro g hg
    obtain ⟨group, hgroup, rfl⟩ := List.mem_map.mp hg
    exact Nat.le_trans (le_largestGroup hgroup) (Nat.le_max_right _ _)
  have hsingle : ∀ g ∈ clusters.unclustered.map fun q => [q],
      g.length ≤ max 1 (largestGroup clusters) := by
    intro g hg
    obtain ⟨q, _, rfl⟩ := List.mem_map.mp hg
    exact Nat.le_max_left _ _
  have hshared := grown_shareOut n.toNat hgroups
  have hdays : shareOut n.toNat (clusters.groups.map (·.members)) ≠ [] := by
    rw [← List.length_pos_iff, hshared.length, List.length_replicate]
    omega
  have hrest := Grown.foldl_ontoLightest hdays hsingle
  rw [List.foldl_map] at hrest
  exact hshared.trans hrest

/-- The stops of all days that a list of places was shared out among are its distinct places. -/
theorem flatten_perm_distinctPlaces {n : Int} {clusters : Assignment Stop Float} {bound : Nat}
    {shared : List (List Stop)}
    (hclusters : p.clusters.cluster s (Stop.number 0 (Grid.distinctPlaces [] places)) n =
      .ok clusters)
    (hgrown : Grown bound (clusters.groups.map (·.members) ++ clusters.unclustered.map fun q => [q])
      (List.replicate (max 1 n.toNat) []) shared) :
    (shared.map (·.map (·.place))).flatten.Perm (Grid.distinctPlaces [] places) := by
  have hstops := (hgrown.stops.trans (List.Perm.of_eq ?_)).trans (partitions_clusterOptions hclusters)
  · rw [← List.map_flatten, ← Stop.map_place_number 0 (Grid.distinctPlaces [] places)]
    exact hstops.map _
  · rw [List.flatten_replicate_nil, List.nil_append, List.flatten_append, ← List.flatMap_def,
      ← List.flatMap_def, List.flatMap_singleton']

theorem sharedDays_eq {n : Int} (hdays : request.tripDays = .int n) (hn : 1 ≤ n) :
    request.sharedDays = .ok n := by
  rw [TripRequest.sharedDays, hdays]
  exact congrArg Except.ok (max_eq_right hn)

/-- A list of places that is planned is shared out among the days. -/
theorem planPlaces_eq_ok {n : Int} {planned : List PlannedDay} (hdays : request.tripDays = .int n)
    (hn : 1 ≤ n) (h : p.planPlaces s places request = .ok planned) :
    ∃ clusters, p.clusters.cluster s (Stop.number 0 (Grid.distinctPlaces [] places)) n =
      .ok clusters ∧ SharesOut places clusters n planned := by
  obtain ⟨_, _, h⟩ := Result.bind_eq_ok.mp h
  obtain ⟨m, hm, h⟩ := Result.bind_eq_ok.mp h
  obtain rfl : n = m := Except.ok.inj ((sharedDays_eq hdays hn).symm.trans hm)
  obtain ⟨days, hdays, h⟩ := Result.bind_eq_ok.mp h
  obtain ⟨clusters, shared, hclusters, rfl, hgrown⟩ := shareOutPlaces_eq_ok hdays
  have hplanned := Result.forall₂_of_mapM h fun m _ day hday => planMembers_eq_ok hday
  refine ⟨clusters, hclusters, ?_⟩
  let members := shared.map (·.map (·.place))
  have hlength : members.length = n.toNat := by
    rw [List.length_map, hgrown.length, List.length_replicate]
    omega
  have hnumbers : planned.map (·.number) =
      (List.range n.toNat).map fun i => .int (Int.ofNat i + 1) := by
    rw [Result.map_eq_map_of_forall₂ (hplanned.imp fun _ _ hday => hday.1), ← hlength,
      List.range_eq_range', ← List.zipIdx_map_snd 0 members, List.map_map]
    rfl
  have hday : List.Forall₂ (fun m day => PlannedDay.stops day ~ m ∧ day.visited ~ m) members
      planned := by
    rw [← List.zipIdx_map_fst 0 members, List.forall₂_map_left_iff]
    exact hplanned.imp fun _ _ hday => hday.2
  have hstops : (planned.flatMap (·.stops)).Perm (Grid.distinctPlaces [] places) := by
    refine List.Perm.trans ?_ (flatten_perm_distinctPlaces hclusters hgrown)
    exact List.Perm.flatten_congr (List.forall₂_map_left_iff.mpr (hday.imp fun _ _ h => h.1).flip)
  have hnodup : ((planned.flatMap (·.stops)).map (·.key)).Nodup :=
    (hstops.map (·.key)).nodup_iff.mpr (Grid.nodup_distinctPlaces [] places)
  have hvisited : ∀ day ∈ planned, day.visited.Perm day.stops := by
    intro day hmem
    obtain ⟨_, _, hstops, hvisited⟩ := Result.exists_of_mem_forall₂ hday hmem
    exact hvisited.trans hstops.symm
  have hshare : ∀ day ∈ planned, ∃ stops ∈ shared, day.stops.Perm (stops.map (·.place)) := by
    intro day hmem
    obtain ⟨m, hm, hperm, _⟩ := Result.exists_of_mem_forall₂ hday hmem
    obtain ⟨stops, hstops, rfl⟩ := List.mem_map.mp hm
    exact ⟨stops, hstops, hperm⟩
  constructor
  case numbers => exact hnumbers
  case once =>
    intro q hq
    apply List.count_eq_one_of_mem hnodup
    rw [(hstops.map (·.key)).mem_iff]
    exact (Grid.key_mem_distinctPlaces hq).resolve_left List.not_mem_nil
  case first => exact fun v hv => Grid.find?_of_mem_distinctPlaces (hstops.mem_iff.mp hv)
  case blocks => exact hvisited
  case slotted =>
    intro day hmem v hv
    rw [List.map_flatMap, List.nodup_flatMap] at hnodup
    have hkeys := (hvisited day hmem).map (·.key)
    apply List.count_eq_one_of_mem (hkeys.nodup_iff.mpr (hnodup.1 day hmem))
    exact hkeys.mem_iff.mpr (List.mem_map_of_mem hv)
  case together =>
    intro g hg
    obtain ⟨stops, hstops, hpart⟩ := hgrown.together g.members
      (List.mem_append_left _ (List.mem_map_of_mem hg))
    obtain ⟨day, hmem, hperm, _⟩ :=
      Result.exists_of_mem_forall₂ hday.flip (List.mem_map_of_mem hstops)
    refine ⟨day, hmem, fun m hm => hperm.mem_iff.mpr ?_⟩
    exact List.mem_map_of_mem (hpart.subset hm)
  case balanced =>
    intro d hd e he
    obtain ⟨first, hfirst, hd⟩ := hshare d hd
    obtain ⟨second, hsecond, he⟩ := hshare e he
    have hempty : Balanced (max 1 (largestGroup clusters))
        (List.replicate (max 1 n.toNat) ([] : List Stop)) := by
      intro d hd e _
      rw [List.eq_of_mem_replicate hd]
      exact Nat.zero_le _
    rw [hd.length_eq, he.length_eq, List.length_map, List.length_map]
    exact hgrown.balanced hempty first hfirst second hsecond

/-- Whatever is asked for the plan of a list of places has an answer: identifiers and categories can be
read, the fields of located places and the numbers of the options too, all travel times are known, there
are first centres for any of the places, and the calendar reaches to the last day. -/
structure ListReady (s : Settings) (p : Planner) (request : TripRequest) (places : List Place)
    (n : Int) : Prop where
  keys : ∀ q ∈ places, ∃ k, q.readKey = .ok k
  categories : ∀ q ∈ places, ∃ text, q.readCategory = .ok text
  legible : ∀ q ∈ places, q.isLocated = true → q.Legible
  passes : ∃ n, p.routes.maxPasses.asRepeats = .ok n
  stay : ∃ n, p.routes.stayMinutes.asNumber = .ok n
  speed : ∃ speed, readSpeed s (p.routes.modeFor request.transportMode) = .ok speed ∧
    ∀ q ∈ places, ∀ r ∈ places,
      ∃ minutes, travelMinutes ceilReal (Geo.distance s.earthRadius q r) speed = .ok minutes
  congested : ∀ q ∈ places, ∀ r ∈ places, ∃ minutes,
    travelMinutes ceilReal (Geo.distance s.earthRadius q r) (speedOf s s.congestionMode) = .ok minutes
  centres : ∃ c, p.clusters.clusterer s = .ok c ∧ ∀ part, part <+~ places → ∀ k, 0 < k →
    k < (part.filterMap Place.location).length →
      ∃ centres, c.seeds (part.filterMap Place.location) k = .ok centres
  dates : ∀ first, request.startDate = some first → ∀ i, 0 ≤ i → i < n →
    ∃ date, first.addDays? i = some date

namespace ListReady

variable {n : Int} {part : List Place}

theorem filterMap_number (first : Nat) (part : List Place) :
    ((Stop.number first part).filterMap fun a => a.place.location) =
      part.filterMap Place.location := by
  rw [← Stop.map_place_number first part, List.filterMap_map, Stop.map_place_number]
  rfl

theorem length_filterMap_location (part : List Place) :
    ((part.filter Place.isLocated).filterMap Place.location).length =
      (part.filter Place.isLocated).length := by
  rw [List.length_filterMap_eq_countP, List.countP_eq_length]
  intro q hq
  rw [Place.isSome_location]
  exact (List.mem_filter.mp hq).2

/-- Any part of the places that is located can be routed. -/
theorem ready (h : p.ListReady s request places n) (hpart : part <+~ places) :
    p.Ready s request.transportMode [] (Stop.number 0 (part.filter Place.isLocated)) := by
  have hmem : ∀ a ∈ [] ++ Stop.number 0 (part.filter Place.isLocated),
      a.place ∈ places ∧ a.place.isLocated = true := by
    intro a ha
    have hplace : a.place ∈ part.filter Place.isLocated := by
      rw [← Stop.map_place_number 0 (part.filter Place.isLocated)]
      exact List.mem_map_of_mem ha
    obtain ⟨hplace, hlocated⟩ := List.mem_filter.mp hplace
    exact ⟨hpart.subset hplace, hlocated⟩
  obtain ⟨c, hc, hseeds⟩ := h.centres
  obtain ⟨speed, hspeed, hminutes⟩ := h.speed
  constructor
  case legible => exact fun a ha => h.legible _ (hmem a ha).1 (hmem a ha).2
  case passes => exact h.passes
  case stay => exact h.stay
  case speed =>
    exact ⟨speed, hspeed, fun a ha b hb => hminutes _ (hmem a ha).1 _ (hmem b hb).1⟩
  case congested => exact fun a ha b hb => h.congested _ (hmem a ha).1 _ (hmem b hb).1
  case centres =>
    refine .inr ⟨c, hc, fun k hk hlt => ?_⟩
    rw [filterMap_number]
    apply hseeds _ ((List.filter_sublist.subperm).trans hpart) k hk
    rwa [length_filterMap_location, ← Stop.map_place_number 0 (part.filter Place.isLocated),
      List.length_map]

theorem exists_planMembers (h : p.ListReady s request places n) (hpart : part <+~ places)
    {i : Nat} (hi : (i : Int) < n) :
    ∃ day, p.planMembers s request (Int.ofNat i + 1) part = .ok day := by
  have hroute : ∃ route, p.routePlaces s request.transportMode (.int (Int.ofNat i + 1)) []
      (part.filter Place.isLocated) = .ok route := by
    obtain ⟨route, hroute⟩ := (h.ready hpart).exists_routeStops (Stop.nodup_visit_number 0 _)
    exact ⟨_, Result.bind_eq_ok.mpr ⟨route, hroute, rfl⟩⟩
  have hcategories : (part.forM fun q => do let _ ← q.readCategory) = .ok () := by
    rw [Result.forM_eq_ok]
    intro q hq
    obtain ⟨text, htext⟩ := h.categories q (hpart.subset hq)
    exact Result.bind_eq_ok.mpr ⟨text, htext, rfl⟩
  refine Result.exists_bind_eq_ok hroute fun route _ => ?_
  dsimp only
  split
  next =>
    exact Result.exists_bind_eq_ok ⟨none, rfl⟩ fun _ _ =>
      Result.exists_bind_eq_ok ⟨(), hcategories⟩ fun _ _ => ⟨_, rfl⟩
  next first hfirst =>
    obtain ⟨date, hdate⟩ := h.dates first hfirst i (Int.natCast_nonneg i) hi
    have hknown : some <$> Result.ofOption .tooLarge (first.addDays? (Int.ofNat i + 1 - 1)) =
        .ok (some date) := by
      rw [Int.add_sub_cancel, Int.ofNat_eq_natCast, hdate]
      rfl
    exact Result.exists_bind_eq_ok ⟨_, hknown⟩ fun _ _ =>
      Result.exists_bind_eq_ok ⟨(), hcategories⟩ fun _ _ => ⟨_, rfl⟩

theorem exists_shareOutPlaces (h : p.ListReady s request places n) :
    ∃ days, p.shareOutPlaces s n places = .ok days := by
  obtain ⟨c, hc, hseeds⟩ := h.centres
  have hsub := (Grid.distinctPlaces_sublist [] places).subperm
  have hclusters : ∃ clusters,
      p.clusters.cluster s (Stop.number 0 (Grid.distinctPlaces [] places)) n = .ok clusters := by
    apply exists_clusterOptions hc
    · intro a ha hlocated
      have hplace : a.place ∈ Grid.distinctPlaces [] places := by
        rw [← Stop.map_place_number 0 (Grid.distinctPlaces [] places)]
        exact List.mem_map_of_mem ha
      exact (h.legible _ (hsub.subset hplace) hlocated).position
    · rw [filterMap_number]
      exact hseeds _ hsub
  exact Result.exists_bind_eq_ok hclusters fun _ _ => ⟨_, rfl⟩

/-- A list of places that is ready is planned. -/
theorem exists_planPlaces (h : p.ListReady s request places n) (hdays : request.tripDays = .int n)
    (hn : 1 ≤ n) : ∃ planned, p.planPlaces s places request = .ok planned := by
  have hkeys : Grid.checkKeys places = .ok () := Grid.checkKeys_eq_ok h.keys
  apply Result.exists_bind_eq_ok ⟨(), hkeys⟩
  intro _ _
  apply Result.exists_bind_eq_ok ⟨n, sharedDays_eq hdays hn⟩
  rintro _ hn'
  obtain rfl := Except.ok.inj ((sharedDays_eq hdays hn).symm.trans hn')
  apply Result.exists_bind_eq_ok h.exists_shareOutPlaces
  intro days hshared
  apply Result.exists_mapM_eq_ok
  rintro ⟨members, i⟩ hmember
  obtain ⟨clusters, shared, hclusters, rfl, hgrown⟩ := shareOutPlaces_eq_ok hshared
  have hperm := flatten_perm_distinctPlaces hclusters hgrown
  have hi : i < n.toNat := by
    have hlt := List.snd_lt_of_mem_zipIdx hmember
    rw [List.length_map, hgrown.length, List.length_replicate] at hlt
    omega
  have hpart : members <+~ places := by
    have hmem : members ∈ shared.map (·.map (·.place)) := List.fst_mem_of_mem_zipIdx hmember
    have hsub := (List.sublist_flatten_of_mem hmem).subperm
    exact (hsub.trans hperm.subperm).trans (Grid.distinctPlaces_sublist [] places).subperm
  exact h.exists_planMembers hpart (by omega)

end ListReady

/-- A list of places is planned for as many days as were asked for. Each place is visited once, the first
one of its identifier, and stands once in the blocks of its day; a cluster stays on one day; and the
lengths of two days differ by no more than the largest cluster, or by one. -/
theorem planPlaces_sharesOut (s : Settings) (p : Planner) (request : TripRequest)
    (places : List Place) {n : Int} (hdays : request.tripDays = .int n) (hn : 1 ≤ n) :
    (p.ListReady s request places n →
      ∃ planned, p.planPlaces s places request = .ok planned) ∧
    ∀ planned, p.planPlaces s places request = .ok planned →
      ∃ clusters, p.clusters.cluster s (Stop.number 0 (Grid.distinctPlaces [] places)) n =
        .ok clusters ∧ SharesOut places clusters n planned :=
  ⟨fun hready => hready.exists_planPlaces hdays hn, fun _ => planPlaces_eq_ok hdays hn⟩

/-- A museum that is listed twice, a zoo and a café without a position are shared out among two days. -/
theorem planPlaces_sharesOut_two_days :
    let s : Settings := { speeds := [], defaultSpeed := 0.0 }
    let p : Planner :=
      { clusters := ⟨.spread, .int 42, .int 100, .real 0.001⟩
        routes := ⟨.balanced, .text "car", .int 10, .int 90⟩
        capacity := .int 2
        placesPerCluster := .int 4
        selection := .rank
        beamWidth := .int 3 }
    let request : TripRequest := { threadId := .text "t", tripDays := .int 2 }
    let park (id : String) : Place :=
      { id := .text id, name := .text id, latitude := .real 48.0, longitude := .real 2.0 }
    let places : List Place :=
      [park "museum", { id := .text "museum", name := .text "again" }, park "zoo",
        { id := .text "cafe", name := .text "cafe", category := .text "cafe" }]
    request.tripDays = .int 2 ∧ (1 : Int) ≤ 2 ∧ p.ListReady s request places 2 ∧
      ∃ planned, p.planPlaces s places request = .ok planned ∧
        planned.map (·.number) = [.int 1, .int 2] ∧
        ((planned.flatMap (·.stops)).map (·.key)).count (.text "museum") = 1 := by
  intro s p request park places
  have hminutes : ∀ q r : Place,
      ∃ minutes, travelMinutes ceilReal (Geo.distance s.earthRadius q r) 0.0 = .ok minutes := by
    intro q r
    exact ⟨0, if_pos (.inr (by decide))⟩
  have hpark : ∀ id, (park id).Legible := fun _ => ⟨rfl, ⟨"", rfl⟩, .inl rfl, .inl rfl⟩
  have hready : p.ListReady s request places 2 :=
    { keys := by
        simp only [places, List.forall_mem_cons]
        exact ⟨⟨_, rfl⟩, ⟨_, rfl⟩, ⟨_, rfl⟩, ⟨_, rfl⟩, nofun⟩
      categories := by
        simp only [places, List.forall_mem_cons]
        exact ⟨⟨_, rfl⟩, ⟨_, rfl⟩, ⟨_, rfl⟩, ⟨_, rfl⟩, nofun⟩
      legible := by
        simp only [places, List.forall_mem_cons]
        exact ⟨fun _ => hpark _, nofun, fun _ => hpark _, nofun, nofun⟩
      passes := ⟨10, rfl⟩
      stay := ⟨.int 90, rfl⟩
      speed := ⟨0.0, rfl, fun q _ r _ => hminutes q r⟩
      congested := fun q _ r _ => hminutes q r
      centres := by
        refine ⟨_, rfl, fun part hpart k hk hlt => ?_⟩
        have hpoints : (part.filterMap Place.location).length ≤ 2 := by
          obtain ⟨kept, hperm, hsub⟩ := hpart
          rw [← (hperm.filterMap _).length_eq]
          exact (hsub.filterMap Place.location).length_le
        obtain rfl : k = 1 := by omega
        apply Seeding.exists_centres_spread
        rw [show (part.filterMap Place.location).length = 2 by omega]
        decide +kernel
      dates := nofun }
  obtain ⟨hplanned, hshares⟩ := planPlaces_sharesOut s p request places rfl (by decide)
  obtain ⟨planned, hplanned⟩ := hplanned hready
  obtain ⟨clusters, _, hshares⟩ := hshares planned hplanned
  exact ⟨rfl, by decide, hready, planned, hplanned, hshares.numbers,
    hshares.once (park "museum") List.mem_cons_self⟩

end Planner

end Wayfare.Plan
