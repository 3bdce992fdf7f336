import Wayfare.Proofs.Booking
import Wayfare.Proofs.Category.Keyword
import Wayfare.Proofs.Grid.Distinct
import Wayfare.Proofs.Grid.Distribution
import Wayfare.Proofs.Score

/-! # The ranked fill

A block with room is offered the best places of the pool that suit it, by their
scores beside what the day is built around. What the traveller chose on any day,
and what an earlier block of the day is offered, is passed over; a full block is
offered nothing.
-/

namespace Wayfare.Grid

/-- What is suggested in a block when some identifiers are taken: the top of the places of the pool that
are free and suit the block, each of them once, as recommendations. They are scored by their distances to
the located reference places. -/
structure RankedFill (s : Settings) (limit : Value) (refs pool : List Place) (taken : List Ident)
    (b : Block) (suggested best : List Place) : Prop where
  tagged : suggested = best.map fun p => { p with source := .aiRecommended }
  nodup : (best.map (·.key)).Nodup
  free : ∀ p ∈ best, p.key ∉ taken
  fits : ∀ p ∈ best, p ∈ pool ∧ Category.fits p b = true
  scored : ∀ p ∈ pool, p.key ∉ taken → Category.fits p b = true →
    Score.comprehensive (Score.rulesOf s) Score.logAfter
      (Score.appealBeside (Geo.distance s.earthRadius p) p.stars? refs p) =
        .ok (Score.scoreOf s refs p)
  top : ∃ cut : Nat, limit.asCut = .ok cut ∧ (∀ n, limit = .int n → (cut : Int) = max 0 n) ∧
    Score.TopOf (Score.scoreOf s refs) cut
      (pool.filter fun p => p.key ∉ taken ∧ Category.fits p b = true) best

/-- What the places offered on a day are scored beside: the located selections of the day and one site for
each of its bookings with coordinates, or the located selections of the trip if that is nothing. -/
def BuiltAround (d : DayPlan) (selected refs : List Place) : Prop :=
  ∃ own sites, Booking.OneSiteEach (Block.all.flatMap fun b => (d.slots.get b).confirmed) sites ∧
    own = (Block.all.flatMap fun b => (d.slots.get b).selected).filter
      (fun q => !q.latitude.isNull && !q.longitude.isNull) ++ sites ∧
    (own ≠ [] → refs = own) ∧
    (own = [] → refs = selected.filter fun q => !q.latitude.isNull && !q.longitude.isNull)

/-- What a day becomes: its bookings and selections stay, its full blocks are suggested nothing, and all
others the top of what neither the traveller chose nor an earlier block is offered. -/
structure FilledDay (s : Settings) (capacity : Int) (limit : Value) (pool selected : List Place)
    (d e : DayPlan) : Prop where
  kept : AgreeButSuggestions d e
  full : ∀ b, capacity ≤ (d.slots.get b).confirmed.length + (d.slots.get b).selected.length →
    (e.slots.get b).suggested = []
  filled : ∃ refs, BuiltAround d selected refs ∧
    ∀ earlier b later, Block.all = earlier ++ b :: later →
      ((d.slots.get b).confirmed.length + (d.slots.get b).selected.length : Int) < capacity →
      ∃ best, RankedFill s limit refs pool
        (selected.map (·.key) ++
          earlier.flatMap fun c => (e.slots.get c).suggested.map (·.key))
        b (e.slots.get b).suggested best

/-- The places of a day are scored beside what the day is built around. -/
theorem builtAround_of_references {d : DayPlan} {own : List Place} (h : references d = .ok own)
    (selected : List Place) :
    BuiltAround d selected (if own.isEmpty then selected.filter Place.isLocated else own) := by
  obtain ⟨sites, hsites, h⟩ := Result.bind_eq_ok.mp h
  rw [Result.pure_eq_ok, DayPlan.selected_eq] at h
  rw [DayPlan.confirmed_eq] at hsites
  refine ⟨own, sites, Booking.oneSiteEach_of_sites hsites, h.symm, fun hown => ?_, fun hown => ?_⟩
  · rw [if_neg (by rwa [List.isEmpty_iff])]
  · rw [if_pos (List.isEmpty_iff.mpr hown)]
    rfl

theorem eligible_eq (pool : List Place) (taken : List Ident) (b : Block) :
    eligible pool taken b = pool.filter fun p => p.key ∉ taken ∧ Category.fits p b = true := by
  simp [eligible]

theorem asCut_int {n : Int} {cut : Nat} (h : (Value.int n).asCut = .ok cut) : (cut : Int) = max 0 n := by
  have hcut : (Value.int n).asCut = .ok n.toNat := rfl
  rw [hcut] at h
  cases h
  omega

theorem rankedFill_of_topPlaces {s : Settings} {limit : Value} {refs pool best : List Place}
    {taken : List Ident} {b : Block} (hpool : (pool.map (·.key)).Nodup)
    (h : Score.topPlaces s refs (eligible pool taken b) limit = .ok best) :
    RankedFill s limit refs pool taken b (best.map (·.withSource .aiRecommended)) best := by
  obtain ⟨cut, hcut, hscored, htop⟩ := Score.topPlaces_eq_ok h
  rw [eligible_eq] at htop hscored
  have hmem : ∀ p ∈ best, p ∈ pool ∧ p.key ∉ taken ∧ Category.fits p b = true := by
    intro p hp
    obtain ⟨hpool, hfree⟩ := List.mem_filter.mp (htop.subperm.subset hp)
    exact ⟨hpool, of_decide_eq_true hfree⟩
  have hkeys : ((pool.filter fun p => p.key ∉ taken ∧ Category.fits p b = true).map (·.key)).Nodup :=
    hpool.sublist (List.filter_sublist.map _)
  refine ⟨rfl, ?_, fun p hp => (hmem p hp).2.1, fun p hp => ⟨(hmem p hp).1, (hmem p hp).2.2⟩, ?_,
    cut, hcut, ?_, htop⟩
  · obtain ⟨_, hperm, hsub⟩ := htop.subperm
    exact (hperm.map _).nodup_iff.mp (hkeys.sublist (hsub.map _))
  · intro p hp hfree hfits
    exact hscored p (List.mem_filter.mpr ⟨hp, decide_eq_true ⟨hfree, hfits⟩⟩)
  · rintro n rfl
    exact asCut_int hcut

variable {s : Settings} {capacity : Int} {limit : Value} {pool selected : List Place}

theorem filledDay_of_fillDay {d e : DayPlan} (hpool : (pool.map (·.key)).Nodup)
    (hfresh : d.suggested = []) (h : fillDay s capacity limit pool selected d = .ok e) :
    FilledDay s capacity limit pool selected d e := by
  obtain ⟨own, hown, h⟩ := Result.bind_eq_ok.mp h
  obtain ⟨hagree, best, hbest, _, hadded⟩ := fillBlocks_eq_ok Block.nodup_all h
  have hsuggested : ∀ b, (e.slots.get b).suggested = (best b).map (·.withSource .aiRecommended) := by
    intro b
    have hnone : (d.slots.get b).suggested = [] := by
      rw [DayPlan.suggested_eq, List.flatMap_eq_nil_iff] at hfresh
      exact hfresh b (Block.mem_all b)
    rw [hadded b, hnone, List.nil_append]
  have hkeys : ∀ b, (e.slots.get b).suggested.map (·.key) = (best b).map (·.key) := by
    intro b
    rw [hsuggested b, List.map_map]
    rfl
  refine ⟨hagree, ?_, _, builtAround_of_references hown selected, ?_⟩
  · intro b hfull
    obtain ⟨earlier, later, hsplit⟩ := List.append_of_mem (Block.mem_all b)
    have hb := hbest.of_split hsplit
    rw [if_pos (Slot.isFull_iff.mpr hfull)] at hb
    rw [hsuggested b, hb, List.map_nil]
  · intro earlier b later hsplit hroom
    have hb := hbest.of_split hsplit
    rw [if_neg (by rw [Slot.isFull_eq_false_iff.mpr hroom]; exact Bool.false_ne_true)] at hb
    refine ⟨best b, ?_⟩
    simp only [hkeys, hsuggested b]
    exact rankedFill_of_topPlaces hpool hb

/-! ## Whether a fill has an outcome -/

/-- All that the fill of a day asks for is known: how many places a block is offered, the fields of the
pool, and the positions of what the day or the trip is built around. -/
structure Fillable (s : Settings) (limit : Value) (pool selected : List Place) (d : DayPlan) :
    Prop where
  cut : ∃ cut, limit.asCut = .ok cut
  divisible : Score.Divisible s
  scorable : ∀ p ∈ pool, Score.Scorable p
  selected : ∀ p ∈ selected, Score.WellPlaced p
  own : ∃ sites, Booking.sites d.confirmed = .ok sites ∧ ∀ p ∈ d.selected ++ sites, Score.WellPlaced p

theorem exists_fillBlocks {top : List Place → Result (List Place)}
    (hcategory : ∀ p ∈ pool, ∃ text, p.readCategory = .ok text)
    (htop : ∀ offered, offered ⊆ pool → ∃ best, top offered = .ok best) (taken : List Ident)
    (d : DayPlan) (blocks : List Block) : ∃ e, fillBlocks capacity pool top taken d blocks = .ok e := by
  induction blocks generalizing taken d with
  | nil => exact ⟨d, rfl⟩
  | cons b rest ih =>
      have hcheck : checkEligible pool taken = .ok () := by
        rw [checkEligible, Result.forM_eq_ok]
        intro p hp
        obtain ⟨text, htext⟩ := hcategory p (List.mem_filter.mp hp).1
        rw [htext]
        rfl
      rw [fillBlocks]
      split
      next => exact ih taken d
      next =>
        exact Result.exists_bind_eq_ok ⟨(), hcheck⟩ fun _ _ =>
          Result.exists_bind_eq_ok (htop _ (List.filter_subset_self pool)) fun _ _ => ih _ _

theorem Fillable.exists_fillDay {d : DayPlan} (h : Fillable s limit pool selected d) (capacity : Int) :
    ∃ e, fillDay s capacity limit pool selected d = .ok e := by
  obtain ⟨sites, hsites, hplaced⟩ := h.own
  have hown : references d = .ok (d.selected.filter Place.isLocated ++ sites) :=
    Result.bind_eq_ok.mpr ⟨sites, hsites, rfl⟩
  rw [fillDay, hown, Result.ok_bind]
  generalize hbuilt : d.selected.filter Place.isLocated ++ sites = own
  have hrefs : ∀ r ∈ (if own.isEmpty then selected.filter Place.isLocated else own),
      Score.WellPlaced r := by
    intro r hr
    split at hr
    next => exact h.selected r (List.mem_filter.mp hr).1
    next =>
      rw [← hbuilt] at hr
      exact hplaced r ((List.filter_sublist.append_right _).subset hr)
  apply exists_fillBlocks fun p hp => (h.scorable p hp).category
  exact fun offered hoffered =>
    Score.exists_topPlaces h.cut h.divisible (fun p hp => h.scorable p (hoffered hp)) hrefs

/-! ## The fill of a trip -/

/-- The days of a trip on which bookings and selections are placed have all selections and no suggestion
yet. They can be filled from the candidates, the first for each identifier, if nothing that the fill asks
for is refused, and then every day keeps what stood on it and is suggested the top of what suits each
block with room. -/
theorem fillDays_ranked {p : Distributor} {request : TripRequest} {tripDays : Int}
    {selections : List Place} {bookings : List Booking} {days : List DayPlan}
    {warnings : List String} (hdays : request.days = .ok tripDays) (htrip : 1 ≤ tripDays)
    (hplaced : p.placeFixed request (selections.map (·.withSource .userSelected)) bookings =
      .ok (days, warnings))
    (s : Settings) (capacity : Int) (limit : Value) (candidates : List Place) :
    let selected := selections.map (·.withSource .userSelected)
    let pool := distinctPlaces [] candidates
    FirstOfEach candidates pool ∧ (days.flatMap (·.selected)).Perm selected ∧
    ((∀ d ∈ days, Fillable s limit pool selected d) →
      ∃ after, fillDays s capacity limit pool selected days = .ok after) ∧
    ∀ after, fillDays s capacity limit pool selected days = .ok after →
      List.Forall₂ (FilledDay s capacity limit pool selected) days after := by
  intro selected pool
  obtain ⟨_, hselected, hfresh⟩ := Distributor.placeFixed_eq_ok hdays htrip hplaced
  have hpool := firstOfEach_distinctPlaces candidates
  refine ⟨hpool, hselected, ?_, ?_⟩
  · exact fun hready => Result.exists_mapM_eq_ok fun d hd => (hready d hd).exists_fillDay capacity
  · exact fun after hafter => Result.forall₂_of_mapM hafter fun d hd e he =>
      filledDay_of_fillDay hpool.nodup (hfresh d hd) he

/-- A day built around a chosen house, for which a café and an inn are offered. There is one suggestion for
breakfast, and that is the inn. -/
theorem fillDays_ranked_inn :
    let s : Settings := { speeds := [], defaultSpeed := 0.0 }
    let p : Distributor :=
      { capacity := .int 2, selectionsPerDay := .int 3, suggestionsPerBlock := .int 1 }
    let request : TripRequest := { threadId := .text "t", destinations := .list [.text "Lyon"] }
    let house : Place :=
      { id := .text "house"
        name := .text "House"
        latitude := .real 45.0
        longitude := .real 4.0
        source := .userSelected }
    let cafe : Place := { id := .text "cafe", name := .text "Cafe", category := .text "cafe" }
    let inn : Place := { id := .text "inn", name := .text "Inn", category := .text "restaurant" }
    ∃ day after, p.placeFixed request [house] [] = .ok ([day], []) ∧
      fillDays s 2 (.int 1) (distinctPlaces [] [house, cafe, inn, cafe]) [house] [day] = .ok [after] ∧
      RankedFill s (.int 1) [house] [house, cafe, inn] [.text "house"] .breakfast
        (after.slots.get .breakfast).suggested [inn] := by
  intro s p request house cafe inn
  let empty : DayPlan := { number := 1 }
  let day := empty.modify .afternoon fun slot => { slot with selected := [house] }
  have hblock : bestBlock 2 house.categoryText empty.slots = .afternoon := by decide +kernel
  have hselected : addSelection 2 house empty = day := by
    rw [addSelection, hblock]
    rfl
  have hfixed : placeConfirmed (p.indexFor 1 []) none 1 [empty] [] = .ok ([empty], []) := by
    rw [placeConfirmed, chronological, if_pos (by rfl), List.mergeSort_nil]
    rfl
  have hplaced : p.placeFixed request ([house].map (·.withSource .userSelected)) [] =
      .ok ([day], []) := by
    rw [← hselected]
    exact Result.bind_eq_ok.mpr ⟨1, rfl, Result.bind_eq_ok.mpr ⟨[empty], rfl,
      Result.bind_eq_ok.mpr ⟨_, hfixed, rfl⟩⟩⟩
  have hhouse : Score.WellPlaced house := fun _ => rfl
  have hscorable : ∀ q ∈ [house, cafe, inn], Score.Scorable q := by
    simp only [List.forall_mem_cons]
    exact ⟨⟨hhouse, ⟨_, rfl⟩, ⟨_, rfl⟩, ⟨_, rfl⟩⟩,
      ⟨.of_unlocated rfl, ⟨_, rfl⟩, ⟨_, rfl⟩, ⟨_, rfl⟩⟩,
      ⟨.of_unlocated rfl, ⟨_, rfl⟩, ⟨_, rfl⟩, ⟨_, rfl⟩⟩, List.forall_mem_nil _⟩
  have hready : Fillable s (.int 1) [house, cafe, inn] [house] day :=
    { cut := ⟨1, rfl⟩
      divisible := ⟨by decide, by decide, by decide⟩
      scorable := hscorable
      selected := List.forall_mem_singleton.mpr hhouse
      own := ⟨[], rfl, List.forall_mem_singleton.mpr hhouse⟩ }
  obtain ⟨_, _, hexists, hall⟩ := fillDays_ranked (by rfl) (by decide) hplaced s 2 (.int 1)
    [house, cafe, inn, cafe]
  obtain ⟨after, hafter⟩ := hexists (List.forall_mem_singleton.mpr hready)
  obtain ⟨e, rest, hfilled, hrest, rfl⟩ := List.forall₂_cons_left_iff.mp (hall after hafter)
  obtain rfl := List.forall₂_nil_left_iff.mp hrest
  refine ⟨day, e, hplaced, hafter, ?_⟩
  obtain ⟨refs, ⟨own, sites, hsites, hown, hrefs, _⟩, hblocks⟩ := hfilled.filled
  -- There is no booking, so the day is built around the house alone.
  obtain rfl : sites = [] := List.forall₂_nil_left_iff.mp hsites
  obtain rfl : own = [house] := hown
  obtain rfl : refs = [house] := hrefs (List.cons_ne_nil _ _)
  obtain ⟨best, hbest⟩ := hblocks [] .breakfast _ rfl (by decide)
  obtain ⟨cut, _, hcut, htop⟩ := hbest.top
  obtain rfl : 1 = cut := by
    have := hcut 1 rfl
    omega
  have hcafe : Category.fits cafe .breakfast = true :=
    (⟨by decide, by decide, by decide, by decide⟩ : Category.Heads "cafe" "cafe").fits "cafe"
      (by decide) (by decide) (by decide)
  have hinn : Category.fits inn .breakfast = true :=
    (⟨by decide, by decide, by decide, by decide⟩ :
      Category.Heads "restaurant" "restaurant").fits "restaurant"
      (by decide) (by decide) (by decide)
  have hoffered : ([house, cafe, inn].filter fun q =>
      q.key ∉ [.text "house"] ∧ Category.fits q .breakfast = true) = [cafe, inn] := by
    rw [← eligible_eq, eligible, List.filter_cons_of_neg (by decide),
      List.filter_cons_of_pos (by rw [hcafe]; rfl), List.filter_cons_of_pos (by rw [hinn]; rfl),
      List.filter_nil]
  have htop : Score.TopOf (Score.scoreOf s [house]) 1 [cafe, inn] best := hoffered ▸ htop
  obtain ⟨x, rfl⟩ := List.length_eq_one_iff.mp htop.length_eq
  have hleads := htop.leads fun q hq => by
    rcases List.mem_pair.mp hq with rfl | rfl <;> decide +kernel
  have hworse : ¬ Score.scoreOf s [house] inn ≤ Score.scoreOf s [house] cafe := by decide +kernel
  have hchosen : x = inn := by
    rcases List.mem_pair.mp (htop.subperm.subset List.mem_cons_self) with rfl | rfl
    · -- The inn scores higher than the café, so it is not the inn that is left out.
      have hother : inn ∉ [cafe] := by simp [inn, cafe]
      exact absurd (hleads.optimal cafe List.mem_cons_self inn (by simp) hother) hworse
    · rfl
  rw [hchosen] at hbest
  exact hbest

end Wayfare.Grid
