import Wayfare.Proofs.Plan.TripVisits

/-! # The final selection

A block visits the selections that are new to the trip, and after them the first
new ones of its ranked suggestions, as many as there is room for. When room is
left over, no suggestion of the block has been passed over. What is new is told
by all that was visited on earlier days and in earlier blocks.
-/

namespace Wayfare.Plan

open Wayfare.Geo

/-- A suggestion is on the trip: its identifier is used, or it has the identifier of the pick, which is
used. -/
def OnTrip (used : List Ident) (pick : Option Place) (q : Place) : Prop :=
  q.key ∈ used ∨ ∃ p ∈ pick, q.id == p.id ∧ p.key ∈ used

/-- A suggestion that is told apart by a text is on the trip just when this text is used. -/
theorem OnTrip.key_mem {used : List Ident} {pick : Option Place} {q : Place}
    (h : OnTrip used pick q) {id : String} (hid : q.id = .text id) : q.key ∈ used := by
  rcases h with hused | ⟨p, _, hsame, hused⟩
  · exact hused
  · have hp : p.id = .text id := by
      change Value.same q.id p.id = true at hsame
      rw [hid] at hsame
      cases hpid : p.id with
      | text t =>
          rw [hpid, Value.same, beq_iff_eq] at hsame
          rw [hsame]
      | _ =>
          rw [hpid] at hsame
          cases (hsame : false = true)
    rwa [Place.key, hid, ← hp]

/-- What a block visits under a capacity, when some identifiers are used before it: its new selections, and
then the first new ones of its suggestions, where the pick comes before all others. -/
structure SelectsSlot (capacity : Int) (pick : Option Place) (used : List Ident) (s : Slot)
    (chosen added : List Place) : Prop where
  chosen_eq : chosen = Grid.distinctPlaces used s.selected
  added_first : added <+: Grid.distinctPlaces (usedAfter used chosen)
    (pick.toList ++ s.suggested.filter fun q => pick.all fun p => q.id != p.id)
  within_room : (added.length : Int) ≤ max 0 (capacity - s.confirmed.length - s.selected.length)
  exhausted : (added.length : Int) < max 0 (capacity - s.confirmed.length - s.selected.length) →
    ∀ q ∈ s.suggested, OnTrip (usedAfter used (chosen ++ added)) pick q

theorem room_eq (s : Slot) (capacity : Int) :
    (s.room capacity : Int) = max 0 (capacity - s.confirmed.length - s.selected.length) := by
  simp only [Slot.room, Slot.fixedCount, Int.ofNat_eq_natCast]
  omega

theorem mem_or_of_withPick {pick : Option Place} {ranked : List Place} {q : Place}
    (hq : q ∈ ranked) : q ∈ withPick pick ranked ∨ ∃ p ∈ pick, q.id == p.id := by
  cases pick with
  | none => exact .inl hq
  | some p =>
      cases hsame : q.id == p.id with
      | true => exact .inr ⟨p, rfl, hsame⟩
      | false =>
          have hother : (q.id != p.id) = true := by rw [bne, hsame]; rfl
          exact .inl (List.mem_cons_of_mem _ (List.mem_filter.mpr ⟨hq, hother⟩))

theorem selectSlot_selects {capacity : Int} {pick : Option Place} {used used' : List Ident}
    {s : Slot} {places : List Place} (h : selectSlot capacity pick used s = .ok (places, used')) :
    used' = usedAfter used places ∧
      ∃ chosen added, places = chosen ++ added ∧ SelectsSlot capacity pick used s chosen added := by
  obtain ⟨hplaces, hused⟩ := selectSlot_eq_ok h
  generalize hchosen : Grid.distinctPlaces used s.selected = chosen at hplaces
  generalize hnew : Grid.distinctPlaces (usedAfter used chosen) (withPick pick s.suggested) = fresh
    at hplaces
  refine ⟨hused, chosen, fresh.take (s.room capacity), hplaces, hchosen.symm, ?_, ?_, ?_⟩
  · rw [← withPick_eq, hnew]
    exact List.take_prefix _ _
  · rw [← room_eq]
    exact_mod_cast List.length_take_le _ _
  · intro hless q hq
    rw [← room_eq] at hless
    -- With room left over nothing was cut off, so that all ranked suggestions are used now.
    have hall : fresh.take (s.room capacity) = fresh := by
      apply List.take_of_length_le
      rw [List.length_take] at hless
      omega
    have hranked : ∀ r ∈ withPick pick s.suggested, r.key ∈ usedAfter used (chosen ++ fresh) := by
      intro r hr
      rw [usedAfter_append, mem_usedAfter, ← hnew]
      exact (Grid.key_mem_distinctPlaces hr).symm
    rw [hall]
    rcases mem_or_of_withPick hq with hq | ⟨p, hp, hsame⟩
    · exact .inl (hranked q hq)
    · obtain rfl : pick = some p := hp
      exact .inr ⟨p, rfl, hsame, hranked p List.mem_cons_self⟩

/-! ## Blocks of a day -/

variable {d : DayPlan}

/-- Each block selects from what stands in it, given what was visited in the blocks before. -/
theorem selectBlocks_selects {capacity : Int} {picks : List (Block × Place)} {blocks : List Block}
    {slots : List TimeSlot} {used used' : List Ident}
    (h : selectBlocks capacity picks d used blocks = .ok (slots, used')) :
    slots.map (·.block) = blocks ∧
      ∀ earlier slot later, slots = earlier ++ slot :: later →
        slot.confirmed = (d.slots.get slot.block).confirmed ∧
        ∃ chosen added, slot.places = chosen ++ added ∧
          SelectsSlot capacity (picks.lookup slot.block)
            (usedAfter used (earlier.flatMap (·.places))) (d.slots.get slot.block) chosen added := by
  induction blocks generalizing used slots with
  | nil =>
      cases h
      exact ⟨rfl, fun earlier _ _ hsplit => by simp at hsplit⟩
  | cons b rest ih =>
      obtain ⟨⟨places, between⟩, hplaces, h⟩ := Result.bind_eq_ok.mp h
      obtain ⟨⟨slots, after⟩, hslots, h⟩ := Result.bind_eq_ok.mp h
      rw [Result.pure_eq_ok] at h
      cases h
      obtain ⟨rfl, hfirst⟩ := selectSlot_selects hplaces
      obtain ⟨hblocks, hrest⟩ := ih hslots
      refine ⟨by rw [List.map_cons, hblocks], ?_⟩
      intro earlier slot later hsplit
      cases earlier with
      | nil =>
          cases hsplit
          exact ⟨rfl, hfirst⟩
      | cons first earlier =>
          cases hsplit
          rw [List.flatMap_cons, usedAfter_append]
          exact hrest earlier slot later rfl

/-! ## Whether a selection has an outcome -/

theorem exists_takeNew {places : List Place} (hkeys : ∀ q ∈ places, ∃ k, q.readKey = .ok k)
    (room : Nat) (used : List Ident) : ∃ outcome, takeNew room used places = .ok outcome := by
  induction places generalizing room used with
  | nil => exact ⟨_, rfl⟩
  | cons p rest ih =>
      obtain ⟨⟨key, hkey⟩, hrest⟩ := List.forall_mem_cons.mp hkeys
      cases room with
      | zero => exact ⟨_, rfl⟩
      | succ room =>
          rw [takeNew, hkey]
          refine Result.exists_bind_eq_ok ⟨key, rfl⟩ fun key _ => ?_
          split
          next => exact ih hrest (room + 1) used
          next => exact Result.exists_bind_eq_ok (ih hrest room _) fun _ _ => ⟨_, rfl⟩

theorem exists_selectBlocks (capacity : Int) {picks : List (Block × Place)}
    (hkeys : ∀ q ∈ d.selected ++ d.suggested, ∃ k, q.readKey = .ok k)
    (hpicks : ∀ b, ∀ p ∈ picks.lookup b, p ∈ (d.slots.get b).suggested) (used : List Ident)
    (blocks : List Block) : ∃ outcome, selectBlocks capacity picks d used blocks = .ok outcome := by
  induction blocks generalizing used with
  | nil => exact ⟨_, rfl⟩
  | cons b rest ih =>
      have hselected : ∀ q ∈ (d.slots.get b).selected, ∃ k, q.readKey = .ok k := fun q hq =>
        hkeys q (List.mem_append_left _ (DayPlan.mem_selected.mpr ⟨b, hq⟩))
      have hranked : ∀ q ∈ withPick (picks.lookup b) (d.slots.get b).suggested,
          ∃ k, q.readKey = .ok k := fun q hq => hkeys q (List.mem_append_right _
        (DayPlan.mem_suggested.mpr ⟨b, mem_withPick (hpicks b) hq⟩))
      have hslot : ∃ outcome, selectSlot capacity (picks.lookup b) used (d.slots.get b) =
          .ok outcome :=
        Result.exists_bind_eq_ok (exists_takeNew hselected _ _) fun chosen _ =>
          Result.exists_bind_eq_ok (exists_takeNew hranked _ chosen.2) fun _ _ => ⟨_, rfl⟩
      exact Result.exists_bind_eq_ok hslot fun places _ =>
        Result.exists_bind_eq_ok (ih places.2) fun _ _ => ⟨_, rfl⟩

namespace Planner

variable {s : Settings} {p : Planner} {mode : Value}

/-- All that the selection of a day asks for is known: the capacity, the identifiers, and in beam mode what
the search asks for. -/
structure Selectable (s : Settings) (p : Planner) (mode : Value) (d : DayPlan) : Prop where
  capacity : ∃ cap, p.capacity.asCapacity = .ok cap
  keys : ∀ q ∈ d.selected ++ d.suggested, ∃ k, q.readKey = .ok k
  search : p.selection = .beam → (∃ n, p.beamWidth.asRepeats = .ok n) ∧
    ∃ speed, readSpeed s (if mode.isTruthy then mode else .text s.defaultMode) = .ok speed ∧
      SearchReady s speed d

theorem Selectable.exists_selectDay (h : p.Selectable s mode d) (used : List Ident) :
    ∃ slots used', selectDay s p.selection mode p.capacity p.beamWidth used d =
      .ok (slots, used') := by
  obtain ⟨cap, hcap⟩ := h.capacity
  have hpicks : ∃ picks, PicksOf s p.selection mode p.beamWidth cap used d picks := by
    cases hselection : p.selection with
    | rank => exact ⟨[], rfl⟩
    | beam =>
        obtain ⟨hwidth, speed, hspeed, hready⟩ := h.search hselection
        obtain ⟨picks, hpicks⟩ := hready.exists_beamPicks hwidth
        exact ⟨picks, speed, hspeed, hpicks⟩
  obtain ⟨picks, hpicks⟩ := hpicks
  obtain ⟨⟨slots, used'⟩, hslots⟩ :=
    exists_selectBlocks cap h.keys hpicks.mem_suggested used Block.all
  exact ⟨slots, used', selectDay_eq_ok.mpr ⟨cap, picks, hcap, hpicks, hslots⟩⟩

/-! ## Days of a trip -/

/-- What the blocks of a day hold when some places were visited before it: all six blocks stand in their
order with their bookings, and each visits what it selects under the capacity, given all that was
visited before. -/
def SelectsDay (s : Settings) (p : Planner) (mode : Value) (used : List Ident) (d : DayPlan)
    (slots : List TimeSlot) : Prop :=
  ∃ cap picks, p.capacity.asCapacity = .ok cap ∧
    PicksOf s p.selection mode p.beamWidth cap used d picks ∧
    (∀ b, ∀ q ∈ picks.lookup b, q ∈ (d.slots.get b).suggested) ∧
    slots.map (·.block) = Block.all ∧
    ∀ earlier slot later, slots = earlier ++ slot :: later →
      slot.confirmed = (d.slots.get slot.block).confirmed ∧
      ∃ chosen added, slot.places = chosen ++ added ∧
        SelectsSlot cap (picks.lookup slot.block) (usedAfter used (earlier.flatMap (·.places)))
          (d.slots.get slot.block) chosen added

theorem selectDay_selects {used used' : List Ident} {slots : List TimeSlot}
    (h : selectDay s p.selection mode p.capacity p.beamWidth used d = .ok (slots, used')) :
    p.SelectsDay s mode used d slots := by
  obtain ⟨cap, picks, hcap, hpicks, hslots⟩ := selectDay_eq_ok.mp h
  obtain ⟨hblocks, hselects⟩ := selectBlocks_selects hslots
  exact ⟨cap, picks, hcap, hpicks, hpicks.mem_suggested, hblocks, hselects⟩

theorem planDays_selects {used : List Ident} {days : List (Value × DayPlan)}
    {planned : List PlannedDay} (h : p.planDays s mode used days = .ok planned) :
    planned.length = days.length ∧
      ∀ earlier day later, planned = earlier ++ day :: later →
        ∃ e, days[earlier.length]? = some e ∧
          p.SelectsDay s mode (usedAfter used (earlier.flatMap (·.visited))) e.2 day.slots := by
  induction days generalizing used planned with
  | nil =>
      cases h
      exact ⟨rfl, fun earlier _ _ hsplit => by simp at hsplit⟩
  | cons e rest ih =>
      obtain ⟨⟨day, between⟩, hday, h⟩ := Result.bind_eq_ok.mp h
      obtain ⟨planned, hplanned, h⟩ := Result.bind_eq_ok.mp h
      rw [Result.pure_eq_ok] at h
      subst h
      obtain ⟨hslots, _⟩ := planDay_eq_ok hday
      obtain ⟨_, rfl, _⟩ := visits_selectDay hslots
      obtain ⟨hlength, hrest⟩ := ih hplanned
      refine ⟨by rw [List.length_cons, List.length_cons, hlength], ?_⟩
      intro earlier day' later hsplit
      cases earlier with
      | nil =>
          cases hsplit
          exact ⟨e, rfl, selectDay_selects hslots⟩
      | cons first earlier =>
          cases hsplit
          rw [List.length_cons, List.getElem?_cons_succ, List.flatMap_cons, usedAfter_append]
          exact hrest earlier day' later rfl

/-- The selection of a day has an outcome if nothing that is asked for it is refused. In a planned grid
the days stand in their order, and every block of every day visits the selections that were not visited
before, and after them the first new ones of its suggestions, the pick of the search first: as many as the
capacity leaves room for, or all that are not on the trip. -/
theorem planGrid_selects (s : Settings) (p : Planner) (request : TripRequest) :
    (∀ used d, p.Selectable s request.transportMode d → ∃ slots used',
      selectDay s p.selection request.transportMode p.capacity p.beamWidth used d =
        .ok (slots, used')) ∧
    ∀ grid planned, p.planGrid s grid request = .ok planned →
      planned.length = grid.inOrder.length ∧
      ∀ earlier day later, planned = earlier ++ day :: later →
        ∃ d, grid.inOrder[earlier.length]? = some d ∧
          p.SelectsDay s request.transportMode (usedAfter [] (earlier.flatMap (·.visited))) d
            day.slots := by
  refine ⟨fun used d hready => hready.exists_selectDay used, ?_⟩
  intro grid planned h
  obtain ⟨hlength, hdays⟩ := planDays_selects h
  rw [List.length_map] at hlength
  refine ⟨hlength, ?_⟩
  intro earlier day later hsplit
  obtain ⟨e, he, hselects⟩ := hdays earlier day later hsplit
  rw [List.getElem?_map, Option.map_eq_some_iff] at he
  obtain ⟨d, hd, rfl⟩ := he
  exact ⟨d, hd, hselects⟩

/-- A morning with a chosen museum, which is suggested as well, and with room for one more place: the zoo
ranks before the tower, but the search picks the tower, which alone has a position. Beside it a day with
two parks to search. -/
theorem planGrid_selects_museum :
    let s : Settings := { speeds := [], defaultSpeed := 0.0 }
    let p : Planner :=
      { clusters := ⟨.spread, .int 42, .int 100, .real 0.001⟩
        routes := ⟨.distance, .text "car", .int 10, .int 90⟩
        capacity := .int 2
        placesPerCluster := .int 4
        selection := .beam
        beamWidth := .int 3 }
    let request : TripRequest :=
      { threadId := .text "t", destinations := .list [.text "Lyon"], transportMode := .text "car" }
    let place (id : String) : Place := { id := .text id, name := .text id }
    let park (id : String) : Place :=
      { place id with latitude := .real 45.0, longitude := .real 4.0 }
    let d : DayPlan := ({ number := 1 } : DayPlan).modify .morning fun slot =>
      { slot with
        selected := [place "museum"], suggested := [place "museum", place "zoo", park "tower"] }
    let e : DayPlan := ({ number := 1 } : DayPlan).modify .morning fun slot =>
      { slot with suggested := [park "north", park "south"] }
    (p.Selectable s request.transportMode e ∧ ∃ slots used,
      selectDay s .beam request.transportMode (.int 2) (.int 3) [] e = .ok (slots, used)) ∧
    ∃ day, p.planGrid s { days := [d] } request = .ok [day] ∧
      p.SelectsDay s request.transportMode [] d day.slots ∧
      day.visited = [place "museum", park "tower"] := by
  intro s p request place park d e
  have hsuggested : e.suggested = [park "north", park "south"] := rfl
  have hstep : ∀ (previous : Option Place), (∀ q ∈ previous, IsPassed e q) → ∀ q, IsPassed e q →
      ∃ cost, stepCost s 0.0 previous q = .ok cost := by
    have hpark : ∀ q, IsPassed e q → q = park "north" ∨ q = park "south" := by
      rintro q (⟨b, hb, _⟩ | ⟨hq | hq, _⟩)
      · cases hb
      · cases hq
      · simpa [hsuggested] using hq
    intro previous hprevious q hq
    refine exists_stepCost (by decide) (by decide) ?_ ?_
    · rcases hpark q hq with rfl | rfl <;> exact .inl rfl
    · intro r hr
      refine ⟨?_, 0, if_pos (.inr (by decide))⟩
      rcases hpark q hq with rfl | rfl <;> rcases hpark r (hprevious r hr) with rfl | rfl <;> rfl
  have hready : SearchReady s 0.0 e :=
    { selected := nofun
      suggested := by
        simp only [hsuggested, List.forall_mem_cons]
        exact ⟨⟨_, rfl⟩, ⟨_, rfl⟩, nofun⟩
      sites := nofun
      steps := hstep }
  have hselectable : p.Selectable s request.transportMode e :=
    { capacity := ⟨2, rfl⟩
      keys := by
        simp only [List.forall_mem_cons, show e.selected ++ e.suggested =
          [park "north", park "south"] from rfl]
        exact ⟨⟨_, rfl⟩, ⟨_, rfl⟩, nofun⟩
      search := fun _ => ⟨⟨3, rfl⟩, 0.0, rfl, hready⟩ }
  have hpicked : (match beamPicks s 0.0 2 (.int 3) [] d with
      | .ok picks => picks.map fun q => (q.1, q.2.key)
      | .error _ => []) = [(.morning, .text "tower")] := by
    decide +kernel
  have hpicks : beamPicks s 0.0 2 (.int 3) [] d = .ok [(.morning, park "tower")] := by
    cases hfound : beamPicks s 0.0 2 (.int 3) [] d with
    | error e =>
        rw [hfound] at hpicked
        cases hpicked
    | ok picks =>
        rw [hfound] at hpicked
        obtain ⟨⟨b, q⟩, rfl, hq⟩ := List.map_eq_singleton_iff.mp hpicked
        obtain ⟨rfl, hkey⟩ := Prod.mk.inj hq
        have hmem : q ∈ [place "museum", place "zoo", park "tower"] :=
          beamPicks_eq_ok hfound .morning q rfl
        simp only [List.mem_cons, List.not_mem_nil, or_false] at hmem
        rcases hmem with rfl | rfl | rfl
        · exact absurd hkey (by decide)
        · exact absurd hkey (by decide)
        · rfl
  obtain ⟨slots, used, hslots, hplaces⟩ : ∃ slots used,
      selectDay s .beam request.transportMode (.int 2) (.int 3) [] d = .ok (slots, used) ∧
        slots.flatMap (·.places) = [place "museum", park "tower"] :=
    ⟨_, _, selectDay_eq_ok.mpr ⟨2, _, rfl, ⟨0.0, rfl, hpicks⟩, rfl⟩, rfl⟩
  have horder : Grid.inOrder { days := [d] } = [d] := List.mergeSort_singleton _
  have hplan : ∃ day, p.planGrid s { days := [d] } request = .ok [day] ∧
      day.visited = [place "museum", park "tower"] := by
    have hstill : ∀ a b : Stop, travelMinutes ceilReal (Stop.distance s a b) 0.0 = .ok 0 :=
      fun _ _ => if_pos (.inr (by decide))
    have hready : p.Ready s (.text "car") [] [⟨0, park "tower"⟩] :=
      { legible := List.forall_mem_singleton.mpr ⟨rfl, ⟨"", rfl⟩, .inl rfl, .inl rfl⟩
        passes := ⟨10, by decide⟩
        stay := ⟨.int 90, rfl⟩
        speed := ⟨0.0, rfl, fun a _ b _ => ⟨0, hstill a b⟩⟩
        congested := fun a _ b _ => ⟨0, hstill a b⟩
        centres := .inl (by decide) }
    obtain ⟨route, hroute⟩ : ∃ route, p.routePlaces s (.text "car") (.int 1) [] [park "tower"] =
        .ok route := by
      obtain ⟨stops, hstops⟩ : ∃ stops, p.routeStops s (.text "car") (.int 1) [] [⟨0, park "tower"⟩] =
          .ok stops := hready.exists_routeStops (by decide)
      exact ⟨_, Result.bind_eq_ok.mpr ⟨stops, hstops, rfl⟩⟩
    have hday : p.planDay s request.transportMode [] (.int 1) d =
        .ok (⟨.int 1, none, route, slots, [place "museum"]⟩, used) := by
      refine Result.bind_eq_ok.mpr ⟨_, hslots, ?_⟩
      refine Result.bind_eq_ok.mpr ⟨_, Result.bind_eq_ok.mpr ⟨_, rfl, Value.sortBy_nil _⟩, ?_⟩
      dsimp only
      rw [hplaces]
      exact Result.bind_eq_ok.mpr ⟨route, hroute, rfl⟩
    refine ⟨⟨.int 1, none, route, slots, [place "museum"]⟩, ?_, hplaces⟩
    rw [planGrid, horder]
    exact Result.bind_eq_ok.mpr ⟨_, hday, rfl⟩
  obtain ⟨hselects, hplans⟩ := planGrid_selects s p request
  obtain ⟨day, hday, hvisited⟩ := hplan
  obtain ⟨_, hdays⟩ := hplans _ _ hday
  obtain ⟨d', hd', hselectsDay⟩ := hdays [] day [] rfl
  rw [horder] at hd'
  obtain rfl : d = d' := Option.some.inj hd'
  exact ⟨⟨hselectable, hselects [] e hselectable⟩, day, hday, hselectsDay, hvisited⟩

end Planner

end Wayfare.Plan
