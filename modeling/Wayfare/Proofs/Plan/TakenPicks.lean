import Wayfare.Proofs.Plan.FinalSelection

/-! # The picks of a search are taken

A search picks at most once for a block, and only from blocks with room. What it
picks is new to the trip, and stays new until its block comes: the blocks before
visit selections of the day, which the search leaves out, and suggestions of
their own.
-/

namespace Wayfare.Plan

open Wayfare.Geo

variable {P α : Type}

/-! ## One pick for a block -/

section

variable {id : P → Ident} {step : Option P → P → Result α} [Add α] [LT α] [DecidableLT α] [BEq α]

/-- A layer adds one pick of its block, or none. -/
theorem picks_nextBeam {width : Nat} {beam after : List (Partial P α)} {l : Layer P}
    (h : nextBeam id step width beam l = .ok after) :
    ∀ t ∈ after, ∃ s ∈ beam, t.picks = s.picks ∨ ∃ p, t.picks = s.picks ++ [(l.block, p)] := by
  obtain ⟨passed, hpassed, h⟩ := Result.bind_eq_ok.mp h
  have hpassed : ∀ t ∈ passed, ∃ s ∈ beam, t.picks = s.picks := by
    have hstep : ∀ p ∈ l.fixed, ∀ days days', (∀ t ∈ days, ∃ s ∈ beam, t.picks = s.picks) →
        passFixed step days p = .ok days' → ∀ t ∈ days', ∃ s ∈ beam, t.picks = s.picks := by
      intro p _ days days' hdays hdays' t ht
      obtain ⟨u, hu, hadvance⟩ := Result.exists_of_mem_mapM hdays' ht
      rw [(advance_eq_ok hadvance).1]
      exact hdays u hu
    exact Result.of_foldlM hpassed (fun s hs => ⟨s, hs, rfl⟩) hstep
  obtain ⟨expanded, hexpanded, h⟩ := Result.bind_eq_ok.mp h
  have hexpanded : ∀ t ∈ expanded, ∃ s ∈ beam, ∃ p, t.picks = s.picks ++ [(l.block, p)] := by
    obtain ⟨parts, hparts, hexpanded⟩ := Result.bind_eq_ok.mp hexpanded
    rw [Result.pure_eq_ok] at hexpanded
    subst hexpanded
    intro t ht
    obtain ⟨part, hpart, ht⟩ := List.mem_flatten.mp ht
    obtain ⟨u, hu, hpicked⟩ := Result.exists_of_mem_mapM hparts hpart
    obtain ⟨p, _, hpick⟩ := Result.exists_of_mem_mapM hpicked ht
    obtain ⟨s, hs, heq⟩ := hpassed u hu
    exact ⟨s, hs, p, by rw [(pick_eq_ok hpick).1, heq]⟩
  split at h
  next =>
    rw [Result.pure_eq_ok] at h
    subst h
    exact fun t ht => (hpassed t ht).imp fun _ hs => ⟨hs.1, .inl hs.2⟩
  next =>
    split at h
    next =>
      rw [Result.pure_eq_ok] at h
      subst h
      intro t ht
      have hmem := (inRank_perm id expanded).mem_iff.mp (List.mem_of_mem_take ht)
      exact (hexpanded t hmem).imp fun _ hs => ⟨hs.1, .inr hs.2⟩
    next => exact absurd h Result.throw_ne_ok

/-- The blocks that are picked for are among those gone through, in their order. -/
theorem blocks_foldlM_nextBeam {width : Nat} {layers : List (Layer P)} {done : List Block}
    {beam after : List (Partial P α)} (hbeam : ∀ s ∈ beam, (s.picks.map (·.1)).Sublist done)
    (h : layers.foldlM (nextBeam id step width) beam = .ok after) :
    ∀ t ∈ after, (t.picks.map (·.1)).Sublist (done ++ layers.map (·.block)) := by
  induction layers generalizing beam done with
  | nil =>
      rw [List.foldlM_nil, Result.pure_eq_ok] at h
      subst h
      rwa [List.map_nil, List.append_nil]
  | cons l rest ih =>
      rw [List.foldlM_cons, Result.bind_eq_ok] at h
      obtain ⟨next, hnext, h⟩ := h
      have hblocks : ∀ t ∈ next, (t.picks.map (·.1)).Sublist (done ++ [l.block]) := by
        intro t ht
        obtain ⟨s, hs, heq | ⟨p, heq⟩⟩ := picks_nextBeam hnext t ht
        · rw [heq]
          exact (hbeam s hs).trans (List.sublist_append_left done _)
        · rw [heq, List.map_append]
          exact (hbeam s hs).append_right _
      have hrest := ih hblocks h
      rwa [List.append_assoc] at hrest

theorem blocks_searchBeam [Zero α] {width : Int} {layers : List (Layer P)} {best : Partial P α}
    (h : searchBeam id step width layers = .ok best) :
    (best.picks.map (·.1)).Sublist (layers.map (·.block)) := by
  obtain ⟨beam, hbeam, h⟩ := Result.bind_eq_ok.mp h
  have hstart : ∀ s ∈ [(⟨[], 0, none⟩ : Partial P α)], (s.picks.map (·.1)).Sublist [] :=
    List.forall_mem_singleton.mpr (List.nil_sublist _)
  have hblocks := blocks_foldlM_nextBeam hstart hbeam
  cases beam with
  | nil =>
      rw [Result.pure_eq_ok] at h
      subst h
      exact List.nil_sublist _
  | cons s rest =>
      rw [Result.pure_eq_ok] at h
      subst h
      exact hblocks _ (Choice.best_mem _ s rest)

end

/-- Of entries with different keys every one is found. -/
theorem lookup_of_mem {picks : List (Block × P)} (hnodup : (picks.map (·.1)).Nodup) {b : Block} {q : P}
    (h : (b, q) ∈ picks) : picks.lookup b = some q := by
  obtain ⟨before, after, rfl⟩ := List.append_of_mem h
  rw [List.map_append, List.map_cons] at hnodup
  refine List.lookup_eq_some_iff.mpr ⟨before, after, rfl, fun p hp => ?_⟩
  have hne : b ≠ p.1 := by
    rintro rfl
    exact List.disjoint_of_nodup_append hnodup (List.mem_map_of_mem hp) List.mem_cons_self
  exact bne_iff_ne.mpr hne

/-! ## Picks are new -/

variable {s : Settings} {capacity : Int} {used : List Ident} {d : DayPlan}

/-- An option has room and is neither used nor selected on the day. -/
theorem new_of_layersOf {layers : List (Layer Place)} (h : layersOf capacity used d = .ok layers) :
    layers.map (·.block) = Block.all ∧ ∀ l ∈ layers, ∀ q ∈ l.options,
      (d.slots.get l.block).room capacity ≠ 0 ∧ q.key ∉ used ++ d.selected.map (·.key) := by
  obtain ⟨_, _, h⟩ := Result.bind_eq_ok.mp h
  constructor
  · have hblock : ∀ b ∈ Block.all, ∀ l : Layer Place, (do
        let slot := d.slots.get b
        return {
          block := b
          fixed := (← Booking.sites slot.confirmed) ++ slot.selected.filter Place.isLocated
          options := ← optionsOf capacity (used ++ d.selected.map (·.key)) slot }) = Except.ok l →
        l.block = id b := by
      intro b _ l hl
      obtain ⟨_, _, hl⟩ := Result.bind_eq_ok.mp hl
      obtain ⟨_, _, hl⟩ := Result.bind_eq_ok.mp hl
      rw [Result.pure_eq_ok] at hl
      subst hl
      rfl
    rw [Result.map_eq_map_of_forall₂ (Result.forall₂_of_mapM h hblock), List.map_id]
  · intro l hl q hq
    obtain ⟨b, _, hb⟩ := Result.exists_of_mem_mapM h hl
    obtain ⟨sites, _, hb⟩ := Result.bind_eq_ok.mp hb
    obtain ⟨options, hoptions, hb⟩ := Result.bind_eq_ok.mp hb
    rw [Result.pure_eq_ok] at hb
    subst hb
    rw [optionsOf] at hoptions
    split at hoptions
    next =>
      cases hoptions
      exact absurd hq List.not_mem_nil
    next hroom =>
      obtain ⟨_, _, hoptions⟩ := Result.bind_eq_ok.mp hoptions
      rw [Result.pure_eq_ok] at hoptions
      subst hoptions
      refine ⟨hroom, ?_⟩
      have hnew := (List.mem_filter.mp hq).2
      simpa using hnew

/-- What a search picks is the only pick for its block, a suggestion that the block has room for and that is
neither used nor selected on the day. -/
structure FreshPick (capacity : Int) (used : List Ident) (d : DayPlan) (picks : List (Block × Place))
    (b : Block) (q : Place) : Prop where
  lookup_eq : picks.lookup b = some q
  mem_suggested : q ∈ (d.slots.get b).suggested
  room_ne : (d.slots.get b).room capacity ≠ 0
  unused : q.key ∉ used
  unselected : ∀ p ∈ d.selected, p.key ≠ q.key

theorem freshPick_of_mem {speed : Float} {width : Value} {picks : List (Block × Place)}
    (h : beamPicks s speed capacity width used d = .ok picks) {b : Block} {q : Place}
    (hq : (b, q) ∈ picks) : FreshPick capacity used d picks b q := by
  have hsuggested := beamPicks_eq_ok h
  obtain ⟨best, hsearch, hpicks⟩ := Result.bind_eq_ok.mp h
  obtain rfl := Result.pure_eq_ok.mp hpicks
  obtain ⟨layers, n, hlayers, hbest⟩ := searchDay_eq_ok hsearch
  obtain ⟨hblocks, hnew⟩ := new_of_layersOf hlayers
  have hsub := blocks_searchBeam hbest
  rw [hblocks] at hsub
  have hlookup := lookup_of_mem (hsub.nodup Block.nodup_all) hq
  obtain ⟨l, hl, rfl, hoption⟩ :=
    (keptBySteps_within _ layers).searchBeam (List.forall_mem_nil _) hbest _ hq
  obtain ⟨hroom, hkey⟩ := hnew l hl q hoption
  rw [List.mem_append, not_or] at hkey
  refine ⟨hlookup, hsuggested _ q hlookup, hroom, hkey.1, fun p hp heq => hkey.2 ?_⟩
  exact heq ▸ List.mem_map_of_mem hp

/-! ## Picks are taken -/

/-- No suggestion of one block has the identifier of a suggestion of another. -/
def SuggestsApart (d : DayPlan) : Prop :=
  ∀ b c, b ≠ c → ∀ p ∈ (d.slots.get b).suggested, ∀ q ∈ (d.slots.get c).suggested, p.key ≠ q.key

/-- Every pick is visited in its block, as the first place after the selections that are new there. -/
def TakesPicks (used : List Ident) (d : DayPlan) (picks : List (Block × Place)) (slots : List TimeSlot) :
    Prop :=
  ∀ b q, (b, q) ∈ picks → ∃ earlier slot later rest, slots = earlier ++ slot :: later ∧ slot.block = b ∧
    slot.places = Grid.distinctPlaces (usedAfter used (earlier.flatMap (·.places)))
      (d.slots.get b).selected ++ q :: rest

/-- A block that has room begins its suggestions with the pick, if that is new. -/
theorem SelectsSlot.exists_rest {slot : Slot} {chosen added : List Place} {q : Place}
    (h : SelectsSlot capacity (some q) used slot chosen added) (hq : q ∈ slot.suggested)
    (hroom : slot.room capacity ≠ 0) (hnew : q.key ∉ usedAfter used chosen) :
    ∃ rest, added = q :: rest := by
  have hfirst := h.added_first
  have hcontains : ¬(usedAfter used chosen).contains q.key = true := by simpa using hnew
  rw [Option.toList_some, List.singleton_append, Grid.distinctPlaces, if_neg hcontains] at hfirst
  cases added with
  | cons p rest =>
      obtain ⟨rfl, _⟩ := List.cons_prefix_cons.mp hfirst
      exact ⟨rest, rfl⟩
  | nil =>
      -- Room was left over, so the pick itself would be on the trip by now.
      have hleft : (([] : List Place).length : Int) <
          max 0 (capacity - slot.confirmed.length - slot.selected.length) := by
        rw [← room_eq]
        exact_mod_cast Nat.pos_of_ne_zero hroom
      have hon := h.exhausted hleft q hq
      rw [List.append_nil] at hon
      obtain hused | ⟨p, hp, _, hused⟩ := hon
      · exact absurd hused hnew
      · obtain rfl := Option.mem_some_iff.mp hp
        exact absurd hused hnew

/-- What a block visits is among its selections and suggestions. -/
theorem SelectsSlot.subset {pick : Option Place} {slot : Slot} {chosen added : List Place}
    (h : SelectsSlot capacity pick used slot chosen added) (hpick : ∀ p ∈ pick, p ∈ slot.suggested) :
    ∀ r ∈ chosen ++ added, r ∈ slot.selected ∨ r ∈ slot.suggested := by
  intro r hr
  obtain hr | hr := List.mem_append.mp hr
  · rw [h.chosen_eq] at hr
    exact .inl ((Grid.distinctPlaces_sublist _ _).subset hr)
  · have hfresh := h.added_first.subset hr
    rw [← withPick_eq] at hfresh
    exact .inr (mem_withPick hpick ((Grid.distinctPlaces_sublist _ _).subset hfresh))

/-- Nothing else that stands on the day has the identifier of a pick, but for suggestions of its block. -/
theorem FreshPick.key_ne {picks : List (Block × Place)} {b c : Block} {q r : Place}
    (h : FreshPick capacity used d picks b q) (hapart : SuggestsApart d) (hne : c ≠ b)
    (hr : r ∈ (d.slots.get c).selected ∨ r ∈ (d.slots.get c).suggested) : r.key ≠ q.key := by
  obtain hr | hr := hr
  · exact h.unselected r (DayPlan.mem_selected.mpr ⟨c, hr⟩)
  · exact hapart c b hne r hr q h.mem_suggested

theorem block_ne_of_mem_earlier {earlier later : List TimeSlot} {slot other : TimeSlot}
    (hblocks : ((earlier ++ slot :: later).map (·.block)).Nodup) (hother : other ∈ earlier) :
    other.block ≠ slot.block := by
  rw [List.map_append, List.map_cons] at hblocks
  intro heq
  exact List.disjoint_of_nodup_append hblocks (List.mem_map_of_mem hother) (heq ▸ List.mem_cons_self)

/-- What is visited before a block stands in another block. -/
theorem exists_of_mem_earlier {picks : List (Block × Place)} {earlier later : List TimeSlot}
    {slot : TimeSlot} {used' : List Ident}
    (hpicks : ∀ b, ∀ p ∈ picks.lookup b, p ∈ (d.slots.get b).suggested)
    (h : selectBlocks capacity picks d used Block.all = .ok (earlier ++ slot :: later, used'))
    {r : Place} (hr : r ∈ earlier.flatMap (·.places)) :
    ∃ c ≠ slot.block, r ∈ (d.slots.get c).selected ∨ r ∈ (d.slots.get c).suggested := by
  obtain ⟨hblocks, hselects⟩ := selectBlocks_selects h
  obtain ⟨other, hother, hvisited⟩ := List.mem_flatMap.mp hr
  have hne := block_ne_of_mem_earlier (hblocks ▸ Block.nodup_all) hother
  obtain ⟨first, between, rfl⟩ := List.append_of_mem hother
  obtain ⟨_, chosen, added, hplaces, hthat⟩ := hselects first other (between ++ slot :: later)
    (by rw [List.append_assoc, List.cons_append])
  rw [hplaces] at hvisited
  exact ⟨other.block, hne, hthat.subset (hpicks other.block) r hvisited⟩

theorem takesPicks_of_selectBlocks {picks : List (Block × Place)} {slots : List TimeSlot}
    {used' : List Ident} (hapart : SuggestsApart d)
    (hfresh : ∀ b q, (b, q) ∈ picks → FreshPick capacity used d picks b q)
    (hpicks : ∀ b, ∀ p ∈ picks.lookup b, p ∈ (d.slots.get b).suggested)
    (h : selectBlocks capacity picks d used Block.all = .ok (slots, used')) :
    TakesPicks used d picks slots := by
  obtain ⟨hblocks, hselects⟩ := selectBlocks_selects h
  intro b q hq
  have hpick := hfresh b q hq
  obtain ⟨slot, hslot, rfl⟩ : ∃ slot ∈ slots, slot.block = b := by
    have hmem := Block.mem_all b
    rw [← hblocks] at hmem
    exact List.mem_map.mp hmem
  obtain ⟨earlier, later, rfl⟩ := List.append_of_mem hslot
  obtain ⟨_, chosen, added, hplaces, hthis⟩ := hselects earlier slot later rfl
  rw [hpick.lookup_eq] at hthis
  -- The blocks before visit selections of the day and suggestions of other blocks.
  have hnew : q.key ∉ usedAfter (usedAfter used (earlier.flatMap (·.places))) chosen := by
    rw [mem_usedAfter, mem_usedAfter, not_or, not_or]
    refine ⟨fun hmem => ?_, fun hmem => ?_, hpick.unused⟩
    · obtain ⟨r, hr, heq⟩ := List.mem_map.mp hmem
      rw [hthis.chosen_eq] at hr
      exact hpick.unselected r
        (DayPlan.mem_selected.mpr ⟨_, (Grid.distinctPlaces_sublist _ _).subset hr⟩) heq
    · obtain ⟨r, hr, heq⟩ := List.mem_map.mp hmem
      obtain ⟨c, hne, hstands⟩ := exists_of_mem_earlier hpicks h hr
      exact hpick.key_ne hapart hne hstands heq
  obtain ⟨rest, rfl⟩ := hthis.exists_rest hpick.mem_suggested hpick.room_ne hnew
  exact ⟨earlier, slot, later, rest, rfl, rfl, by rw [hplaces, hthis.chosen_eq]⟩

/-- A day of which all that is asked for is known has a selection in beam mode. If its blocks suggest
different places, every pick of the search over the day is visited in its block, before all other
suggestions of the block. -/
theorem selectDay_takes_picks (s : Settings) (p : Planner) (mode : Value) (used : List Ident)
    (d : DayPlan) (hbeam : p.selection = .beam) (hapart : SuggestsApart d) :
    (p.Selectable s mode d → ∃ slots used',
      selectDay s p.selection mode p.capacity p.beamWidth used d = .ok (slots, used')) ∧
    ∀ slots used', selectDay s p.selection mode p.capacity p.beamWidth used d = .ok (slots, used') →
      ∃ speed cap picks, readSpeed s (if mode.isTruthy then mode else .text s.defaultMode) = .ok speed ∧
        p.capacity.asCapacity = .ok cap ∧ beamPicks s speed cap p.beamWidth used d = .ok picks ∧
        TakesPicks used d picks slots := by
  refine ⟨fun h => h.exists_selectDay used, fun slots used' h => ?_⟩
  obtain ⟨cap, picks, hcap, hpicks, hslots⟩ := selectDay_eq_ok.mp h
  have hsuggested := hpicks.mem_suggested
  rw [hbeam] at hpicks
  obtain ⟨speed, hspeed, hpicks⟩ := hpicks
  exact ⟨speed, cap, picks, hspeed, hcap, hpicks, takesPicks_of_selectBlocks hapart
    (fun b q hq => freshPick_of_mem hpicks hq) hsuggested hslots⟩

/-- A morning with room for one place: the zoo ranks first, but the search picks the park, which alone has a
position. -/
theorem selectDay_takes_picks_park :
    let s : Settings := { speeds := [], defaultSpeed := 0.0 }
    let p : Planner :=
      { clusters := ⟨.spread, .int 42, .int 100, .real 0.001⟩
        routes := ⟨.distance, .text "car", .int 10, .int 90⟩
        capacity := .int 1
        placesPerCluster := .int 4
        selection := .beam
        beamWidth := .int 3 }
    let zoo : Place := { id := .text "zoo", name := .text "zoo" }
    let park : Place :=
      { id := .text "park", name := .text "park", latitude := .real 45.0, longitude := .real 4.0 }
    let d : DayPlan := ({ number := 1 } : DayPlan).modify .morning fun slot =>
      { slot with suggested := [zoo, park] }
    ∃ slots used', selectDay s p.selection (.text "car") p.capacity p.beamWidth [] d =
        .ok (slots, used') ∧
      ∃ picks, picks.map (fun q => (q.1, q.2.key)) = [(.morning, .text "park")] ∧
        TakesPicks [] d picks slots := by
  intro s p zoo park d
  have hpicked : (match beamPicks s 0.0 1 (.int 3) [] d with
      | .ok picks => picks.map fun q => (q.1, q.2.key)
      | .error _ => []) = [(.morning, .text "park")] := by
    decide +kernel
  have hsuggested : d.suggested = [zoo, park] := rfl
  have hlocated : ∀ q, IsPassed d q → q = park := by
    rintro q (⟨b, hb, _⟩ | ⟨hq | hq, hlocated⟩)
    · cases hb
    · cases hq
    · rw [hsuggested] at hq
      obtain rfl | hq := List.mem_cons.mp hq
      · cases hlocated
      · exact List.mem_singleton.mp hq
  have hready : SearchReady s 0.0 d :=
    { selected := nofun
      suggested := by
        simp only [hsuggested, List.forall_mem_cons]
        exact ⟨⟨_, rfl⟩, ⟨_, rfl⟩, nofun⟩
      sites := nofun
      steps := by
        intro previous hprevious q hq
        obtain rfl := hlocated q hq
        refine exists_stepCost (by decide) (by decide) (.inl rfl) fun r hr => ?_
        obtain rfl := hlocated r (hprevious r hr)
        exact ⟨rfl, 0, if_pos (.inr (by decide))⟩ }
  have hselectable : p.Selectable s (.text "car") d :=
    { capacity := ⟨1, rfl⟩
      keys := by
        simp only [List.forall_mem_cons, show d.selected ++ d.suggested = [zoo, park] from rfl]
        exact ⟨⟨_, rfl⟩, ⟨_, rfl⟩, nofun⟩
      search := fun _ => ⟨⟨3, rfl⟩, 0.0, rfl, hready⟩ }
  have hmorning : ∀ b, ∀ q ∈ (d.slots.get b).suggested, b = .morning := by
    intro b q hq
    cases b <;> first | rfl | exact absurd hq List.not_mem_nil
  have hapart : SuggestsApart d := fun b c hne q hq r hr =>
    absurd ((hmorning b q hq).trans (hmorning c r hr).symm) hne
  obtain ⟨hexists, htakes⟩ := selectDay_takes_picks s p (.text "car") [] d rfl hapart
  obtain ⟨slots, used', hslots⟩ := hexists hselectable
  obtain ⟨speed, cap, picks, hspeed, hcap, hpicks, htaken⟩ := htakes slots used' hslots
  obtain rfl : 0.0 = speed := Except.ok.inj hspeed
  obtain rfl : 1 = cap := Except.ok.inj hcap
  rw [show beamPicks s 0.0 1 (.int 3) [] d = .ok picks from hpicks] at hpicked
  exact ⟨slots, used', hslots, picks, hpicked, htaken⟩

end Wayfare.Plan
