import Wayfare.Proofs.Grid.Days
import Wayfare.Proofs.Grid.Distinct
import Wayfare.Proofs.Plan.BeamPicks

/-! # What is visited

The identifiers that are used so far go from block to block and from day to day.
A place is visited only if its own is not among them, and a selection is missed
only if its own already is.
-/

namespace Wayfare.Plan

open Wayfare.Geo

/-- The identifiers that are used after some visits. -/
def usedAfter (used : List Ident) (visited : List Place) : List Ident :=
  (visited.map (·.key)).reverse ++ used

theorem mem_usedAfter {used : List Ident} {visited : List Place} {k : Ident} :
    k ∈ usedAfter used visited ↔ k ∈ visited.map (·.key) ∨ k ∈ used := by
  rw [usedAfter, List.mem_append, List.mem_reverse]

theorem usedAfter_append (used : List Ident) (first second : List Place) :
    usedAfter used (first ++ second) = usedAfter (usedAfter used first) second := by
  rw [usedAfter, usedAfter, usedAfter, List.map_append, List.reverse_append, List.append_assoc]

/-- A stretch of a trip: it visits places that are wanted or offered, each under an identifier of its own
that was not used before, and after it no wanted place is left out. -/
structure Visits (wanted offered : List Place) (used : List Ident) (visited : List Place) : Prop where
  nodup : (visited.map (·.key)).Nodup
  unused : ∀ p ∈ visited, p.key ∉ used
  subset : ∀ p ∈ visited, p ∈ wanted ∨ p ∈ offered
  complete : ∀ p ∈ wanted, p.key ∈ usedAfter used visited

namespace Visits

variable {wanted wanted' offered offered' visited visited' : List Place} {used : List Ident}

theorem nil (used : List Ident) : Visits [] [] used [] where
  nodup := List.nodup_nil
  unused := List.forall_mem_nil _
  subset := List.forall_mem_nil _
  complete := List.forall_mem_nil _

theorem append (h : Visits wanted offered used visited)
    (h' : Visits wanted' offered' (usedAfter used visited) visited') :
    Visits (wanted ++ wanted') (offered ++ offered') used (visited ++ visited') where
  nodup := by
    rw [List.map_append]
    refine List.nodup_append'.mpr ⟨h.nodup, h'.nodup, ?_⟩
    -- What the first stretch visited is used when the second one begins.
    intro k hk hk'
    obtain ⟨p, hp, rfl⟩ := List.mem_map.mp hk'
    exact h'.unused p hp (mem_usedAfter.mpr (.inl hk))
  unused := by
    intro p hp
    rcases List.mem_append.mp hp with hp | hp
    · exact h.unused p hp
    · exact fun hused => h'.unused p hp (mem_usedAfter.mpr (.inr hused))
  subset := by
    intro p hp
    rw [List.mem_append, List.mem_append]
    rcases List.mem_append.mp hp with hp | hp
    · exact (h.subset p hp).imp .inl .inl
    · exact (h'.subset p hp).imp .inr .inr
  complete := by
    intro p hp
    rw [usedAfter_append]
    rcases List.mem_append.mp hp with hp | hp
    · exact mem_usedAfter.mpr (.inr (h.complete p hp))
    · exact h'.complete p hp

theorem mono (h : Visits wanted offered used visited) (hoffered : offered ⊆ offered') :
    Visits wanted offered' used visited where
  nodup := h.nodup
  unused := h.unused
  subset := fun p hp => (h.subset p hp).imp_right (hoffered ·)
  complete := h.complete

theorem of_distinctPlaces (used : List Ident) (places : List Place) :
    Visits places [] used (Grid.distinctPlaces used places) where
  nodup := Grid.nodup_distinctPlaces used places
  unused := fun _ hp => Grid.notMem_of_mem_distinctPlaces hp
  subset := fun _ hp => .inl ((Grid.distinctPlaces_sublist used places).subset hp)
  complete := fun _ hp => mem_usedAfter.mpr (Grid.key_mem_distinctPlaces hp).symm

theorem of_take_distinctPlaces (room : Nat) (used : List Ident) (places : List Place) :
    Visits [] places used ((Grid.distinctPlaces used places).take room) where
  nodup := ((List.take_sublist _ _).map _).nodup (Grid.nodup_distinctPlaces used places)
  unused := fun _ hp => Grid.notMem_of_mem_distinctPlaces (List.mem_of_mem_take hp)
  subset := fun _ hp =>
    .inr ((Grid.distinctPlaces_sublist used places).subset (List.mem_of_mem_take hp))
  complete := List.forall_mem_nil _

end Visits

/-! ## Blocks and days -/

theorem readKey_eq_ok {p : Place} {k : Ident} (h : p.readKey = .ok k) : p.key = k := by
  rw [Place.readKey, Result.ofOption_eq_ok] at h
  rw [Place.key, h, Option.getD_some]

/-- As many new places are taken as there is room for, and their identifiers are used then. -/
theorem takeNew_eq_ok {room : Nat} {used used' : List Ident} {places taken : List Place}
    (h : takeNew room used places = .ok (taken, used')) :
    taken = (Grid.distinctPlaces used places).take room ∧ used' = usedAfter used taken := by
  -- A new place takes room and is used from then on; a used one changes nothing.
  induction places generalizing room used taken with
  | nil =>
      cases h
      exact ⟨List.take_nil.symm, rfl⟩
  | cons p rest ih =>
      cases room with
      | zero =>
          cases h
          exact ⟨List.take_zero.symm, rfl⟩
      | succ room =>
          obtain ⟨key, hkey, h⟩ := Result.bind_eq_ok.mp h
          cases readKey_eq_ok hkey
          rw [Grid.distinctPlaces]
          split at h
          next hused =>
            rw [if_pos hused]
            exact ih h
          next hnew =>
            obtain ⟨⟨later, after⟩, hlater, h⟩ := Result.bind_eq_ok.mp h
            rw [Result.pure_eq_ok] at h
            cases h
            obtain ⟨rfl, rfl⟩ := ih hlater
            rw [if_neg hnew, List.take_succ_cons]
            exact ⟨rfl, (usedAfter_append used [p] _).symm⟩

/-- The pick comes first, and it leaves its place among the others. -/
theorem withPick_eq (pick : Option Place) (ranked : List Place) :
    withPick pick ranked = pick.toList ++ ranked.filter fun q => pick.all fun p => q.id != p.id := by
  cases pick with
  | none => exact (List.filter_eq_self.mpr fun _ _ => rfl).symm
  | some p => rfl

theorem mem_withPick {pick : Option Place} {ranked : List Place} (hpick : ∀ p ∈ pick, p ∈ ranked) :
    withPick pick ranked ⊆ ranked := by
  cases pick with
  | none => exact List.Subset.refl _
  | some p => exact List.cons_subset.mpr ⟨hpick p rfl, List.filter_subset_self _⟩

/-- A block visits all new selections, and then as many new suggestions as it has room for. -/
theorem selectSlot_eq_ok {capacity : Int} {pick : Option Place} {used used' : List Ident}
    {s : Slot} {places : List Place} (h : selectSlot capacity pick used s = .ok (places, used')) :
    let chosen := Grid.distinctPlaces used s.selected
    places = chosen ++ (Grid.distinctPlaces (usedAfter used chosen)
        (withPick pick s.suggested)).take (s.room capacity) ∧
      used' = usedAfter used places := by
  obtain ⟨⟨chosen, between⟩, hchosen, h⟩ := Result.bind_eq_ok.mp h
  obtain ⟨⟨added, after⟩, hadded, h⟩ := Result.bind_eq_ok.mp h
  rw [Result.pure_eq_ok] at h
  cases h
  obtain ⟨hall, rfl⟩ := takeNew_eq_ok hchosen
  obtain ⟨hfirst, rfl⟩ := takeNew_eq_ok hadded
  -- There is room for as many selections as there are, so none is cut off.
  rw [List.take_of_length_le (Grid.distinctPlaces_sublist used s.selected).length_le] at hall
  subst hall
  exact ⟨congrArg _ hfirst, (usedAfter_append _ _ _).symm⟩

theorem visits_selectSlot {capacity : Int} {pick : Option Place} {used used' : List Ident}
    {s : Slot} {places : List Place} (hpick : ∀ p ∈ pick, p ∈ s.suggested)
    (h : selectSlot capacity pick used s = .ok (places, used')) :
    Visits s.selected s.suggested used places ∧ used' = usedAfter used places := by
  obtain ⟨hplaces, hused⟩ := selectSlot_eq_ok h
  refine ⟨?_, hused⟩
  have hadded := (Visits.of_take_distinctPlaces (s.room capacity)
    (usedAfter used (Grid.distinctPlaces used s.selected)) (withPick pick s.suggested)).mono
      (mem_withPick hpick)
  have hboth := (Visits.of_distinctPlaces used s.selected).append hadded
  rwa [List.append_nil, List.nil_append, ← hplaces] at hboth

variable {d : DayPlan} {used used' : List Ident}

theorem visits_selectBlocks {capacity : Int} {picks : List (Block × Place)} {blocks : List Block}
    {slots : List TimeSlot} (hpicks : ∀ b, ∀ p ∈ picks.lookup b, p ∈ (d.slots.get b).suggested)
    (h : selectBlocks capacity picks d used blocks = .ok (slots, used')) :
    Visits (blocks.flatMap fun b => (d.slots.get b).selected)
        (blocks.flatMap fun b => (d.slots.get b).suggested) used (slots.flatMap (·.places)) ∧
      used' = usedAfter used (slots.flatMap (·.places)) ∧
      slots.map (·.confirmed) = blocks.map fun b => (d.slots.get b).confirmed := by
  induction blocks generalizing used slots with
  | nil =>
      cases h
      exact ⟨Visits.nil used', rfl, rfl⟩
  | cons b rest ih =>
      obtain ⟨⟨places, between⟩, hplaces, h⟩ := Result.bind_eq_ok.mp h
      obtain ⟨⟨later, after⟩, hlater, h⟩ := Result.bind_eq_ok.mp h
      rw [Result.pure_eq_ok] at h
      cases h
      obtain ⟨hvisits, rfl⟩ := visits_selectSlot (hpicks b) hplaces
      obtain ⟨hrest, hused, hconfirmed⟩ := ih hlater
      refine ⟨?_, ?_, ?_⟩
      · rw [List.flatMap_cons, List.flatMap_cons, List.flatMap_cons]
        exact hvisits.append hrest
      · rw [List.flatMap_cons, usedAfter_append, hused]
      · rw [List.map_cons, List.map_cons, hconfirmed]

/-- How the picks of a day come about: by rank there are none, and in beam mode they are those of the
search over the day. -/
def PicksOf (s : Settings) (selection : SelectionMode) (mode width : Value) (capacity : Int)
    (used : List Ident) (d : DayPlan) (picks : List (Block × Place)) : Prop :=
  match selection with
  | .rank => picks = []
  | .beam => ∃ speed, readSpeed s (if mode.isTruthy then mode else .text s.defaultMode) = .ok speed ∧
      beamPicks s speed capacity width used d = .ok picks

theorem PicksOf.mem_suggested {s : Settings} {selection : SelectionMode} {mode width : Value}
    {capacity : Int} {picks : List (Block × Place)}
    (h : PicksOf s selection mode width capacity used d picks) :
    ∀ b, ∀ p ∈ picks.lookup b, p ∈ (d.slots.get b).suggested := by
  cases selection with
  | rank =>
      intro b p hp
      rw [show picks = [] from h] at hp
      cases hp
  | beam =>
      obtain ⟨speed, _, hpicks⟩ := h
      exact beamPicks_eq_ok hpicks

/-- Both modes end with the same walk over the blocks. -/
theorem selectDay_eq_ok {s : Settings} {selection : SelectionMode} {mode capacity width : Value}
    {slots : List TimeSlot} :
    selectDay s selection mode capacity width used d = .ok (slots, used') ↔
      ∃ cap picks, capacity.asCapacity = .ok cap ∧ PicksOf s selection mode width cap used d picks ∧
        selectBlocks cap picks d used Block.all = .ok (slots, used') := by
  cases selection with
  | rank =>
      constructor
      · intro h
        obtain ⟨cap, hcap, h⟩ := Result.bind_eq_ok.mp h
        exact ⟨cap, [], hcap, rfl, h⟩
      · rintro ⟨cap, picks, hcap, rfl, h⟩
        exact Result.bind_eq_ok.mpr ⟨cap, hcap, h⟩
  | beam =>
      constructor
      · intro h
        obtain ⟨speed, hspeed, h⟩ := Result.bind_eq_ok.mp h
        obtain ⟨cap, hcap, h⟩ := Result.bind_eq_ok.mp h
        obtain ⟨picks, hpicks, h⟩ := Result.bind_eq_ok.mp h
        exact ⟨cap, picks, hcap, ⟨speed, hspeed, hpicks⟩, h⟩
      · rintro ⟨cap, picks, hcap, ⟨speed, hspeed, hpicks⟩, h⟩
        exact Result.bind_eq_ok.mpr ⟨speed, hspeed, Result.bind_eq_ok.mpr ⟨cap, hcap,
          Result.bind_eq_ok.mpr ⟨picks, hpicks, h⟩⟩⟩

/-- A day visits its selections and some of its suggestions, and its blocks keep their bookings. -/
theorem visits_selectDay {s : Settings} {selection : SelectionMode} {mode capacity width : Value}
    {slots : List TimeSlot}
    (h : selectDay s selection mode capacity width used d = .ok (slots, used')) :
    Visits d.selected d.suggested used (slots.flatMap (·.places)) ∧
      used' = usedAfter used (slots.flatMap (·.places)) ∧
      slots.flatMap (·.confirmed) = d.confirmed := by
  obtain ⟨cap, picks, _, hpicks, h⟩ := selectDay_eq_ok.mp h
  obtain ⟨hvisits, hused, hconfirmed⟩ := visits_selectBlocks hpicks.mem_suggested h
  rw [DayPlan.selected_eq, DayPlan.suggested_eq, DayPlan.confirmed_eq]
  refine ⟨hvisits, hused, ?_⟩
  rw [List.flatMap_def, hconfirmed, ← List.flatMap_def]

end Wayfare.Plan
