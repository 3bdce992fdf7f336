import Wayfare.Grid.Selected
import Wayfare.Proofs.Grid.FixedOrder
import Wayfare.Proofs.Number

/-! # The pass of the selections

Selections are dealt to the days in turn. On its day each goes to some block,
and only a day without any room left puts one into a block that is full.
-/

namespace Wayfare

open Wayfare.Calendar

namespace Grid

/-! ## Days for selections -/

theorem timesInto_nonneg (position : Nat) (perDay : Number) :
    0 ≤ timesInto position (atLeast (.int 1) perDay) := by
  cases perDay with
  | int n =>
      rw [Number.atLeast_int, timesInto]
      exact Int.ediv_nonneg (Int.natCast_nonneg _) (by omega)
  | real x =>
      rw [atLeast]
      split
      next =>
        rw [timesInto]
        split
        next => exact Int.natCast_nonneg _
        next => exact le_rfl
      next => exact Int.ediv_nonneg (Int.natCast_nonneg _) (by decide)

/-- Whole numbers of selections fill one day after the other. -/
theorem selectionDay_int (perDay tripDays : Int) (position : Nat) :
    selectionDay (.int perDay) tripDays position =
      min (Int.ofNat position / max 1 perDay + 1) tripDays := by
  rw [selectionDay, Number.atLeast_int, timesInto]

theorem selectionDay_mem (perDay : Number) {tripDays : Int} (htrip : 1 ≤ tripDays) (position : Nat) :
    selectionDay perDay tripDays position ∈ Distributor.dayNumbers tripDays := by
  have hnonneg := timesInto_nonneg position perDay
  rw [Distributor.mem_dayNumbers, selectionDay]
  omega

/-- The selections that are dealt to a day; `position` is that of the first of all. -/
def selectionsFor (perDay : Number) (tripDays : Int) (position : Nat) (chosen : List Place)
    (n : Int) : List Place :=
  ((chosen.zipIdx position).filter fun (_, i) => selectionDay perDay tripDays i = n).map (·.1)

theorem selectionsFor_cons (perDay : Number) (tripDays : Int) (position : Nat) (p : Place)
    (rest : List Place) (n : Int) :
    selectionsFor perDay tripDays position (p :: rest) n =
      (if selectionDay perDay tripDays position = n then [p] else []) ++
        selectionsFor perDay tripDays (position + 1) rest n := by
  unfold selectionsFor
  rw [List.zipIdx_cons]
  by_cases h : selectionDay perDay tripDays position = n
  · rw [List.filter_cons_of_pos (by simpa using h), if_pos h]
    rfl
  · rw [List.filter_cons_of_neg (by simpa using h), if_neg h]
    rfl

/-- The selections of all days are together all selections. -/
theorem flatMap_selectionsFor_perm (perDay : Number) {tripDays : Int} (htrip : 1 ≤ tripDays)
    (chosen : List Place) :
    ((Distributor.dayNumbers tripDays).flatMap (selectionsFor perDay tripDays 0 chosen)).Perm
      chosen := by
  have hkeys : ∀ x ∈ chosen.zipIdx, (fun x : Place × Nat => selectionDay perDay tripDays x.2) x ∈
      Distributor.dayNumbers tripDays := fun x _ => selectionDay_mem perDay htrip x.2
  have hparts := flatMap_filter_perm (Distributor.nodup_dayNumbers tripDays) hkeys
  have hplaces := hparts.map (·.1)
  rw [List.map_flatMap, List.zipIdx_map_fst] at hplaces
  exact hplaces

/-- Adds selections to a day, one after the other. -/
def addSelections (capacity : Int) (chosen : List Place) (d : DayPlan) : DayPlan :=
  chosen.foldl (fun d p => addSelection capacity p d) d

/-- What the whole pass does to a day is to add the selections that are dealt to it. -/
theorem placeSelections_eq (capacity : Int) (perDay : Number) (tripDays : Int) (position : Nat)
    (days : List DayPlan) (chosen : List Place) :
    placeSelections capacity perDay tripDays position days chosen = days.map fun d =>
      addSelections capacity (selectionsFor perDay tripDays position chosen d.number) d := by
  -- The day of a selection depends on its position in the whole list, so the position is carried on.
  induction chosen generalizing position days with
  | nil => exact (List.map_id days).symm
  | cons p rest ih =>
      rw [placeSelections, ih, List.map_map]
      apply List.map_congr_left
      intro d _
      rw [Function.comp_apply, selectionsFor_cons]
      by_cases h : d.number = selectionDay perDay tripDays position
      · rw [if_pos h, if_pos h.symm, addSelection, DayPlan.number_modify]
        rfl
      · rw [if_neg h, if_neg (Ne.symm h), List.nil_append]

/-! ## What one selection adds to its day -/

/-- A selection goes to a block with room, unless its day has none. -/
theorem bestBlock_cases (capacity : Int) (category : String) (slots : PerBlock Slot) :
    (slots.get (bestBlock capacity category slots)).isFull capacity = false ∨
      ∀ b, (slots.get b).isFull capacity = true := by
  rw [bestBlock]
  by_cases hroom : (slots.get (Category.preferredBlock category)).isFull capacity = true
  · rw [if_neg (by simpa using hroom)]
    cases hfind : Block.all.find? fun b => !(slots.get b).isFull capacity with
    | some b => exact .inl (by simpa using List.find?_some hfind)
    | none =>
        refine .inr fun b => ?_
        simpa using List.find?_eq_none.mp hfind b (Block.mem_all b)
  · rw [if_pos (by simpa using hroom)]
    exact .inl (by simpa using hroom)

theorem get_slots_addSelection (capacity : Int) (p : Place) (d : DayPlan) (b : Block) :
    (addSelection capacity p d).slots.get b =
      if b = bestBlock capacity p.categoryText d.slots then
        { d.slots.get b with selected := (d.slots.get b).selected ++ [p] }
      else d.slots.get b :=
  DayPlan.get_slots_modify _ _ _ _

theorem selected_addSelection_perm (capacity : Int) (p : Place) (d : DayPlan) :
    (addSelection capacity p d).selected.Perm (d.selected ++ [p]) := by
  rw [DayPlan.selected_eq, DayPlan.selected_eq]
  simp only [get_slots_addSelection, apply_ite Slot.selected]
  exact flatMap_append_perm Block.nodup_all (Block.mem_all _) _ p

/-- Two days that differ at most in their selections. -/
def AgreeButSelections (d e : DayPlan) : Prop :=
  DayPlan.AgreeOn (fun s => (s.confirmed, s.suggested)) d e

theorem agreeButSelections_addSelection (capacity : Int) (p : Place) (d : DayPlan) :
    AgreeButSelections d (addSelection capacity p d) :=
  DayPlan.agreeOn_modify (by intro s; rfl) d _

/-- A block with a selection holds more than it should only if no block of the day has any room. -/
def OverflowsOnlyWhenFull (capacity : Int) (d : DayPlan) : Prop :=
  ∀ b, (d.slots.get b).selected ≠ [] →
    capacity < (d.slots.get b).confirmed.length + (d.slots.get b).selected.length →
    ∀ c, capacity ≤ (d.slots.get c).confirmed.length + (d.slots.get c).selected.length

theorem confirmed_addSelection (capacity : Int) (p : Place) (d : DayPlan) (b : Block) :
    ((addSelection capacity p d).slots.get b).confirmed = (d.slots.get b).confirmed := by
  rw [get_slots_addSelection]
  split <;> rfl

theorem length_selected_addSelection (capacity : Int) (p : Place) (d : DayPlan) (b : Block) :
    ((addSelection capacity p d).slots.get b).selected.length =
      (d.slots.get b).selected.length +
        if b = bestBlock capacity p.categoryText d.slots then 1 else 0 := by
  rw [get_slots_addSelection]
  split
  next => exact List.length_append
  next => rfl

theorem overflowsOnlyWhenFull_addSelection {capacity : Int} {d : DayPlan}
    (h : OverflowsOnlyWhenFull capacity d) (p : Place) :
    OverflowsOnlyWhenFull capacity (addSelection capacity p d) := by
  intro b hsome hover c
  rw [confirmed_addSelection, length_selected_addSelection] at hover ⊢
  have hmore : capacity ≤ (d.slots.get c).confirmed.length + (d.slots.get c).selected.length := by
    rcases bestBlock_cases capacity p.categoryText d.slots with hroom | hfull
    · -- The selection fits where it went, so an overflowing block is another one and was so before.
      have hroom := Slot.isFull_eq_false_iff.mp hroom
      by_cases hb : b = bestBlock capacity p.categoryText d.slots
      · subst hb
        rw [if_pos rfl] at hover
        omega
      · rw [get_slots_addSelection, if_neg hb] at hsome
        rw [if_neg hb, Nat.add_zero] at hover
        exact h b hsome hover c
    · exact Slot.isFull_iff.mp (hfull c)
  omega

/-! ## What the whole pass adds -/

section Run

variable (capacity : Int) (chosen : List Place) (d : DayPlan)

theorem selected_addSelections_perm :
    (addSelections capacity chosen d).selected.Perm (d.selected ++ chosen) := by
  induction chosen generalizing d with
  | nil => rw [List.append_nil]; rfl
  | cons p rest ih =>
      refine (ih (addSelection capacity p d)).trans ?_
      refine ((selected_addSelection_perm capacity p d).append_right rest).trans ?_
      rw [List.append_assoc]
      rfl

theorem agreeButSelections_addSelections :
    AgreeButSelections d (addSelections capacity chosen d) := by
  induction chosen generalizing d with
  | nil => exact DayPlan.AgreeOn.refl d
  | cons p rest ih =>
      exact (agreeButSelections_addSelection capacity p d).trans (ih (addSelection capacity p d))

variable {capacity d} in
theorem overflowsOnlyWhenFull_addSelections (h : OverflowsOnlyWhenFull capacity d) :
    OverflowsOnlyWhenFull capacity (addSelections capacity chosen d) := by
  induction chosen generalizing d with
  | nil => exact h
  | cons p rest ih => exact ih (overflowsOnlyWhenFull_addSelection h p)

end Run

/-- Days without selections end up with exactly those that were placed. -/
theorem selected_addSelections_perm_of_unselected {capacity : Int} {d : DayPlan}
    (h : ∀ b, (d.slots.get b).selected = []) (chosen : List Place) :
    (addSelections capacity chosen d).selected.Perm chosen := by
  have hnone : d.selected = [] := by
    rw [DayPlan.selected_eq, List.flatMap_eq_nil_iff]
    exact fun b _ => h b
  have hperm := selected_addSelections_perm capacity chosen d
  rwa [hnone, List.nil_append] at hperm

theorem flatMap_selected_placeSelections_perm {tripDays : Int} (htrip : 1 ≤ tripDays)
    {days : List DayPlan} (hnumbers : days.map (·.number) = Distributor.dayNumbers tripDays)
    (hnone : ∀ d ∈ days, ∀ b, (d.slots.get b).selected = []) (capacity : Int) (perDay : Number)
    (chosen : List Place) :
    ((placeSelections capacity perDay tripDays 0 days chosen).flatMap (·.selected)).Perm chosen := by
  have hdealt : (days.flatMap fun d => selectionsFor perDay tripDays 0 chosen d.number) =
      (Distributor.dayNumbers tripDays).flatMap (selectionsFor perDay tripDays 0 chosen) := by
    rw [← hnumbers, List.flatMap_map]
  rw [placeSelections_eq, List.flatMap_map]
  refine (List.Perm.flatMap_left days fun d hd =>
    selected_addSelections_perm_of_unselected (hnone d hd) _).trans ?_
  rw [hdealt]
  exact flatMap_selectionsFor_perm perDay htrip chosen

/-- The pass of the selections over a grid with bookings. Every selection is on its day, and there once;
nothing else changes; and a selection overfills a block only if its whole day is full. -/
theorem placeSelections_placeConfirmed {index : Result DayIndex} {tripStart : Option Date}
    {tripDays : Int} {empty days : List DayPlan} {bookings : List Booking} {warnings : List String}
    (htrip : 1 ≤ tripDays) (hempty : Distributor.emptyDays tripStart tripDays = .ok empty)
    (hfixed : placeConfirmed index tripStart tripDays empty bookings = .ok (days, warnings))
    (capacity : Int) (perDay : Number) (chosen : List Place) :
    let after := placeSelections capacity perDay tripDays 0 days chosen
    List.Forall₂ AgreeButSelections days after ∧
      (∀ e ∈ after, e.selected.Perm (selectionsFor perDay tripDays 0 chosen e.number)) ∧
      (after.flatMap (·.selected)).Perm chosen ∧
      (∀ n i, perDay = .int n →
        selectionDay perDay tripDays i = min (Int.ofNat i / max 1 n + 1) tripDays) ∧
      ∀ e ∈ after, OverflowsOnlyWhenFull capacity e := by
  intro after
  obtain ⟨day, order, _, _, hplaced⟩ := placeConfirmed_eq_ok hfixed
  -- Bookings are placed first, so no block holds a selection when the pass begins.
  have hunselected : ∀ d ∈ days, ∀ b, (d.slots.get b).selected = [] := by
    intro d hd b
    rw [get_slots_placeInOrder hempty hplaced hd]
  have hafter : after = days.map fun d =>
      addSelections capacity (selectionsFor perDay tripDays 0 chosen d.number) d :=
    placeSelections_eq capacity perDay tripDays 0 days chosen
  rw [hafter]
  refine ⟨?_, ?_, ?_, ?_, ?_⟩
  · rw [List.forall₂_map_right_iff, List.forall₂_same]
    exact fun d _ => agreeButSelections_addSelections capacity _ d
  · intro e he
    obtain ⟨d, hd, rfl⟩ := List.mem_map.mp he
    rw [(agreeButSelections_addSelections capacity _ d).1]
    exact selected_addSelections_perm_of_unselected (hunselected d hd) _
  · rw [← hafter]
    exact flatMap_selected_placeSelections_perm htrip (map_number_placeInOrder hempty hplaced)
      hunselected capacity perDay chosen
  · rintro n i rfl
    exact selectionDay_int n tripDays i
  · intro e he
    obtain ⟨d, hd, rfl⟩ := List.mem_map.mp he
    apply overflowsOnlyWhenFull_addSelections
    intro b hsome
    exact absurd (hunselected d hd b) hsome

theorem placeSelections_placeConfirmed_two_cafes :
    let cafes : List Place :=
      [{ id := .text "a", name := .text "A", category := .text "cafe" },
       { id := .text "b", name := .text "B", category := .text "cafe" }]
    let after := placeSelections 1 (.int 3) 1 0 [{ number := 1 }] cafes
    (after.flatMap (·.selected)).Perm cafes ∧ ∀ e ∈ after, OverflowsOnlyWhenFull 1 e := by
  intro cafes
  have hempty : Distributor.emptyDays none 1 = .ok [{ number := 1 }] := by rfl
  have hfixed : placeConfirmed (.ok Grid.dayIndex) none 1 [{ number := 1 }] [] =
      .ok ([{ number := 1 }], []) := by
    rw [placeConfirmed, chronological_eq_ok ⟨false, List.forall_mem_nil _⟩, List.mergeSort_nil]
    rfl
  obtain ⟨_, _, hperm, _, hover⟩ :=
    placeSelections_placeConfirmed (by decide) hempty hfixed 1 (.int 3) cafes
  exact ⟨hperm, hover⟩

end Grid

end Wayfare
