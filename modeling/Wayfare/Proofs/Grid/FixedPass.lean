import Mathlib.Data.List.FinRange
import Wayfare.Proofs.Grid.Chronology
import Wayfare.Proofs.Grid.Days
import Wayfare.Proofs.Grouping

/-! # The pass of the bookings

Every booking ends up in the one cell of its day and its block. What the whole
pass adds to a day is told at once, and so are its warnings; the order within a
cell and the order of the whole grid follow from the order of the bookings.
-/

namespace Wayfare

open Wayfare.Calendar

/-- The day with more bookings at the end of its slots. -/
def DayPlan.withConfirmed (d : DayPlan) (more : Block → List Booking) : DayPlan :=
  { d with
    slots := PerBlock.ofFn fun b =>
      { d.slots.get b with confirmed := (d.slots.get b).confirmed ++ more b } }

namespace DayPlan

theorem get_slots_withConfirmed (d : DayPlan) (more : Block → List Booking) (b : Block) :
    (d.withConfirmed more).slots.get b =
      { d.slots.get b with confirmed := (d.slots.get b).confirmed ++ more b } :=
  PerBlock.get_ofFn _ _

theorem withConfirmed_nil (d : DayPlan) : d.withConfirmed (fun _ => []) = d := by
  refine ext_slots (by rfl) (by rfl) fun b => ?_
  rw [get_slots_withConfirmed, List.append_nil]

end DayPlan

namespace Grid

open Booking

/-- The bookings of a list that belong to a day and a block. -/
def bookingsAt (day : Booking → Int) (bookings : List Booking) (n : Int) (b : Block) :
    List Booking :=
  bookings.filter fun x => (day x, x.block) = (n, b)

theorem bookingsAt_nil (day : Booking → Int) (n : Int) : bookingsAt day [] n = fun _ => [] :=
  rfl

theorem bookingsAt_cons (day : Booking → Int) (x : Booking) (rest : List Booking) (n : Int)
    (b : Block) :
    bookingsAt day (x :: rest) n b =
      (if (day x, x.block) = (n, b) then [x] else []) ++ bookingsAt day rest n b := by
  unfold bookingsAt
  by_cases h : (day x, x.block) = (n, b)
  · rw [List.filter_cons_of_pos (by simpa using h), if_pos h]
    rfl
  · rw [List.filter_cons_of_neg (by simpa using h), if_neg h]
    rfl

/-- One booking more is one booking more in its cell. -/
theorem modifyDay_withConfirmed (day : Booking → Int) (x : Booking) (rest : List Booking)
    (days : List DayPlan) :
    (modifyDay days (day x) x.block fun s => { s with confirmed := s.confirmed ++ [x] }).map
        (fun d => d.withConfirmed (bookingsAt day rest d.number)) =
      days.map fun d => d.withConfirmed (bookingsAt day (x :: rest) d.number) := by
  rw [modifyDay, List.map_map]
  apply List.map_congr_left
  intro d _
  rw [Function.comp_apply]
  split
  next hday =>
    refine DayPlan.ext_slots (by rfl) (by rfl) fun b => ?_
    rw [DayPlan.get_slots_withConfirmed, DayPlan.get_slots_withConfirmed,
      DayPlan.get_slots_modify, DayPlan.number_modify, bookingsAt_cons, hday]
    by_cases hb : b = x.block
    · simp [hb]
    · simp [hb, Ne.symm hb]
  next hday =>
    refine DayPlan.ext_slots (by rfl) (by rfl) fun b => ?_
    rw [DayPlan.get_slots_withConfirmed, DayPlan.get_slots_withConfirmed, bookingsAt_cons,
      if_neg (by simp [Ne.symm hday]), List.nil_append]

/-- What the whole pass adds to the days: to each slot the bookings that belong there, as they come. -/
theorem placeInOrder_days {day : Booking → Int} {placed rest : List Booking}
    {days after : List DayPlan} {warnings : List String}
    (h : placeInOrder day placed days rest = .ok (after, warnings)) :
    after = days.map fun d => d.withConfirmed (bookingsAt day rest d.number) := by
  -- What a pass adds does not depend on what was placed before; that only goes into warnings.
  induction rest generalizing placed days warnings with
  | nil =>
      cases h
      simp only [bookingsAt_nil, DayPlan.withConfirmed_nil, List.map_id']
  | cons x rest ih =>
      obtain ⟨titles, _, h⟩ := Result.bind_eq_ok.mp h
      obtain ⟨⟨later, more⟩, hlater, h⟩ := Result.bind_eq_ok.mp h
      rw [Result.pure_eq_ok] at h
      cases h
      rw [ih hlater, modifyDay_withConfirmed]

theorem mem_dayNumbers_dayOf (index : DayIndex) (tripStart : Option Date) {tripDays : Int}
    (htrip : 1 ≤ tripDays) (x : Booking) :
    dayOf index tripStart tripDays x ∈ Distributor.dayNumbers tripDays := by
  rw [Distributor.mem_dayNumbers, dayOf]
  omega

/-- A pass that succeeds has placed the bookings one by one in some order. -/
theorem placeConfirmed_eq_ok {index : Result DayIndex} {tripStart : Option Date} {tripDays : Int}
    {days after : List DayPlan} {bookings : List Booking} {warnings : List String}
    (h : placeConfirmed index tripStart tripDays days bookings = .ok (after, warnings)) :
    ∃ day order, order.Perm bookings ∧
      (1 ≤ tripDays → ∀ x, day x ∈ Distributor.dayNumbers tripDays) ∧
      placeInOrder day [] days order = .ok (after, warnings) := by
  obtain ⟨order, horder, h⟩ := Result.bind_eq_ok.mp h
  obtain ⟨i, _, h⟩ := Result.bind_eq_ok.mp h
  refine ⟨dayOf i tripStart tripDays, order, ?_, fun htrip => ?_, h⟩
  · rw [chronological] at horder
    split at horder
    next =>
      cases horder
      exact List.mergeSort_perm _ _
    next => cases horder
  · exact mem_dayNumbers_dayOf i tripStart htrip

/-! ## Warnings -/

theorem clashes_eq_ok {b : Booking} {placed : List Booking}
    (h : MutuallyComparable (b :: placed)) :
    clashes b placed = .ok ((placed.filter (Overlap b ·)).map (·.title)) := by
  have hjudged : placed.mapM (fun other => do return (other.title, ← b.overlaps other)) =
      (.ok (placed.map fun other => (other.title, decide (Overlap b other))) :
        Result (List (Value × Bool))) := by
    rw [Result.mapM_eq_ok, List.forall₂_map_right_iff, List.forall₂_same]
    intro other hother
    rw [h.overlaps_eq List.mem_cons_self (List.mem_cons_of_mem _ hother)]
    rfl
  rw [clashes, hjudged]
  simp only [bind, Except.bind, pure, Except.pure, List.filter_map, List.map_map]
  rfl

/-- The warning for a booking and those that it overlaps with, if there are any: it names the booking and
then the others, one after the other. -/
def warningFor (b : Booking) (named : List Booking) : Option String :=
  if named.isEmpty then none
  else some ("Confirmed " ++ b.title.quoted ++ " overlaps " ++
    ("[" ++ ", ".intercalate (named.map fun other => other.title.quoted) ++ "]") ++ "; keeping both")

theorem overlapWarning_titles (b : Booking) (named : List Booking) :
    overlapWarning b (named.map (·.title)) =
      "Confirmed " ++ b.title.quoted ++ " overlaps " ++
        ("[" ++ ", ".intercalate (named.map fun other => other.title.quoted) ++ "]") ++
          "; keeping both" := by
  rw [overlapWarning, Value.quoted.eq_def (.list _)]
  dsimp only
  rw [Value.quotedItems_eq_map, List.map_map]
  rfl

/-- The whole pass over comparable bookings succeeds, and each booking is reported with the earlier ones
that it overlaps with. -/
theorem exists_placeInOrder (day : Booking → Int) {placed rest : List Booking}
    (h : MutuallyComparable (placed ++ rest)) (days : List DayPlan) :
    ∃ after, placeInOrder day placed days rest = .ok (after,
      (rest.zipIdx placed.length).filterMap fun (b, j) =>
        warningFor b (((placed ++ rest).take j).filter (Overlap b ·))) := by
  induction rest generalizing placed days with
  | nil => exact ⟨days, rfl⟩
  | cons b rest ih =>
      have hhead : MutuallyComparable (b :: placed) := h.of_subset (by
        intro x hx
        rcases List.mem_cons.mp hx with rfl | hx
        · exact List.mem_append_right _ List.mem_cons_self
        · exact List.mem_append_left _ hx)
      have hassoc : placed ++ [b] ++ rest = placed ++ b :: rest := by simp
      have hrest : MutuallyComparable (placed ++ [b] ++ rest) := by rwa [hassoc]
      obtain ⟨after, hafter⟩ := ih hrest
        (modifyDay days (day b) b.block fun s => { s with confirmed := s.confirmed ++ [b] })
      refine ⟨after, ?_⟩
      rw [placeInOrder, clashes_eq_ok hhead]
      simp only [bind, Except.bind, hafter, pure, Except.pure]
      rw [hassoc, List.zipIdx_cons, List.filterMap_cons, List.take_left, List.length_append,
        List.length_singleton, warningFor, List.isEmpty_map, overlapWarning_titles]
      split
      next => rfl
      next => rfl

end Grid

end Wayfare
