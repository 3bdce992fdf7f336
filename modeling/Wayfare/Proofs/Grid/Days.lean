import Mathlib.Data.List.Nodup
import Wayfare.Grid.Distribution
import Wayfare.Proofs.Success

/-! # The days of a grid

How the days of a trip are numbered and dated when nothing stands on them yet,
and how a day reads after one of its slots was changed.
-/

namespace Wayfare

open Wayfare.Calendar

namespace Block

theorem mem_all (b : Block) : b ∈ all := by
  cases b <;> decide

theorem nodup_all : all.Nodup := by
  decide

end Block

theorem PerBlock.ext_get {α : Type} {p q : PerBlock α} (h : ∀ b, p.get b = q.get b) : p = q := by
  cases p
  cases q
  rw [PerBlock.mk.injEq]
  exact ⟨h .breakfast, h .morning, h .lunch, h .afternoon, h .dinner, h .evening⟩

namespace Slot

/-- A block is full when its bookings and selections are as many as it has room for. -/
theorem isFull_iff {s : Slot} {capacity : Int} :
    s.isFull capacity = true ↔ capacity ≤ s.confirmed.length + s.selected.length := by
  rw [isFull, decide_eq_true_iff, fixedCount, Int.ofNat_eq_natCast, Int.natCast_add]

theorem isFull_eq_false_iff {s : Slot} {capacity : Int} :
    s.isFull capacity = false ↔ (s.confirmed.length + s.selected.length : Int) < capacity := by
  rw [← Bool.not_eq_true, isFull_iff, Int.not_le]

end Slot

namespace DayPlan

theorem ext_slots {d e : DayPlan} (hnumber : d.number = e.number) (hdate : d.date = e.date)
    (hslots : ∀ b, d.slots.get b = e.slots.get b) : d = e := by
  cases d
  cases e
  cases hnumber
  cases hdate
  cases PerBlock.ext_get hslots
  rfl

theorem confirmed_eq (d : DayPlan) :
    d.confirmed = Block.all.flatMap fun b => (d.slots.get b).confirmed := by
  rw [confirmed, PerBlock.toList, List.flatMap_map]

theorem selected_eq (d : DayPlan) :
    d.selected = Block.all.flatMap fun b => (d.slots.get b).selected := by
  rw [selected, PerBlock.toList, List.flatMap_map]

theorem suggested_eq (d : DayPlan) :
    d.suggested = Block.all.flatMap fun b => (d.slots.get b).suggested := by
  rw [suggested, PerBlock.toList, List.flatMap_map]

theorem mem_confirmed {d : DayPlan} {c : Booking} :
    c ∈ d.confirmed ↔ ∃ b, c ∈ (d.slots.get b).confirmed := by
  simp [confirmed_eq, Block.mem_all]

theorem mem_selected {d : DayPlan} {q : Place} :
    q ∈ d.selected ↔ ∃ b, q ∈ (d.slots.get b).selected := by
  simp [selected_eq, Block.mem_all]

theorem mem_suggested {d : DayPlan} {q : Place} :
    q ∈ d.suggested ↔ ∃ b, q ∈ (d.slots.get b).suggested := by
  simp [suggested_eq, Block.mem_all]

@[simp] theorem number_modify (d : DayPlan) (b : Block) (f : Slot → Slot) :
    (d.modify b f).number = d.number :=
  rfl

theorem get_slots_modify (d : DayPlan) (b c : Block) (f : Slot → Slot) :
    (d.modify b f).slots.get c = if c = b then f (d.slots.get c) else d.slots.get c :=
  PerBlock.get_modify _ _ _ _

/-- Two days with the same number, the same date and the same in a part of their slots. -/
def AgreeOn {α : Type} (part : Slot → α) (d e : DayPlan) : Prop :=
  e.number = d.number ∧ e.date = d.date ∧ ∀ b, part (e.slots.get b) = part (d.slots.get b)

section AgreeOn

variable {α : Type} {part : Slot → α}

theorem AgreeOn.refl (d : DayPlan) : AgreeOn part d d :=
  ⟨rfl, rfl, fun _ => rfl⟩

theorem AgreeOn.trans {d e f : DayPlan} (hde : AgreeOn part d e) (hef : AgreeOn part e f) :
    AgreeOn part d f := by
  obtain ⟨hnumber, hdate, hslots⟩ := hde
  obtain ⟨hnumber', hdate', hslots'⟩ := hef
  exact ⟨hnumber'.trans hnumber, hdate'.trans hdate, fun b => (hslots' b).trans (hslots b)⟩

theorem agreeOn_modify {f : Slot → Slot} (hf : ∀ s, part (f s) = part s) (d : DayPlan)
    (b : Block) : AgreeOn part d (d.modify b f) := by
  refine ⟨rfl, rfl, fun c => ?_⟩
  rw [get_slots_modify]
  split
  next => exact hf _
  next => rfl

theorem AgreeOn.flatMap_eq {β : Type} {d e : DayPlan} (h : AgreeOn part d e) (items : α → List β) :
    (Block.all.flatMap fun b => items (part (e.slots.get b))) =
      Block.all.flatMap fun b => items (part (d.slots.get b)) := by
  apply List.flatMap_congr
  intro b _
  rw [h.2.2 b]

end AgreeOn

end DayPlan

namespace Distributor

/-- The numbers of the days of a trip. -/
def dayNumbers (tripDays : Int) : List Int :=
  (List.range tripDays.toNat).map fun i => Int.ofNat i + 1

theorem mem_dayNumbers {tripDays n : Int} : n ∈ dayNumbers tripDays ↔ 1 ≤ n ∧ n ≤ tripDays := by
  rw [dayNumbers, List.mem_map]
  constructor
  · rintro ⟨i, hi, rfl⟩
    rw [List.mem_range] at hi
    simp only [Int.ofNat_eq_natCast]
    omega
  · rintro ⟨hlow, hhigh⟩
    refine ⟨(n - 1).toNat, List.mem_range.mpr ?_, ?_⟩
    · omega
    · simp only [Int.ofNat_eq_natCast]
      omega

theorem nodup_dayNumbers (tripDays : Int) : (dayNumbers tripDays).Nodup := by
  apply List.Nodup.map ?_ List.nodup_range
  intro i j hij
  simp only [Int.ofNat_eq_natCast] at hij
  omega

theorem emptyDay_eq_ok {start : Option Date} {n : Int} {d : DayPlan}
    (h : emptyDay start n = .ok d) :
    d.number = n ∧ d.slots = PerBlock.ofFn (fun _ => {}) ∧
      d.date = start.bind fun first => first.addDays? (n - 1) := by
  cases start with
  | none =>
      rw [emptyDay, Result.pure_eq_ok] at h
      subst h
      exact ⟨rfl, rfl, rfl⟩
  | some first =>
      obtain ⟨date, hdate, h⟩ := Result.bind_eq_ok.mp h
      rw [Result.pure_eq_ok] at h
      subst h
      exact ⟨rfl, rfl, (Result.ofOption_eq_ok.mp hdate).symm⟩

theorem emptyDays_eq (start : Option Date) (tripDays : Int) :
    emptyDays start tripDays = (dayNumbers tripDays).mapM (emptyDay start) := by
  rw [emptyDays, dayNumbers, List.mapM_map]
  rfl

/-- A trip has its empty days if the calendar reaches as far. -/
theorem exists_emptyDays {first : Date} {tripDays : Int}
    (h : Int.ofNat first.ordinal + tripDays ≤ lastDay + 1) :
    ∃ days, emptyDays (some first) tripDays = .ok days := by
  rw [emptyDays_eq]
  apply Result.exists_mapM_eq_ok
  intro n hn
  obtain ⟨hlow, hhigh⟩ := mem_dayNumbers.mp hn
  have hfirst := first.one_le_ordinal
  simp only [Int.ofNat_eq_natCast] at h
  have hvalid : 1 ≤ Int.ofNat first.ordinal + (n - 1) ∧
      Int.ofNat first.ordinal + (n - 1) ≤ lastDay := by
    simp only [Int.ofNat_eq_natCast]
    omega
  have hdate : ∃ date, first.addDays? (n - 1) = some date := by
    rw [Date.addDays?, Date.ofOrdinal?, dif_pos hvalid]
    exact ⟨_, rfl⟩
  obtain ⟨date, hdate⟩ := hdate
  rw [emptyDay, hdate]
  exact ⟨_, rfl⟩

/-- The days are numbered from one on. -/
theorem number_emptyDays {start : Option Date} {tripDays : Int} {days : List DayPlan}
    (h : emptyDays start tripDays = .ok days) : days.map (·.number) = dayNumbers tripDays := by
  rw [emptyDays_eq, Result.mapM_eq_ok] at h
  generalize dayNumbers tripDays = numbers at h
  induction h with
  | nil => rfl
  | cons hd _ ih => rw [List.map_cons, ih, (emptyDay_eq_ok hd).1]

theorem mem_emptyDays {start : Option Date} {tripDays : Int} {days : List DayPlan}
    (h : emptyDays start tripDays = .ok days) {d : DayPlan} (hd : d ∈ days) :
    emptyDay start d.number = .ok d := by
  rw [emptyDays_eq] at h
  obtain ⟨n, _, hn⟩ := Result.exists_of_mem_mapM h hd
  rw [(emptyDay_eq_ok hn).1]
  exact hn

theorem get_slots_emptyDays {start : Option Date} {tripDays : Int} {days : List DayPlan}
    (h : emptyDays start tripDays = .ok days) {d : DayPlan} (hd : d ∈ days) (b : Block) :
    d.slots.get b = {} := by
  rw [(emptyDay_eq_ok (mem_emptyDays h hd)).2.1, PerBlock.get_ofFn]

end Distributor

end Wayfare
