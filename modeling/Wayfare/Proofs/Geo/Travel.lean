import Mathlib.Algebra.Order.Field.Basic
import Mathlib.Algebra.Order.Floor.Ring
import Wayfare.Geo.Travel

/-! # How travel times are rounded

Whole minutes are the exact time rounded up, so they exceed it by less than one
minute.
-/

namespace Wayfare.Geo

/-- Travel minutes are known if those of a distance above zero can be rounded. -/
theorem exists_travelMinutes {α : Type} [Zero α] [LE α] [DecidableLE α] [Div α] [Mul α] [OfNat α 60]
    {ceil : α → Result Int} {km speed : α}
    (h : ¬ (km ≤ 0 ∨ speed ≤ 0) → ∃ n, ceil (km / speed * 60) = .ok n) :
    ∃ n, travelMinutes ceil km speed = .ok n := by
  rw [travelMinutes]
  split
  next => exact ⟨0, rfl⟩
  next hmoves => exact h hmoves

variable {α : Type} [Field α] [LinearOrder α] [IsStrictOrderedRing α] [FloorRing α]

theorem travelMinutes_eq_ceil {km speed : α} (hkm : 0 ≤ km) (hspeed : 0 < speed) :
    travelMinutes (fun x => .ok ⌈x⌉) km speed = .ok ⌈km / speed * 60⌉ := by
  rw [travelMinutes]
  split
  next hstill =>
    have hzero : km = 0 := le_antisymm (hstill.resolve_right hspeed.not_ge) hkm
    rw [hzero, zero_div, zero_mul, Int.ceil_zero]
  next => rfl

/-- The minutes for a distance are at least its exact time, and less than one more. -/
theorem travelMinutes_bounds {km speed : α} (hkm : 0 ≤ km) (hspeed : 0 < speed) {n : Int}
    (h : travelMinutes (fun x => .ok ⌈x⌉) km speed = .ok n) :
    km / speed * 60 ≤ n ∧ (n : α) < km / speed * 60 + 1 := by
  rw [travelMinutes_eq_ceil hkm hspeed] at h
  cases h
  exact ⟨Int.le_ceil _, Int.ceil_lt_add_one _⟩

end Wayfare.Geo
