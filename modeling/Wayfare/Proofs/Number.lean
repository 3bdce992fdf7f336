import Mathlib
import Wayfare.Numeric
import Wayfare.Proofs.Decimal.Conversion
import Wayfare.Value.Number

/-! # What numbers stand for

A finite number stands for a fraction, and numbers of either kind are ordered as
the fractions are.
-/

namespace Wayfare

open Wayfare.Decimal

namespace Decimal

/-- The fraction that a finite number is; zero for any other. -/
def Binary.value : Binary → ℚ
  | finite negative m e => (if negative then -1 else 1) * (m * 2 ^ e)
  | _ => 0

theorem fraction_value (m : Nat) (e : Int) :
    0 < (fraction m e).2 ∧ ((fraction m e).1 / (fraction m e).2 : ℚ) = m * 2 ^ e := by
  have hpow (k : Nat) : Nat.pow 2 k = 2 ^ k := rfl
  refine ⟨Nat.pow_pos (by decide), ?_⟩
  rw [fraction, hpow, hpow, zpow_eq_div 2 e]
  push_cast
  rw [mul_div_assoc]

/-- What equals zero stands for zero. -/
theorem Binary.value_eq_zero {x : Float} (h : (x == 0.0) = true) : (ofFloat x).value = 0 := by
  have hcompare : (x.toModel.unpack.compare (.zero .positive) == some .eq) = true := h
  rw [unpack_toModel, beq_iff_eq] at hcompare
  cases hx : ofFloat x with
  | notANumber => rfl
  | infinite negative => rfl
  | finite negative m e =>
      rw [hx, unpacked] at hcompare
      split at hcompare
      next hm => simp [value, hm]
      next => cases negative <;> cases hcompare

end Decimal

namespace Number

/-- A number that is a point on the line. -/
def IsFinite : Number → Prop
  | int _ => True
  | real x => x.isNaN = false ∧ x.isInf = false

/-- The fraction that a finite number stands for; zero for any other. -/
def value : Number → ℚ
  | int n => n
  | real x => (Binary.ofFloat x).value

variable {a b : Number}

theorem IsFinite.exists_ofFloat {x : Float} (h : (real x).IsFinite) :
    ∃ negative m e, Binary.ofFloat x = .finite negative m e := by
  obtain ⟨hnan, hinf⟩ := h
  cases hx : Binary.ofFloat x with
  | finite negative m e => exact ⟨negative, m, e, rfl⟩
  | infinite negative => exact absurd (isInf_iff.mpr ⟨negative, hx⟩) (Bool.eq_false_iff.mp hinf)
  | notANumber => exact absurd (isNaN_iff.mpr hx) (Bool.eq_false_iff.mp hnan)

/-- A finite number stands at the fraction that it stands for. -/
theorem IsFinite.position (h : a.IsFinite) :
    ∃ num den, a.position? = some (.fraction num den) ∧ 0 < den ∧ a.value = num / den := by
  cases a with
  | int n => exact ⟨n, 1, rfl, Nat.one_pos, by simp [value]⟩
  | real x =>
      obtain ⟨negative, m, e, hx⟩ := h.exists_ofFloat
      obtain ⟨hden, hvalue⟩ := fraction_value m e
      refine ⟨_, _, by rw [position?, hx], hden, ?_⟩
      rw [value, hx, Binary.value, ← hvalue]
      cases negative with
      | false => simp
      | true => simp [neg_div]

/-- Finite numbers are ordered as what they stand for. -/
theorem le_iff (ha : a.IsFinite) (hb : b.IsFinite) : a ≤ b ↔ a.value ≤ b.value := by
  obtain ⟨num, den, hposition, hden, hvalue⟩ := ha.position
  obtain ⟨num', den', hposition', hden', hvalue'⟩ := hb.position
  change notAbove a b = true ↔ _
  rw [notAbove, hposition, hposition', hvalue, hvalue',
    div_le_div_iff₀ (by exact_mod_cast hden) (by exact_mod_cast hden')]
  simp only [LinePosition.notAfter, decide_eq_true_eq, Int.ofNat_eq_natCast]
  exact_mod_cast Iff.rfl

theorem lt_iff (ha : a.IsFinite) (hb : b.IsFinite) : a < b ↔ a.value < b.value := by
  rw [← not_le, ← le_iff hb ha]
  change isBelow a b = true ↔ ¬notAbove b a = true
  obtain ⟨_, _, hposition, -⟩ := ha.position
  obtain ⟨_, _, hposition', -⟩ := hb.position
  rw [isBelow, notAbove, hposition, hposition']
  simp

variable {m n : Int}

theorem int_le_int : int m ≤ int n ↔ m ≤ n := by
  rw [le_iff (a := int m) (b := int n) trivial trivial, value, value]
  exact Int.cast_le

theorem int_lt_int : int m < int n ↔ m < n := by
  rw [lt_iff (a := int m) (b := int n) trivial trivial, value, value]
  exact Int.cast_lt

theorem atLeast_int (floor n : Int) : atLeast (int floor) (int n) = int (max floor n) := by
  rw [atLeast]
  split
  next h => rw [max_eq_right (int_lt_int.mp h).le]
  next h => rw [max_eq_left (not_lt.mp (mt int_lt_int.mpr h))]

end Number

namespace Value

/-- A finite number; a truth value is one, too. -/
def IsFinite (v : Value) : Prop :=
  ∃ a, v.number? = some a ∧ a.IsFinite

/-- The fraction that a value stands for; zero if it is no number. -/
def quantity (v : Value) : ℚ :=
  (v.number?.map Number.value).getD 0

variable {v w : Value}

/-- What counts as not given is zero. -/
theorem quantity_eq_zero (h : v.isTruthy = false) : v.quantity = 0 := by
  cases v with
  | null | text | list | record | moment => rfl
  | bool b =>
      obtain rfl : b = false := h
      exact Int.cast_zero
  | int n =>
      obtain rfl : n = 0 := by simpa [isTruthy] using h
      exact Int.cast_zero
  | real x =>
      have hzero : (!(x == 0.0)) = false := h
      exact Binary.value_eq_zero (by simpa using hzero)

theorem isBelow_iff (hv : v.IsFinite) (hw : w.IsFinite) :
    v.isBelow w = true ↔ v.quantity < w.quantity := by
  obtain ⟨a, hv, ha⟩ := hv
  obtain ⟨b, hw, hb⟩ := hw
  rw [quantity, quantity, hv, hw, Option.map_some, Option.getD_some, Option.map_some, Option.getD_some,
    ← Number.lt_iff ha hb]
  cases v with
  | null | text | list | record | moment => cases hv
  | bool | int | real => simp [isBelow, hv, hw]

end Value

end Wayfare
