import Mathlib
import Wayfare.Proofs.Decimal.Conversion
import Wayfare.Proofs.RealOrder

/-! # Whole numbers that are real numbers

A whole number of at most 53 bits with zeros after them is a real number. Turned
into one it keeps its value, so that the whole part of the real number is the
whole number again.
-/

namespace Wayfare.Decimal

/-- A whole number that some real number stands for: at most 53 bits with zeros after them, in range. -/
def FitsReal (n : Int) : Prop :=
  ∃ m k : Nat, m < 2 ^ 53 ∧ k ≤ 971 ∧ n.natAbs = m * 2 ^ k

/-- A whole number of at most 53 bits and a power of two in range make up a real number. -/
theorem exists_canonical_eq {m : Nat} {k : Int} (hm : m < 2 ^ 53) (hle : -1074 ≤ k) (hk : k ≤ 971) :
    ∃ (m' : Nat) (e : Int), Canonical m' e ∧ e ≤ k ∧ (m' * 2 ^ e : ℚ) = m * 2 ^ k := by
  obtain rfl | hpos := Nat.eq_zero_or_pos m
  · exact ⟨0, -1074, ⟨by norm_num, le_rfl, by norm_num, .inr rfl⟩, hle, by simp⟩
  have hlog : m.log2 < 53 := (Nat.log2_lt hpos.ne').mpr hm
  obtain ⟨j, hj⟩ : ∃ j, m.log2 + j = 52 := ⟨52 - m.log2, by omega⟩
  obtain ⟨hfull, hlt⟩ := full_shift hpos hj
  -- Below the least exponent there is no more room for zeros.
  obtain ⟨i, hi⟩ : ∃ i : Nat, (i : Int) = min (j : Int) (k + 1074) := ⟨_, Int.toNat_of_nonneg (by omega)⟩
  have hij : m * 2 ^ i ≤ m * 2 ^ j := by
    gcongr
    · norm_num
    · omega
  refine ⟨m * 2 ^ i, k - i, ⟨hij.trans_lt hlt, by omega, by omega, ?_⟩, by omega, ?_⟩
  · obtain hleast | hroom := le_total (k + 1074) (j : Int)
    · exact .inr (by omega)
    · obtain rfl : i = j := by omega
      exact .inl hfull
  · rw [zpow_sub₀ two_ne_zero, zpow_natCast]
    push_cast
    field_simp

/-- A whole number that fits keeps its value when it is made real. -/
theorem isNat_ofNat {n : Nat} (h : FitsReal n) : (Binary.ofFloat (Float.ofNat n)).IsNat n := by
  obtain rfl | hn := Nat.eq_zero_or_pos n
  · decide +kernel
  obtain ⟨m, k, hm, hk, heq⟩ := h
  rw [Int.natAbs_natCast] at heq
  obtain ⟨m', e, hcanonical, -, hvalue⟩ :=
    exists_canonical_eq (k := k) hm (by omega) (by exact_mod_cast hk)
  have hvalue : (m' * 2 ^ e : ℚ) = n := by
    rw [hvalue, heq, zpow_natCast]
    push_cast
    rfl
  have hnear : Nearest m' e (n * 10 ^ (if false then -(0 : Nat) else (0 : Nat) : Int)) := by
    convert Nearest.exact m' e using 1
    rw [hvalue]
    simp
  change (Binary.ofFloat (Float.ofScientific n false 0)).IsNat n
  rw [ofFloat_ofScientific hn hcanonical hnear]
  refine ⟨rfl, ?_⟩
  rw [zpow_eq_div, ← mul_div_assoc, div_eq_iff (by positivity)] at hvalue
  exact_mod_cast hvalue

theorem ofFloat_ofInt {n : Int} (h : FitsReal n) :
    ∃ (m : Nat) (e : Int), Binary.ofFloat (Float.ofInt n) = .finite (decide (n < 0)) m e ∧
      m * 2 ^ e.toNat = n.natAbs * 2 ^ (-e).toNat := by
  have hnat := isNat_ofNat (n := n.natAbs) h
  obtain ⟨m, e, hm, heq⟩ : ∃ m e, Binary.ofFloat (Float.ofNat n.natAbs) = .finite false m e ∧
      m * 2 ^ e.toNat = n.natAbs * 2 ^ (-e).toNat := by
    generalize Binary.ofFloat (Float.ofNat n.natAbs) = b at hnat
    cases b with
    | finite negative m e => exact ⟨m, e, by rw [hnat.1], hnat.2⟩
    | infinite _ => exact hnat.elim
    | notANumber => exact hnat.elim
  refine ⟨m, e, ?_, heq⟩
  cases n with
  | ofNat n =>
      rw [decide_eq_false (show ¬Int.ofNat n < 0 from (Int.natCast_nonneg n).not_gt)]
      exact hm
  | negSucc n =>
      rw [decide_eq_true (Int.negSucc_lt_zero n)]
      exact (ofFloat_neg _).trans (congrArg Binary.opposite hm)

theorem wholePart?_ofInt {n : Int} (h : FitsReal n) : wholePart? (Float.ofInt n) = some n := by
  obtain ⟨m, e, heq, hvalue⟩ := ofFloat_ofInt h
  simp only [wholePart?, heq, fraction, Nat.pow_eq, hvalue]
  rw [Nat.mul_div_cancel _ (by positivity)]
  split_ifs with hneg
  all_goals
    rw [decide_eq_true_eq] at hneg
    rw [Int.ofNat_eq_natCast, Option.some.injEq]
    omega

theorem isInf_ofInt {n : Int} (h : FitsReal n) : (Float.ofInt n).isInf = false := by
  obtain ⟨m, e, heq, -⟩ := ofFloat_ofInt h
  exact isInf_of_finite heq

theorem isNumber_ofInt {n : Int} (h : FitsReal n) : RealOrder.IsNumber (Float.ofInt n) := by
  obtain ⟨m, e, heq, -⟩ := ofFloat_ofInt h
  rw [RealOrder.isNumber_iff, unpack_toModel, heq, Binary.unpacked]
  split <;> simp

/-- A real number has a whole part unless it is infinite or no number at all. -/
theorem wholePart?_eq_none {x : Float} : wholePart? x = none ↔ x.isNaN = true ∨ x.isInf = true := by
  rw [isNaN_iff, isInf_iff, wholePart?]
  cases Binary.ofFloat x with
  | finite negative m e => simp
  | infinite negative => simp
  | notANumber => simp

end Wayfare.Decimal
