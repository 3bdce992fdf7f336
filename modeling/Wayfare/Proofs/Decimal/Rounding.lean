import Mathlib
import Wayfare.Proofs.Decimal.Bits

/-! # Rounding to the nearest real number

The arithmetic of real numbers cuts a quotient off after some bits, keeps what
is needed to round it in two further bits, and rounds twice when the first
rounding carries into a new bit. The outcome is the real number nearest to the
quotient, a half going to the even neighbour.
-/

namespace Wayfare.Decimal

open Float.Model Float.Model.UnpackedFloat

/-- Among the numbers with a mantissa and an exponent, this one is nearest to a value; halfway to a
neighbour it is the even one. Below a power of two the neighbour is only half as far away, unless the
exponent is the least. -/
structure Nearest (m : Nat) (e : Int) (v : ℚ) : Prop where
  le_value : (m - 1 / 2 : ℚ) * 2 ^ e ≤ v
  value_le : v ≤ (m + 1 / 2 : ℚ) * 2 ^ e
  even_of_eq : v = (m - 1 / 2 : ℚ) * 2 ^ e ∨ v = (m + 1 / 2 : ℚ) * 2 ^ e → m % 2 = 0
  le_value_of_power : m = 2 ^ 52 → -1074 < e → (m - 1 / 4 : ℚ) * 2 ^ e ≤ v

theorem Nearest.exact (m : Nat) (e : Int) : Nearest m e (m * 2 ^ e) := by
  have he : (0 : ℚ) < 2 ^ e := by positivity
  refine ⟨?_, ?_, ?_, fun _ _ => ?_⟩
  · linarith
  · linarith
  · rintro (h | h) <;> linarith
  · linarith

/-- A value may be compared with the mantissa in units of the exponent. -/
theorem nearest_iff {m : Nat} {e : Int} {r : ℚ} : Nearest m e (r * 2 ^ e) ↔
    (m : ℚ) - 1 / 2 ≤ r ∧ r ≤ m + 1 / 2 ∧ (r = m - 1 / 2 ∨ r = m + 1 / 2 → m % 2 = 0) ∧
      (m = 2 ^ 52 → -1074 < e → (m : ℚ) - 1 / 4 ≤ r) := by
  have he : (0 : ℚ) < 2 ^ e := by positivity
  have hle {a b : ℚ} : a * 2 ^ e ≤ b * 2 ^ e ↔ a ≤ b := mul_le_mul_iff_left₀ he
  have heq {a b : ℚ} : a * 2 ^ e = b * 2 ^ e ↔ a = b := mul_left_inj' he.ne'
  constructor
  · rintro ⟨h₁, h₂, h₃, h₄⟩
    rw [hle] at h₁ h₂
    rw [heq, heq] at h₃
    exact ⟨h₁, h₂, h₃, fun hm he => hle.mp (h₄ hm he)⟩
  · rintro ⟨h₁, h₂, h₃, h₄⟩
    refine ⟨hle.mpr h₁, hle.mpr h₂, ?_, fun hm he => hle.mpr (h₄ hm he)⟩
    rwa [heq, heq]

/-! ## Rounding a quotient -/

theorem roundDiv_eq {n d m : Nat} (hd : 0 < d) (hle : 2 * m * d ≤ 2 * n + d)
    (hge : 2 * n ≤ 2 * m * d + d)
    (heven : 2 * m * d = 2 * n + d ∨ 2 * n = 2 * m * d + d → m % 2 = 0) : roundDiv n d = m := by
  have hn : d * (n / d) + n % d = n := Nat.div_add_mod n d
  have hr : n % d < d := Nat.mod_lt n hd
  simp only [roundDiv]
  generalize n / d = q at *
  generalize n % d = r at *
  subst hn
  have hqm : q ≤ m := by
    by_contra h
    nlinarith
  have hmq : m ≤ q + 1 := by
    by_contra h
    nlinarith
  obtain rfl | rfl : m = q ∨ m = q + 1 := by omega
  · have : 2 * r ≤ d := by nlinarith
    split_ifs with h h' <;> grind
  · have : d ≤ 2 * r := by nlinarith
    split_ifs with h h' <;> grind

theorem Nearest.roundDiv_eq {m n d : Nat} {e : Int} (hd : 0 < d)
    (h : Nearest m e (n / d * 2 ^ e)) : roundDiv n d = m := by
  have hd' : (0 : ℚ) < d := by positivity
  obtain ⟨hle, hge, heven, -⟩ := nearest_iff.mp h
  rw [le_div_iff₀ hd'] at hle
  rw [div_le_iff₀ hd'] at hge
  rw [div_eq_iff hd'.ne', div_eq_iff hd'.ne'] at heven
  refine Decimal.roundDiv_eq hd ?_ ?_ fun htie => heven (htie.imp (fun h => ?_) fun h => ?_)
  · exact_mod_cast (by linarith : (2 * m * d : ℚ) ≤ 2 * n + d)
  · exact_mod_cast (by linarith : (2 * n : ℚ) ≤ 2 * m * d + d)
  · have : (2 * m * d : ℚ) = 2 * n + d := mod_cast h
    linarith
  · have : (2 * n : ℚ) = 2 * m * d + d := mod_cast h
    linarith

/-! ## The bits that are kept -/

/-- A mantissa is a quotient cut off, and the bits kept with it say whether the rest is at least a half
and whether there is more. -/
structure Represents (n d : Nat) (em : ExtendedMantissa) : Prop where
  mantissa : em.mantissa = n / d
  roundBit : em.roundBit = decide (d ≤ 2 * (n % d))
  stickyBit : em.stickyBit = decide (2 * (n % d) % d ≠ 0)

namespace Represents

variable {n d : Nat} {em : ExtendedMantissa}

theorem shiftRightOne (hd : 0 < d) (h : Represents n d em) :
    Represents n (d * 2) em.shiftRightOne where
  mantissa := by rw [ExtendedMantissa.shiftRightOne, h.mantissa, Nat.div_div_eq_div_mul]
  roundBit := by
    have hmod : n % (d * 2) = n % d + d * (n / d % 2) := Nat.mod_mul
    have hr : n % d < d := Nat.mod_lt n hd
    rw [ExtendedMantissa.shiftRightOne, h.mantissa, hmod]
    obtain hbit | hbit := Nat.mod_two_eq_zero_or_one (n / d) <;> rw [hbit]
    · exact (decide_eq_false (by omega)).symm
    · exact (decide_eq_true (by omega)).symm
  stickyBit := by
    have hmod : 2 * (n % (d * 2)) % (d * 2) = 2 * (n % d) := by
      rw [mul_comm d, Nat.mul_mod_mul_left, Nat.mod_mul_left_mod]
    rw [ExtendedMantissa.shiftRightOne, h.roundBit, h.stickyBit, hmod, ← Bool.decide_or]
    refine decide_eq_decide.mpr ⟨?_, fun h => ?_⟩
    · rintro (h | h) hzero
      · omega
      · rw [hzero, Nat.zero_mod] at h
        exact h rfl
    · by_contra! hsmall
      rw [Nat.mod_eq_of_lt hsmall.1] at hsmall
      exact h hsmall.2

theorem shiftRight (hd : 0 < d) (h : Represents n d em) (k : Nat) :
    Represents n (d * 2 ^ k) (em >>> k) := by
  induction k with
  | zero => rwa [pow_zero, mul_one]
  | succ k ih =>
      rw [pow_succ, ← mul_assoc]
      exact ih.shiftRightOne (by positivity)

theorem roundedMantissa (hd : 0 < d) (h : Represents n d em) :
    em.roundedMantissa = roundDiv n d := by
  have hr : n % d < d := Nat.mod_lt n hd
  obtain ⟨m, b, s⟩ := em
  obtain ⟨rfl, rfl, rfl⟩ := h
  simp only [ExtendedMantissa.roundedMantissa, roundDiv]
  obtain hlt | heq | hgt := Nat.lt_trichotomy (2 * (n % d)) d
  · rw [if_pos hlt, decide_eq_false (by omega), Nat.mod_eq_of_lt hlt]
    by_cases hzero : 2 * (n % d) = 0
    · rw [decide_eq_false (by omega)]
      rfl
    · rw [decide_eq_true hzero]
      rfl
  · rw [if_neg (by omega), if_neg (by omega), heq, Nat.mod_self, decide_eq_true le_rfl]
    rfl
  · have hmod : 2 * (n % d) % d = 2 * (n % d) - d := by
      rw [Nat.mod_eq_sub_mod hgt.le, Nat.mod_eq_of_lt (by omega)]
    rw [if_neg (by omega), if_pos hgt, decide_eq_true hgt.le, hmod, decide_eq_true (by omega)]
    rfl

end Represents

theorem represents_exact (m : Nat) : Represents m 1 (.ofMantissaAndAccuracy m .exact) := by
  constructor <;> simp [ExtendedMantissa.ofMantissaAndAccuracy, Nat.mod_one]

theorem represents_fraction (n : Nat) {d : Nat} (hd : 0 < d) :
    Represents n d (.ofMantissaAndAccuracy (n / d) (accuracyOfFraction (n % d) d)) := by
  have hr : n % d < d := Nat.mod_lt n hd
  unfold accuracyOfFraction
  split_ifs with hzero
  · constructor <;> simp [ExtendedMantissa.ofMantissaAndAccuracy, hzero, hd.ne']
  · obtain hlt | heq | hgt := Nat.lt_trichotomy (2 * (n % d)) d
    · rw [Nat.compare_eq_lt.mpr hlt]
      constructor
      · rfl
      · exact (decide_eq_false (by omega)).symm
      · rw [Nat.mod_eq_of_lt hlt]
        exact (decide_eq_true (by omega)).symm
    · rw [Nat.compare_eq_eq.mpr heq]
      constructor
      · rfl
      · exact (decide_eq_true heq.ge).symm
      · rw [heq, Nat.mod_self]
        rfl
    · rw [Nat.compare_eq_gt.mpr hgt]
      constructor
      · rfl
      · exact (decide_eq_true hgt.le).symm
      · rw [Nat.mod_eq_sub_mod hgt.le, Nat.mod_eq_of_lt (by omega)]
        exact (decide_eq_true (by omega)).symm

/-! ## The exponent that is rounded to -/

theorem targetExponent_eq (total : Int) :
    Format.binary64.targetExponent total = max (total - 53) (-1074) :=
  rfl

theorem targetExponent_of_canonical {m : Nat} {e : Int} (h : Canonical m e) :
    Format.binary64.targetExponent (totalExponent m e) = e := by
  obtain ⟨hlt, hle, -, hfull⟩ := h
  rw [targetExponent_eq, totalExponent]
  by_cases hnormal : 2 ^ 52 ≤ m
  · have hlog : m.log2 = 52 := (Nat.log2_eq_iff (by omega)).mpr ⟨hnormal, hlt⟩
    omega
  · obtain rfl : e = -1074 := by omega
    by_cases hzero : m = 0
    · subst hzero
      rfl
    · have hlog : m.log2 < 52 := (Nat.log2_lt hzero).mpr (by omega)
      omega

/-- The size of a value that is cut off to a mantissa. -/
theorem value_lt_totalExponent {M : Nat} {E : Int} {v : ℚ} (h : v < (M + 1 : ℚ) * 2 ^ E) :
    v < 2 ^ totalExponent M E := by
  have hM : (M + 1 : ℚ) ≤ 2 ^ (M.log2 + 1) := mod_cast Nat.lt_log2_self
  calc v < (M + 1) * 2 ^ E := h
    _ ≤ 2 ^ (M.log2 + 1) * 2 ^ E := by gcongr
    _ = 2 ^ totalExponent M E := by
      rw [totalExponent, zpow_add₀ two_ne_zero]
      norm_cast

theorem totalExponent_le_value {M : Nat} {E : Int} {v : ℚ} (hM : M ≠ 0) (h : (M : ℚ) * 2 ^ E ≤ v) :
    2 ^ (totalExponent M E - 1) ≤ v := by
  have hlog : (2 ^ M.log2 : ℚ) ≤ M := mod_cast Nat.log2_self_le hM
  calc (2 : ℚ) ^ (totalExponent M E - 1) = 2 ^ M.log2 * 2 ^ E := by
        rw [totalExponent, show (M.log2 + 1 + E - 1 : Int) = M.log2 + E by ring,
          zpow_add₀ two_ne_zero, zpow_natCast]
    _ ≤ M * 2 ^ E := by gcongr
    _ ≤ v := h

/-- The size of a value that is nearest to a number. -/
theorem Nearest.value_lt {m : Nat} {e : Int} {v : ℚ} (h : Nearest m e v) (hm : m < 2 ^ 53) :
    v < 2 ^ (53 + e) := by
  have hm' : (m + 1 : ℚ) ≤ 2 ^ 53 := mod_cast hm
  have he : (0 : ℚ) < 2 ^ e := by positivity
  calc v ≤ (m + 1 / 2) * 2 ^ e := h.value_le
    _ < (m + 1) * 2 ^ e := by gcongr; norm_num
    _ ≤ 2 ^ 53 * 2 ^ e := by gcongr
    _ = 2 ^ (53 + e) := by rw [zpow_add₀ two_ne_zero]; norm_cast

/-- The exponent that the size of a value asks for is that of the nearest number, unless the value is
so little below a power of two that it is rounded up to it. -/
theorem target_of_nearest {m M : Nat} {e E : Int} {v : ℚ} (hcanonical : Canonical m e)
    (hnear : Nearest m e v) (hle : (M : ℚ) * 2 ^ E ≤ v) (hlt : v < (M + 1 : ℚ) * 2 ^ E)
    (hprecise : 2 ^ 52 ≤ M ∨ E ≤ -1074) :
    Format.binary64.targetExponent (totalExponent M E) = e ∨
      Format.binary64.targetExponent (totalExponent M E) = e - 1 ∧ m = 2 ^ 52 ∧ -1074 < e ∧
        v < m * 2 ^ e := by
  have hle_e := hcanonical.le_exponent
  rw [targetExponent_eq]
  have hupper : max (totalExponent M E - 53) (-1074) ≤ e := by
    refine max_le ?_ hle_e
    by_cases hM : M = 0
    · subst hM
      have : totalExponent 0 E = 1 + E := rfl
      omega
    · have := (zpow_lt_zpow_iff_right₀ one_lt_two).mp
        ((totalExponent_le_value hM hle).trans_lt (hnear.value_lt hcanonical.mantissa_lt))
      omega
  by_cases hleast : e = -1074
  · exact .inl (le_antisymm hupper (hleast ▸ le_max_right _ _))
  have hfull : 2 ^ 52 ≤ m := hcanonical.full.resolve_right hleast
  have he : (0 : ℚ) < 2 ^ e := by positivity
  by_cases hpower : 2 ^ 52 * 2 ^ e ≤ v
  · have hsize : (2 : ℚ) ^ (52 + e) < 2 ^ totalExponent M E := by
      rw [zpow_add₀ two_ne_zero]
      exact (mod_cast hpower : _ ≤ v).trans_lt (value_lt_totalExponent hlt)
    have := (zpow_lt_zpow_iff_right₀ one_lt_two).mp hsize
    exact .inl (by omega)
  · rw [not_le] at hpower
    have hm : m = 2 ^ 52 := by
      by_contra hne
      have : (2 ^ 52 + 1 : ℚ) ≤ m := mod_cast (by omega : 2 ^ 52 + 1 ≤ m)
      nlinarith [hnear.le_value]
    have hsize : (2 : ℚ) ^ (51 + e) < 2 ^ totalExponent M E := by
      refine lt_of_le_of_lt ?_ (value_lt_totalExponent hlt)
      rw [zpow_add₀ two_ne_zero]
      have := hnear.le_value_of_power hm (by omega)
      rw [hm] at this
      push_cast at this
      norm_num at this ⊢
      linarith
    have := (zpow_lt_zpow_iff_right₀ one_lt_two).mp hsize
    have hor : max (totalExponent M E - 53) (-1074) = e ∨
        max (totalExponent M E - 53) (-1074) = e - 1 := by omega
    refine hor.imp_right fun h => ⟨h, hm, by omega, ?_⟩
    rw [hm]
    exact_mod_cast hpower

/-- The second shift leaves the mantissa of a number alone. -/
theorem shift_of_canonical {m : Nat} {e : Int} (h : Canonical m e) :
    ∃ em, shiftToTargetExponent .binary64 m e .exact = (em, e) ∧ em.mantissa = m := by
  refine ⟨_, Prod.ext rfl ?_, ?_⟩
  · simp only [shiftToTargetExponent, shiftToExponent, targetExponent_of_canonical h]
    omega
  · simp only [shiftToTargetExponent, shiftToExponent, targetExponent_of_canonical h, sub_self]
    rfl

/-- The second shift takes back a rounding that carried into a new bit. -/
theorem shift_of_carry {e : Int} (h : -1074 < e) :
    ∃ em, shiftToTargetExponent .binary64 (2 ^ 53) (e - 1) .exact = (em, e) ∧
      em.mantissa = 2 ^ 52 := by
  have htarget : Format.binary64.targetExponent (totalExponent (2 ^ 53) (e - 1)) = e := by
    have hlog : (2 ^ 53 : Nat).log2 = 53 := Nat.log2_two_pow
    rw [targetExponent_eq, totalExponent, hlog]
    omega
  have hshift : (e - (e - 1)).toNat = 1 := by omega
  refine ⟨_, Prod.ext rfl ?_, ?_⟩
  · simp only [shiftToTargetExponent, shiftToExponent, htarget, hshift]
    omega
  · simp only [shiftToTargetExponent, shiftToExponent, htarget, hshift]
    rfl

/-- A value rounded up to a power of two is nearest to twice its mantissa with the exponent before. -/
theorem Nearest.carry {e : Int} {v : ℚ} (h : Nearest (2 ^ 52) e v) (he : -1074 < e)
    (hlt : v < (2 ^ 52 : Nat) * 2 ^ e) : Nearest (2 ^ 53) (e - 1) v := by
  have hpos : (0 : ℚ) < 2 ^ (e - 1) := by positivity
  have hdouble : (2 : ℚ) ^ e = 2 * 2 ^ (e - 1) := by
    rw [← zpow_one_add₀ two_ne_zero, add_sub_cancel]
  have hle := h.le_value_of_power rfl he
  rw [hdouble] at hle hlt
  push_cast at hle hlt
  refine ⟨?_, ?_, fun _ => rfl, fun h => absurd h (by norm_num)⟩ <;> push_cast <;> linarith

/-- Rounding a quotient gives the number nearest to it. -/
theorem roundWithAccuracy_nearest {m M n d : Nat} {e E : Int} {acc : Accuracy}
    (hcanonical : Canonical m e) (hd : 0 < d)
    (hrepresents : Represents n d (.ofMantissaAndAccuracy M acc))
    (hprecise : 2 ^ 52 ≤ M ∨ E ≤ -1074) (hnear : Nearest m e (n / d * 2 ^ E)) (negative : Bool) :
    roundWithAccuracy .binary64 (signOf negative) M E acc = (Binary.finite negative m e).unpacked := by
  have hM : M = n / d := by
    rw [← hrepresents.mantissa]
    cases acc with
    | exact => rfl
    | inexact o => cases o <;> rfl
  have hd' : (0 : ℚ) < d := mod_cast hd
  have htarget := target_of_nearest (M := M) hcanonical hnear
    (by rw [hM]; gcongr; exact Nat.cast_div_le)
    (by
      rw [hM]
      gcongr
      rw [div_lt_iff₀ hd']
      exact_mod_cast Nat.lt_mul_of_div_lt (Nat.lt_succ_self _) hd)
    hprecise
  obtain ⟨k, hk⟩ : ∃ k : Nat, Format.binary64.targetExponent (totalExponent M E) = E + k := by
    have hle : E ≤ Format.binary64.targetExponent (totalExponent M E) := by
      rw [targetExponent_eq, totalExponent]
      obtain hfull | hleast := hprecise
      · have hlog : 52 ≤ M.log2 := (Nat.le_log2 (by omega)).mpr hfull
        omega
      · omega
    exact ⟨_, (add_sub_cancel E _).symm.trans (by rw [Int.toNat_of_nonneg (sub_nonneg.mpr hle)])⟩
  have hfirst : shiftToTargetExponent .binary64 M E acc =
      (ExtendedMantissa.ofMantissaAndAccuracy M acc >>> k, E + k) := by
    simp [shiftToTargetExponent, shiftToExponent, hk]
  have hrounded := (hrepresents.shiftRight hd k).roundedMantissa (by positivity)
  have hvalue : (n / d * 2 ^ E : ℚ) = n / (d * 2 ^ k : Nat) * 2 ^ (E + k) := by
    rw [zpow_add₀ two_ne_zero, zpow_natCast]
    push_cast
    field_simp
  have hsecond : ∃ em, shiftToTargetExponent .binary64 (roundDiv n (d * 2 ^ k)) (E + k) .exact =
      (em, e) ∧ em.mantissa = m := by
    rw [hk] at htarget
    rw [hvalue] at hnear htarget
    obtain htarget | ⟨htarget, rfl, he, hlt⟩ := htarget
    · rw [htarget] at hnear ⊢
      rw [hnear.roundDiv_eq (by positivity)]
      exact shift_of_canonical hcanonical
    · have hcarry := hnear.carry he hlt
      rw [htarget] at hcarry ⊢
      rw [hcarry.roundDiv_eq (by positivity)]
      exact shift_of_carry he
  obtain ⟨em, hsecond, hm⟩ := hsecond
  simp only [roundWithAccuracy, hfirst, hrounded, hsecond, hm]
  rfl

end Wayfare.Decimal
