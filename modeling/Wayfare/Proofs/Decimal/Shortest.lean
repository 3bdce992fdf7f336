import Mathlib
import Wayfare.Decimal.Shortest
import Wayfare.Proofs.Decimal.Conversion

/-! # The shortest decimal of a real number

The decimal that is found for a real number lies nearer to it than to any other,
so that it reads back as the number. One is found in time: seventeen digits make
a grid that is finer than the distance to the midpoints.
-/

namespace Wayfare.Decimal

open Float.Model

/-- What a decimal stands for. -/
def Scientific.value (d : Scientific) : ℚ :=
  d.digits * 10 ^ d.exponent

variable {m : Nat} {e : Int}

/-! ## Decimals that read back -/

/-- A decimal in units of a power of two. -/
def Scientific.inUnits (e : Int) (d : Scientific) : ℚ :=
  d.digits * (10 ^ d.exponent.toNat * 2 ^ (-e).toNat) / (10 ^ (-d.exponent).toNat * 2 ^ e.toNat)

theorem Scientific.value_eq (e : Int) (d : Scientific) : d.value = d.inUnits e * 2 ^ e := by
  rw [value, inUnits, zpow_eq_div 10, zpow_eq_div 2 e]
  field_simp

/-- The midpoint below a number, in units of its power of two. -/
def lowBound (m : Nat) (e : Int) : ℚ :=
  if m = 2 ^ 52 ∧ -1074 < e then m - 1 / 4 else m - 1 / 2

theorem lowBound_lt (m : Nat) (e : Int) : lowBound m e < m := by
  unfold lowBound
  split_ifs <;> linarith

theorem lowBound_pos (hm : 0 < m) (e : Int) : 0 < lowBound m e := by
  have hm' : (1 : ℚ) ≤ m := mod_cast hm
  unfold lowBound
  split_ifs <;> linarith

/-- A decimal reads back if it lies between the midpoints; they count themselves when the mantissa is
even. -/
theorem readsBack_iff {d : Scientific} (hm : 0 < m) : readsBack m e d = true ↔
    if m % 2 = 0 then lowBound m e ≤ d.inUnits e ∧ d.inUnits e ≤ m + 1 / 2
    else lowBound m e < d.inUnits e ∧ d.inUnits e < m + 1 / 2 := by
  obtain ⟨up, hup⟩ : ∃ up, up = 10 ^ d.exponent.toNat * 2 ^ (-e).toNat := ⟨_, rfl⟩
  obtain ⟨down, hdown⟩ : ∃ down, down = 10 ^ (-d.exponent).toNat * 2 ^ e.toNat := ⟨_, rfl⟩
  have hpos : (0 : ℚ) < down := by
    rw [hdown]
    positivity
  have hunits : d.inUnits e = d.digits * up / down := by
    rw [Scientific.inUnits, hup, hdown]
    push_cast
    rfl
  -- Four times the midpoint below is a whole number of the smaller units.
  obtain ⟨low, hlow, hbound⟩ : ∃ low, (if (m == 2 ^ 52 && decide (e > -1074)) = true then
      (4 * m - 1) * down else (4 * m - 2) * down) = low ∧
        (low : ℚ) = 4 * (lowBound m e * down) := by
    refine ⟨_, rfl, ?_⟩
    simp only [lowBound, Bool.and_eq_true, beq_iff_eq, decide_eq_true_eq, gt_iff_lt]
    split_ifs
    · rw [Nat.cast_mul, Nat.cast_sub (by omega)]
      push_cast
      ring
    · rw [Nat.cast_mul, Nat.cast_sub (by omega)]
      push_cast
      ring
  have hle : low ≤ 4 * d.digits * up ↔ lowBound m e * down ≤ d.digits * up := by
    rw [← Nat.cast_le (α := ℚ), hbound, Nat.cast_mul, Nat.cast_mul, mul_assoc]
    exact mul_le_mul_iff_right₀ (by norm_num)
  have hlt : low < 4 * d.digits * up ↔ lowBound m e * down < d.digits * up := by
    rw [← Nat.cast_lt (α := ℚ), hbound, Nat.cast_mul, Nat.cast_mul, mul_assoc]
    exact mul_lt_mul_iff_right₀ (by norm_num)
  have hge : 4 * d.digits * up ≤ (4 * m + 2) * down ↔ d.digits * up ≤ (m + 1 / 2 : ℚ) * down := by
    rw [← Nat.cast_le (α := ℚ)]
    push_cast
    constructor <;> intro h <;> linarith
  have hgt : 4 * d.digits * up < (4 * m + 2) * down ↔ d.digits * up < (m + 1 / 2 : ℚ) * down := by
    rw [← Nat.cast_lt (α := ℚ)]
    push_cast
    constructor <;> intro h <;> linarith
  simp only [readsBack, Nat.pow_eq, ← hup, ← hdown, hlow, hunits, le_div_iff₀ hpos,
    div_le_iff₀ hpos, lt_div_iff₀ hpos, div_lt_iff₀ hpos, ← hle, ← hlt, ← hge, ← hgt]
  by_cases heven : m % 2 = 0
  · simp [heven]
  · simp [heven]

theorem nearest_of_readsBack {d : Scientific} (hm : 0 < m) (h : readsBack m e d = true) :
    Nearest m e d.value := by
  rw [readsBack_iff hm] at h
  rw [d.value_eq e, nearest_iff]
  generalize d.inUnits e = r at *
  have hlow : (m - 1 / 2 : ℚ) ≤ lowBound m e := by
    unfold lowBound
    split_ifs <;> linarith
  have hpower (hm : m = 2 ^ 52) (he : -1074 < e) : lowBound m e = (m - 1 / 4 : ℚ) :=
    if_pos ⟨hm, he⟩
  split_ifs at h with heven
  · exact ⟨hlow.trans h.1, h.2, fun _ => heven, fun hm he => (hpower hm he).symm.trans_le h.1⟩
  · refine ⟨hlow.trans h.1.le, h.2.le, ?_, fun hm he => (hpower hm he).symm.trans_le h.1.le⟩
    rintro (rfl | rfl) <;> linarith

theorem readsBack_of_between {d : Scientific} (hm : 0 < m) (hlow : m * 2 ^ e < d.value)
    (hhigh : d.value < (m + 1 / 2 : ℚ) * 2 ^ e) : readsBack m e d = true := by
  have he : (0 : ℚ) < 2 ^ e := by positivity
  rw [d.value_eq e, mul_lt_mul_iff_left₀ he] at hlow hhigh
  have hlow := (lowBound_lt m e).trans hlow
  rw [readsBack_iff hm]
  split_ifs
  · exact ⟨hlow.le, hhigh.le⟩
  · exact ⟨hlow, hhigh⟩

theorem digits_pos_of_readsBack {d : Scientific} (hm : 0 < m) (h : readsBack m e d = true) :
    0 < d.digits := by
  rw [Nat.pos_iff_ne_zero]
  intro hzero
  have hunits : d.inUnits e = 0 := by rw [Scientific.inUnits, hzero, Nat.cast_zero, zero_mul, zero_div]
  have := lowBound_pos hm e
  rw [readsBack_iff hm, hunits] at h
  split_ifs at h <;> linarith

/-! ## Grids -/

theorem readsBack_of_onGrid {x : Int} {d : Scientific} (h : onGrid m e x = some d) :
    readsBack m e d = true := by
  simp only [onGrid] at h
  split_ifs at h with hbelow hfirst hsecond hfirst hsecond
  all_goals cases h
  · exact hfirst
  · exact hsecond
  · exact hfirst
  · exact hsecond

/-- On a grid fine enough the decimal above a number is not beyond the midpoint. -/
theorem exists_onGrid {x : Int} (hm : 0 < m) (h : 2 * (10 : ℚ) ^ x < 2 ^ e) :
    ∃ d, onGrid m e x = some d := by
  have hx : (0 : ℚ) < 10 ^ x := by positivity
  obtain ⟨n, hn⟩ : ∃ n, n = m * 2 ^ e.toNat * 10 ^ (-x).toNat := ⟨_, rfl⟩
  obtain ⟨d, hd⟩ : ∃ d, d = 2 ^ (-e).toNat * 10 ^ x.toNat := ⟨_, rfl⟩
  have hpos : 0 < d := by
    rw [hd]
    positivity
  have hvalue : (n / d * 10 ^ x : ℚ) = m * 2 ^ e := by
    rw [hn, hd, zpow_eq_div 10 x, zpow_eq_div 2 e]
    push_cast
    field_simp
  have hfloor : ((n / d : Nat) : ℚ) ≤ n / d := Nat.cast_div_le
  have hceiling : (n / d : ℚ) < (n / d : Nat) + 1 := by
    rw [div_lt_iff₀ (by positivity)]
    exact_mod_cast Nat.lt_mul_of_div_lt (Nat.lt_succ_self _) hpos
  have habove : readsBack m e ⟨n / d + 1, x⟩ = true := by
    refine readsBack_of_between hm ?_ ?_ <;> rw [Scientific.value] <;> push_cast <;> nlinarith
  simp only [onGrid, fraction, Nat.pow_eq, ← hn, ← hd]
  split_ifs <;> simp_all

theorem readsBack_searchGrids {x : Int} {tries : Nat} (hm : 0 < m)
    (h : ∃ k < tries, 2 * (10 : ℚ) ^ (x - k) < 2 ^ e) :
    readsBack m e (searchGrids m e x tries) = true := by
  induction tries generalizing x with
  | zero =>
      obtain ⟨k, hk, -⟩ := h
      omega
  | succ tries ih =>
      rw [searchGrids]
      split
      next d hd => exact readsBack_of_onGrid hd
      next hnone =>
        obtain ⟨k, hk, hfine⟩ := h
        cases k with
        | zero =>
            obtain ⟨d, hd⟩ := exists_onGrid hm (by simpa using hfine)
            rw [hd] at hnone
            cases hnone
        | succ k =>
            refine ih ⟨k, by omega, ?_⟩
            rwa [show x - 1 - k = x - (k + 1 : Nat) by push_cast; ring]

/-! ## The leading digit -/

theorem powerBelow_le {num den : Nat} (hden : 0 < den) {low : Int}
    (h : (10 : ℚ) ^ low ≤ num / den) (tries : Nat) :
    (10 : ℚ) ^ powerBelow num den low tries ≤ num / den := by
  induction tries generalizing low with
  | zero => exact h
  | succ tries ih =>
      simp only [powerBelow, Nat.pow_eq]
      split
      next hnext =>
        refine ih ?_
        rw [zpow_eq_div, div_le_div_iff₀ (by positivity) (by positivity)]
        exact_mod_cast hnext
      next => exact h

/-- An estimate `a / k` of the logarithm of two leads to powers of ten at most one digit too large. -/
theorem ten_zpow_le_of_estimate {a k : Nat} {q x : Int} (hk : k ≠ 0) (hover : (10 : ℚ) ^ a ≤ 2 ^ (k + 1))
    (hunder : (2 : ℚ) ^ k ≤ 10 ^ a) (hx : k * x ≤ a * q) (hq : q ≤ 3 * k) :
    (10 : ℚ) ^ (x - 1) ≤ 2 ^ q := by
  have hten : (1 : ℚ) ≤ 10 ^ k := one_le_pow₀ (by norm_num)
  have hestimate : ((10 : ℚ) ^ a) ^ q ≤ 10 ^ k * (2 ^ k) ^ q := by
    obtain hpos | hneg := le_total 0 q
    · calc ((10 : ℚ) ^ a) ^ q ≤ (2 ^ (k + 1)) ^ q := zpow_le_zpow_left₀ hpos (by positivity) hover
        _ = 2 ^ q * (2 ^ k) ^ q := by rw [pow_succ', mul_zpow]
        _ ≤ 2 ^ (3 * k : Int) * (2 ^ k) ^ q := by
          gcongr
          norm_num
        _ ≤ 10 ^ k * (2 ^ k) ^ q := by
          gcongr
          exact_mod_cast two_zpow_le_ten_zpow (Int.natCast_nonneg k)
    · have := inv_anti₀ (by positivity)
        (zpow_le_zpow_left₀ (neg_nonneg.mpr hneg) (by positivity) hunder)
      rw [zpow_neg, zpow_neg, inv_inv, inv_inv] at this
      exact this.trans (le_mul_of_one_le_left (by positivity) hten)
  refine le_of_pow_le_pow_left₀ hk (by positivity) ?_
  calc ((10 : ℚ) ^ (x - 1)) ^ k = 10 ^ (k * x - k : Int) := by
        rw [← zpow_natCast, ← zpow_mul]
        congr 1
        ring
    _ ≤ 10 ^ (a * q - k : Int) := zpow_le_zpow_right₀ (by norm_num) (by omega)
    _ = ((10 : ℚ) ^ a) ^ q / 10 ^ k := by
        rw [zpow_sub₀ (by norm_num), zpow_mul, zpow_natCast, zpow_natCast]
    _ ≤ (2 ^ k) ^ q := by
        rw [div_le_iff₀ (by positivity), mul_comm]
        exact hestimate
    _ = ((2 : ℚ) ^ q) ^ k := by rw [← zpow_natCast, ← zpow_natCast, zpow_comm]

theorem leadingExponent_le {num den : Nat} (hnum : 0 < num) (hden : 0 < den)
    (hrange : num.log2 ≤ 300000) :
    (10 : ℚ) ^ leadingExponent num den ≤ num / den := by
  have hover : (10 : Nat) ^ 30103 ≤ 2 ^ (100000 + 1) := by decide +kernel
  have hunder : (2 : Nat) ^ 100000 ≤ 10 ^ 30103 := by decide +kernel
  have hestimate := ten_zpow_le_of_estimate (by norm_num) (mod_cast hover) (mod_cast hunder)
    (q := Int.ofNat num.log2 - Int.ofNat den.log2 - 1)
    (x := (Int.ofNat num.log2 - Int.ofNat den.log2 - 1) * 30103 / 100000)
    (by omega) (by simp only [Int.ofNat_eq_natCast]; omega)
  refine powerBelow_le hden (hestimate.trans ?_) 4
  have hlow : (2 : ℚ) ^ num.log2 ≤ num := mod_cast Nat.log2_self_le hnum.ne'
  have hhigh : (den : ℚ) ≤ 2 ^ (den.log2 + 1) := mod_cast Nat.lt_log2_self.le
  rw [Int.ofNat_eq_natCast, Int.ofNat_eq_natCast, sub_sub, zpow_sub₀ two_ne_zero]
  gcongr
  · exact_mod_cast hlow
  · exact_mod_cast hhigh

theorem readsBack_shortestDigits (hcanonical : Canonical m e) (hm : 0 < m) :
    readsBack m e (shortestDigits m e) = true := by
  have hvalue : ((m * 2 ^ e.toNat : Nat) / (2 ^ (-e).toNat : Nat) : ℚ) = m * 2 ^ e := by
    rw [zpow_eq_div 2 e]
    push_cast
    field_simp
  have hlog : (m * 2 ^ e.toNat).log2 ≤ 300000 := by
    have hlt : m * 2 ^ e.toNat < 2 ^ (53 + e.toNat) := by
      rw [pow_add]
      exact Nat.mul_lt_mul_of_pos_right hcanonical.mantissa_lt (by positivity)
    have := (Nat.log2_lt (by positivity)).mpr hlt
    have := hcanonical.exponent_le
    omega
  have hden : 0 < 2 ^ (-e).toNat := by positivity
  have hlead := leadingExponent_le (Nat.mul_pos hm (by positivity)) hden hlog
  rw [hvalue] at hlead
  have hm' : (m : ℚ) < 2 ^ 53 := mod_cast hcanonical.mantissa_lt
  have he : (0 : ℚ) < 2 ^ e := by positivity
  simp only [shortestDigits, fraction, Nat.pow_eq]
  refine readsBack_searchGrids hm ⟨17, by norm_num, ?_⟩
  have hsplit : (10 : ℚ) ^ leadingExponent (m * 2 ^ e.toNat) (2 ^ (-e).toNat) =
      10 ^ (leadingExponent (m * 2 ^ e.toNat) (2 ^ (-e).toNat) - (17 : Nat)) * 10 ^ 17 := by
    rw [← zpow_natCast, ← zpow_add₀ (by norm_num), sub_add_cancel]
  nlinarith

/-! ## Zeros at the end -/

theorem value_trimmed (d : Scientific) (steps : Nat) : (d.trimmed steps).value = d.value := by
  induction steps generalizing d with
  | zero => rfl
  | succ steps ih =>
      rw [Scientific.trimmed]
      split
      next hzero =>
        obtain ⟨hten, -⟩ := Bool.and_eq_true_iff.mp hzero
        have hdigits : (d.digits : ℚ) = 10 * (d.digits / 10 : Nat) := by
          rw [beq_iff_eq] at hten
          exact_mod_cast (by omega : d.digits = 10 * (d.digits / 10))
        rw [ih, Scientific.value, Scientific.value, zpow_add_one₀ (by norm_num), hdigits]
        ring
      next => rfl

theorem digits_trimmed_pos {d : Scientific} (h : 0 < d.digits) (steps : Nat) :
    0 < (d.trimmed steps).digits := by
  induction steps generalizing d with
  | zero => exact h
  | succ steps ih =>
      rw [Scientific.trimmed]
      split
      next hzero =>
        rw [Bool.and_eq_true, beq_iff_eq] at hzero
        exact ih (by change 0 < d.digits / 10; omega)
      next => exact h

end Wayfare.Decimal
