import Mathlib
import Wayfare.Decimal.Numeral
import Wayfare.Proofs.Decimal.Rounding

/-! # Decimals as real numbers

A decimal is turned into a real number by one multiplication or division of
numbers that are exact, so that the outcome is the real number nearest to it. A
whole number that is a real number is turned into just that.
-/

namespace Wayfare.Decimal

open Float.Model Float.Model.UnpackedFloat

variable {m m₁ m₂ : Nat} {e e₁ e₂ : Int}

/-! ## Products and quotients -/

theorem mul_nearest (h₁ : 0 < m₁) (h₂ : 0 < m₂) (hcanonical : Canonical m e)
    (hprecise : 2 ^ 52 ≤ m₁ * m₂ ∨ e₁ + e₂ ≤ -1074)
    (hnear : Nearest m e (m₁ * 2 ^ e₁ * (m₂ * 2 ^ e₂))) :
    UnpackedFloat.mul .binary64 (.finite .positive m₁ e₁ h₁) (.finite .positive m₂ e₂ h₂) =
      (Binary.finite false m e).unpacked := by
  refine roundWithAccuracy_nearest hcanonical one_pos (represents_exact _) hprecise ?_ false
  rw [zpow_add₀ two_ne_zero]
  push_cast
  rwa [div_one, mul_mul_mul_comm]

/-- A quotient is cut off late enough to be rounded once. -/
theorem le_shifted_div {k : Nat} {E : Int} (h₁ : 0 < m₁) (h₂ : 0 < m₂)
    (hE : E = min (e₁ - e₂)
      (Format.binary64.targetExponent (totalExponent m₁ e₁ - totalExponent m₂ e₂)))
    (hk : e₁ - e₂ = E + k) : 2 ^ 52 ≤ m₁ * 2 ^ k / m₂ ∨ E ≤ -1074 := by
  refine or_iff_not_imp_right.mpr fun hlarge => ?_
  rw [targetExponent_eq, totalExponent, totalExponent] at hE
  have hlogs : 52 + (m₂.log2 + 1) ≤ m₁.log2 + k := by omega
  rw [Nat.le_div_iff_mul_le h₂]
  calc 2 ^ 52 * m₂ ≤ 2 ^ 52 * 2 ^ (m₂.log2 + 1) := by gcongr; exact Nat.lt_log2_self.le
    _ = 2 ^ (52 + (m₂.log2 + 1)) := (pow_add ..).symm
    _ ≤ 2 ^ (m₁.log2 + k) := by gcongr; norm_num
    _ = 2 ^ m₁.log2 * 2 ^ k := pow_add ..
    _ ≤ m₁ * 2 ^ k := by gcongr; exact Nat.log2_self_le h₁.ne'

theorem div_nearest (h₁ : 0 < m₁) (h₂ : 0 < m₂) (hcanonical : Canonical m e)
    (hnear : Nearest m e (m₁ * 2 ^ e₁ / (m₂ * 2 ^ e₂))) :
    UnpackedFloat.div .binary64 (.finite .positive m₁ e₁ h₁) (.finite .positive m₂ e₂ h₂) =
      (Binary.finite false m e).unpacked := by
  simp only [UnpackedFloat.div, divCore]
  generalize hE : min (e₁ - e₂) (Format.binary64.targetExponent
    (totalExponent m₁ e₁ - totalExponent m₂ e₂)) = E
  obtain ⟨k, hk⟩ : ∃ k : Nat, e₁ - e₂ = E + k := ⟨(e₁ - e₂ - E).toNat, by omega⟩
  rw [show (e₁ - e₂ - E).toNat = k by omega, Nat.shiftLeft_eq]
  refine roundWithAccuracy_nearest hcanonical h₂ (represents_fraction _ h₂)
    (le_shifted_div h₁ h₂ hE.symm hk) ?_ false
  rw [show E = e₁ - e₂ - k by omega, zpow_sub₀ two_ne_zero, zpow_sub₀ two_ne_zero, zpow_natCast]
  push_cast
  convert hnear using 1
  field_simp

/-! ## Sums -/

/-- A whole number of some units is given enough bits to be rounded once. -/
theorem round_nearest {M : Nat} {E : Int} (hM : 0 < M) (hcanonical : Canonical m e)
    (hnear : Nearest m e (M * 2 ^ E)) (negative : Bool) :
    UnpackedFloat.round .binary64 (signOf negative) M E = (Binary.finite negative m e).unpacked := by
  simp only [UnpackedFloat.round, decreaseExponent, Nat.shiftLeft_eq]
  generalize hk : (E - Format.binary64.targetExponent (totalExponent M E)).toNat = k
  rw [targetExponent_eq, totalExponent] at hk
  refine roundWithAccuracy_nearest hcanonical one_pos (represents_exact _) ?_ ?_ negative
  · refine or_iff_not_imp_right.mpr fun hlarge => ?_
    have hlogs : 52 ≤ M.log2 + k := by omega
    calc 2 ^ 52 ≤ 2 ^ (M.log2 + k) := by gcongr; norm_num
      _ = 2 ^ M.log2 * 2 ^ k := pow_add ..
      _ ≤ M * 2 ^ k := by gcongr; exact Nat.log2_self_le hM.ne'
  · convert hnear using 1
    rw [zpow_sub₀ two_ne_zero, zpow_natCast]
    push_cast
    field_simp

theorem add_nearest (h₁ : 0 < m₁) (h₂ : 0 < m₂) (hcanonical : Canonical m e)
    (hnear : Nearest m e (m₁ * 2 ^ e₁ + m₂ * 2 ^ e₂)) :
    UnpackedFloat.add .binary64 (.finite .positive m₁ e₁ h₁) (.finite .positive m₂ e₂ h₂) =
      (Binary.finite false m e).unpacked := by
  simp only [UnpackedFloat.add, decreaseExponent, Sign.apply, Nat.shiftLeft_eq]
  generalize hE : min e₁ e₂ = E
  generalize hk₁ : (e₁ - E).toNat = k₁
  generalize hk₂ : (e₂ - E).toNat = k₂
  have hpos : 0 < m₁ * 2 ^ k₁ + m₂ * 2 ^ k₂ := by positivity
  have hcompare : compare ((m₁ * 2 ^ k₁ : Nat) + (m₂ * 2 ^ k₂ : Nat) : Int) 0 = .gt :=
    Int.compare_eq_gt.mpr (by omega)
  simp only [UnpackedFloat.normalize, hcompare]
  rw [← Int.natCast_add, Int.toNat_natCast]
  refine round_nearest hpos hcanonical ?_ false
  convert hnear using 1
  rw [show e₁ = E + k₁ by omega, show e₂ = E + k₂ by omega, zpow_add₀ two_ne_zero,
    zpow_add₀ two_ne_zero, zpow_natCast, zpow_natCast]
  push_cast
  ring

/-! ## Whole numbers -/

/-- A number that is a given whole one. -/
def Binary.IsNat (n : Nat) : Binary → Prop
  | finite negative m e => negative = false ∧ m * 2 ^ e.toNat = n * 2 ^ (-e).toNat
  | _ => False

instance (n : Nat) : (b : Binary) → Decidable (b.IsNat n)
  | .finite .. => inferInstanceAs (Decidable (_ ∧ _))
  | .infinite _ | .notANumber => inferInstanceAs (Decidable False)

theorem isNat_powersOfTen : ∀ i : Fin 23,
    (Binary.ofFloat Float.exactlyRepresentablePowersOfTen[i.val]).IsNat (10 ^ i.val) := by
  decide +kernel

/-- A power with a whole exponent as a quotient of two with natural ones. -/
theorem zpow_eq_div (b : ℚ) (e : Int) : b ^ e = b ^ e.toNat / b ^ (-e).toNat := by
  obtain ⟨n, rfl | rfl⟩ := e.eq_nat_or_neg
  · simp
  · simp

theorem value_eq_of_isNat {negative : Bool} {n : Nat} (h : (Binary.finite negative m e).IsNat n) :
    (m * 2 ^ e : ℚ) = n := by
  rw [zpow_eq_div, ← mul_div_assoc, div_eq_iff (by positivity)]
  exact_mod_cast h.2

/-- The arithmetic takes a number that is a given whole one as a mantissa and an exponent. -/
theorem exists_unpacked_of_isNat {x : Float} {n : Nat} (hn : 0 < n) (h : (Binary.ofFloat x).IsNat n) :
    ∃ (m : Nat) (e : Int) (hm : 0 < m), x.toModel.unpack = .finite .positive m e hm ∧ 2 ^ 52 ≤ m ∧
      (m * 2 ^ e : ℚ) = n := by
  have hcanonical := isCanonical_ofFloat x
  rw [unpack_toModel]
  generalize Binary.ofFloat x = b at *
  cases b with
  | infinite _ => exact h.elim
  | notANumber => exact h.elim
  | finite negative m e =>
      obtain ⟨hlt, -, -, hfull⟩ := hcanonical
      have hvalue := value_eq_of_isNat h
      obtain ⟨rfl, hexact⟩ := h
      have hlarge : 2 ^ 52 ≤ m := by
        refine hfull.resolve_right fun he => ?_
        have hlt' : (m : ℚ) < 2 ^ (53 : Int) := mod_cast hlt
        have hsmall : (m * 2 ^ e : ℚ) < 1 := by
          calc (m * 2 ^ e : ℚ) < 2 ^ (53 : Int) * 2 ^ e := by gcongr
            _ = 2 ^ (53 + e) := (zpow_add₀ two_ne_zero ..).symm
            _ ≤ 1 := zpow_le_one_of_nonpos₀ one_le_two (by omega)
        rw [hvalue] at hsmall
        have : n < 1 := mod_cast hsmall
        omega
      have hm : m ≠ 0 := by omega
      exact ⟨m, e, Nat.pos_of_ne_zero hm, by rw [Binary.unpacked, dif_neg hm]; rfl, hlarge, hvalue⟩

/-- Every whole number of at most 53 bits can be given all of them. -/
theorem full_shift {n k : Nat} (hn : 0 < n) (hk : n.log2 + k = 52) :
    2 ^ 52 ≤ n * 2 ^ k ∧ n * 2 ^ k < 2 ^ 53 := by
  constructor
  · calc 2 ^ 52 = 2 ^ n.log2 * 2 ^ k := by rw [← pow_add, hk]
      _ ≤ n * 2 ^ k := by gcongr; exact Nat.log2_self_le hn.ne'
  · calc n * 2 ^ k < 2 ^ (n.log2 + 1) * 2 ^ k := by gcongr; exact Nat.lt_log2_self
      _ = 2 ^ 53 := by rw [← pow_add]; congr 1; omega

theorem isNat_toFloat {n : Nat} (hn : 0 < n) (h : n < 2 ^ 53) :
    (Binary.ofFloat n.toUInt64.toFloat).IsNat n := by
  have hlog : n.log2 < 53 := (Nat.log2_lt hn.ne').mpr h
  obtain ⟨k, hk⟩ : ∃ k, n.log2 + k = 52 := ⟨52 - n.log2, by omega⟩
  obtain ⟨hfull, hlt⟩ := full_shift hn hk
  have hcanonical : Canonical (n * 2 ^ k) (-k) := ⟨hlt, by omega, by omega, .inl hfull⟩
  have hround : UnpackedFloat.ofNat .binary64 n = (Binary.finite false (n * 2 ^ k) (-k)).unpacked := by
    have hcompare : compare (n : Int) 0 = .gt := Int.compare_eq_gt.mpr (by omega)
    have hnear : Nearest (n * 2 ^ k) (-k) (n * 2 ^ (0 : Int)) := by
      convert Nearest.exact (n * 2 ^ k) (-k) using 1
      rw [zpow_neg, zpow_natCast, zpow_zero]
      push_cast
      field_simp
    simp only [UnpackedFloat.ofNat, UnpackedFloat.ofInt, UnpackedFloat.normalize, hcompare,
      Int.toNat_natCast]
    exact round_nearest hn hcanonical hnear false
  have hvalue : n.toUInt64.toFloat = .ofModel (.pack (.ofNat .binary64 n)) := by
    change Float.ofModel (.pack (.ofNat .binary64 (UInt64.ofNat n).toNat)) = _
    rw [UInt64.toNat_ofNat_of_lt' (h.trans (by norm_num))]
  rw [hvalue, hround, ofFloat_pack_finite _ hcanonical]
  simp [Binary.IsNat]

theorem ofFloat_mul_of_isNat {x y : Float} {a b : Nat} (ha : 0 < a) (hb : 0 < b)
    (hx : (Binary.ofFloat x).IsNat a) (hy : (Binary.ofFloat y).IsNat b) (hcanonical : Canonical m e)
    (hnear : Nearest m e (a * b)) : Binary.ofFloat (x * y) = .finite false m e := by
  obtain ⟨m₁, e₁, h₁, hx, hlarge, hvx⟩ := exists_unpacked_of_isNat ha hx
  obtain ⟨m₂, e₂, h₂, hy, -, hvy⟩ := exists_unpacked_of_isNat hb hy
  have hmul : x * y = .ofModel (.pack (.mul .binary64 x.toModel.unpack y.toModel.unpack)) := rfl
  rw [hmul, hx, hy, mul_nearest h₁ h₂ hcanonical (.inl (hlarge.trans (Nat.le_mul_of_pos_right _ h₂)))
    (hvx ▸ hvy ▸ hnear), ofFloat_pack_finite _ hcanonical]

theorem ofFloat_div_of_isNat {x y : Float} {a b : Nat} (ha : 0 < a) (hb : 0 < b)
    (hx : (Binary.ofFloat x).IsNat a) (hy : (Binary.ofFloat y).IsNat b) (hcanonical : Canonical m e)
    (hnear : Nearest m e (a / b)) : Binary.ofFloat (x / y) = .finite false m e := by
  obtain ⟨m₁, e₁, h₁, hx, -, hvx⟩ := exists_unpacked_of_isNat ha hx
  obtain ⟨m₂, e₂, h₂, hy, -, hvy⟩ := exists_unpacked_of_isNat hb hy
  have hdiv : x / y = .ofModel (.pack (.div .binary64 x.toModel.unpack y.toModel.unpack)) := rfl
  rw [hdiv, hx, hy, div_nearest h₁ h₂ hcanonical (hvx ▸ hvy ▸ hnear), ofFloat_pack_finite _ hcanonical]

/-! ## Decimals -/

theorem two_zpow_le_ten_zpow {x : Int} (hx : 0 ≤ x) : (2 : ℚ) ^ (3 * x) ≤ 10 ^ x := by
  rw [zpow_mul]
  exact zpow_le_zpow_left₀ hx (by norm_num) (by norm_num)

theorem ten_zpow_le_two_zpow {x : Int} (hx : x ≤ 0) : (10 : ℚ) ^ x ≤ 2 ^ (3 * x) := by
  have := inv_anti₀ (by positivity) (two_zpow_le_ten_zpow (neg_nonneg.mpr hx))
  rwa [mul_neg, zpow_neg, zpow_neg, inv_inv, inv_inv] at this

/-- A value below the least number is nearest to none but zero. -/
theorem Nearest.eq_zero {v : ℚ} (hcanonical : Canonical m e) (h : Nearest m e v)
    (hsmall : v < 2 ^ (-1075 : Int)) : m = 0 := by
  by_contra hm
  have hm' : (1 : ℚ) ≤ m := mod_cast Nat.one_le_iff_ne_zero.mpr hm
  have he : (2 : ℚ) ^ (-1074 : Int) ≤ 2 ^ e := zpow_le_zpow_right₀ one_le_two hcanonical.le_exponent
  have hhalf : (2 : ℚ) ^ (-1074 : Int) = 2 * 2 ^ (-1075 : Int) := by
    rw [← zpow_one_add₀ two_ne_zero]
    rfl
  have hpos : (0 : ℚ) < 2 ^ (-1075 : Int) := by positivity
  nlinarith [h.le_value]

theorem Canonical.exponent_eq (h : Canonical 0 e) : e = -1074 :=
  h.full.resolve_left (by norm_num)

theorem Nearest.value_lt_maximum {v : ℚ} (hcanonical : Canonical m e) (h : Nearest m e v) :
    v < 2 ^ (1024 : Int) :=
  (h.value_lt hcanonical.mantissa_lt).trans_le
    (zpow_le_zpow_right₀ one_le_two (by have := hcanonical.exponent_le; omega))

theorem ofScientific_nearest {n : Nat} {x : Int} (hn : 0 < n) (hcanonical : Canonical m e)
    (hnear : Nearest m e (n * 10 ^ x)) :
    UnpackedFloat.ofScientific .binary64 n x = (Binary.finite false m e).unpacked := by
  have hn' : (1 : ℚ) ≤ n := mod_cast hn
  unfold UnpackedFloat.ofScientific
  split_ifs with hzero hbig hsmall hpos
  · omega
  · -- A number as large as this is beyond the range.
    have hbig : (2048 : Int) < x := hbig
    have hlarge : (2 : ℚ) ^ (1024 : Int) ≤ n * 10 ^ x := by
      calc (2 : ℚ) ^ (1024 : Int) ≤ 2 ^ (3 * x) := zpow_le_zpow_right₀ one_le_two (by omega)
        _ ≤ 10 ^ x := two_zpow_le_ten_zpow (by omega)
        _ ≤ n * 10 ^ x := le_mul_of_one_le_left (by positivity) hn'
    exact absurd (hnear.value_lt_maximum hcanonical) hlarge.not_gt
  · have hsmall : x < -(2048 + n.log2) := hsmall
    have hlog : (n : ℚ) < 2 ^ (n.log2 + 1 : Int) := mod_cast Nat.lt_log2_self
    have htiny : (n * 10 ^ x : ℚ) < 2 ^ (-1075 : Int) := by
      calc (n * 10 ^ x : ℚ) < 2 ^ (n.log2 + 1 : Int) * 10 ^ x := by gcongr
        _ ≤ 2 ^ (n.log2 + 1 : Int) * 2 ^ (3 * x) := by
          gcongr
          exact ten_zpow_le_two_zpow (by omega)
        _ = 2 ^ (n.log2 + 1 + 3 * x : Int) := (zpow_add₀ two_ne_zero ..).symm
        _ ≤ 2 ^ (-1075 : Int) := zpow_le_zpow_right₀ one_le_two (by omega)
    obtain rfl := hnear.eq_zero hcanonical htiny
    rfl
  · have hshift : n <<< Format.binary64.mantissaBits = n * 2 ^ 53 := Nat.shiftLeft_eq n 53
    refine mul_nearest _ _ hcanonical (.inl ?_) ?_
    · rw [hshift]
      have : 0 < n * 10 ^ x.toNat := by positivity
      nlinarith
    · convert hnear using 1
      rw [hshift, zpow_eq_div 10 x, Int.toNat_of_nonpos (neg_nonpos.mpr hpos)]
      change (((n * 2 ^ 53 : Nat) : ℚ) * 2 ^ (-53 : Int) * _ = _)
      push_cast
      rw [zpow_neg]
      field_simp
      norm_num
  · refine div_nearest hn _ hcanonical ?_
    convert hnear using 1
    rw [zpow_eq_div 10 x, Int.toNat_of_nonpos (not_le.mp hpos).le]
    push_cast
    simp
    ring

theorem ofFloat_ofScientific {n x : Nat} {s : Bool} (hn : 0 < n) (hcanonical : Canonical m e)
    (hnear : Nearest m e (n * 10 ^ (if s then -x else x : Int))) :
    Binary.ofFloat (Float.ofScientific n s x) = .finite false m e := by
  unfold Float.ofScientific
  split_ifs with hsmall hs hs
  · refine ofFloat_div_of_isNat hn (by positivity) (isNat_toFloat hn hsmall.1)
      (isNat_powersOfTen ⟨x, by omega⟩) hcanonical ?_
    rw [if_pos hs, zpow_neg, zpow_natCast, ← div_eq_mul_inv] at hnear
    exact_mod_cast hnear
  · refine ofFloat_mul_of_isNat hn (by positivity) (isNat_toFloat hn hsmall.1)
      (isNat_powersOfTen ⟨x, by omega⟩) hcanonical ?_
    rw [if_neg hs, zpow_natCast] at hnear
    exact_mod_cast hnear
  · rw [if_pos hs] at hnear
    change Binary.ofFloat (.ofModel (.pack (.ofScientific .binary64 n (Int.negOfNat x)))) = _
    rw [Int.negOfNat_eq, Int.ofNat_eq_natCast, ofScientific_nearest hn hcanonical hnear,
      ofFloat_pack_finite _ hcanonical]
  · rw [if_neg hs] at hnear
    change Binary.ofFloat (.ofModel (.pack (.ofScientific .binary64 n x))) = _
    rw [ofScientific_nearest hn hcanonical hnear, ofFloat_pack_finite _ hcanonical]

theorem lt_pow_digits (n : Nat) : n < 10 ^ (toString n).length := by
  rw [Nat.toString_eq_repr]
  exact (Nat.length_repr_le_iff Nat.length_repr_pos).mp le_rfl

theorem pow_digits_le {n : Nat} (hn : 0 < n) : 10 ^ ((toString n).length - 1) ≤ n := by
  rw [Nat.toString_eq_repr]
  by_contra hlt
  by_cases hone : n.repr.length = 1
  · rw [hone, Nat.sub_self, pow_zero] at hlt
    omega
  · have hpos : 0 < n.repr.length := Nat.length_repr_pos
    have := (Nat.length_repr_le_iff (by omega)).mpr (not_le.mp hlt)
    omega

/-- The real number of a decimal is the one nearest to it. -/
theorem ofFloat_realOf {n : Nat} {x : Int} (hcanonical : Canonical m e)
    (hnear : Nearest m e (n * 10 ^ x)) : Binary.ofFloat (realOf n x) = .finite false m e := by
  have hzero : Binary.ofFloat 0.0 = .finite false 0 (-1074) := by decide +kernel
  simp only [realOf, Int.ofNat_eq_natCast, Bool.or_eq_true, beq_iff_eq, decide_eq_true_eq]
  split_ifs with hsmall hlarge
  · have htiny : (n * 10 ^ x : ℚ) < 2 ^ (-1075 : Int) := by
      obtain rfl | hsmall := hsmall
      · rw [Nat.cast_zero, zero_mul]
        positivity
      · have hdigits : (n : ℚ) < 10 ^ ((toString n).length : Int) := mod_cast lt_pow_digits n
        calc (n * 10 ^ x : ℚ) < 10 ^ ((toString n).length : Int) * 10 ^ x := by gcongr
          _ = 10 ^ ((toString n).length + x : Int) := (zpow_add₀ (by norm_num) ..).symm
          _ ≤ 2 ^ (3 * ((toString n).length + x : Int)) := ten_zpow_le_two_zpow (by omega)
          _ ≤ 2 ^ (-1075 : Int) := zpow_le_zpow_right₀ one_le_two (by omega)
    obtain rfl := hnear.eq_zero hcanonical htiny
    rw [hzero, hcanonical.exponent_eq]
  · obtain ⟨hn, -⟩ := not_or.mp hsmall
    have hdigits : (10 : ℚ) ^ ((toString n).length - 1 : Int) ≤ n := by
      have hpos : 0 < (toString n).length := by
        rw [Nat.toString_eq_repr]
        exact Nat.length_repr_pos
      rw [← Nat.cast_pred hpos]
      exact_mod_cast pow_digits_le (Nat.pos_of_ne_zero hn)
    have hhuge : (2 : ℚ) ^ (1024 : Int) ≤ n * 10 ^ x := by
      calc (2 : ℚ) ^ (1024 : Int) ≤ 2 ^ (3 * ((toString n).length - 1 + x : Int)) :=
            zpow_le_zpow_right₀ one_le_two (by omega)
        _ ≤ 10 ^ ((toString n).length - 1 + x : Int) := two_zpow_le_ten_zpow (by omega)
        _ = 10 ^ ((toString n).length - 1 : Int) * 10 ^ x := zpow_add₀ (by norm_num) ..
        _ ≤ n * 10 ^ x := by gcongr
    exact absurd (hnear.value_lt_maximum hcanonical) hhuge.not_gt
  · refine ofFloat_ofScientific (Nat.pos_of_ne_zero (not_or.mp hsmall).1) hcanonical ?_
    convert hnear using 3
    split_ifs with hneg <;> rw [decide_eq_true_eq] at hneg <;> omega

end Wayfare.Decimal
