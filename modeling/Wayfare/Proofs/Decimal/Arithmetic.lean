import Mathlib
import Wayfare.Proofs.Decimal.Whole

/-! # Sums and products within a bound

Rounding to the nearest real number keeps order. A sum or product of numbers
that are not below zero is therefore at most any real number that the exact
outcome does not pass.
-/

namespace Wayfare.Decimal

open Float.Model Float.Model.UnpackedFloat

variable {m m' : Nat} {e e' : Int} {v : ℚ}

/-! ## Rounding any fraction -/

/-- Of two real numbers the one with the greater exponent is greater. -/
theorem Canonical.value_lt (h : Canonical m e) (h' : Canonical m' e') (hlt : e < e') :
    (m * 2 ^ e : ℚ) < m' * 2 ^ e' := by
  have hfull : 2 ^ 52 ≤ m' := h'.full.resolve_right (by have := h.le_exponent; omega)
  calc (m * 2 ^ e : ℚ) < 2 ^ 53 * 2 ^ e := by
        gcongr
        exact_mod_cast h.mantissa_lt
    _ = 2 ^ 52 * 2 ^ (e + 1) := by
        rw [zpow_add_one₀ two_ne_zero]
        ring
    _ ≤ m' * 2 ^ e' := by
        gcongr
        · exact_mod_cast hfull
        · exact one_le_two
        · exact hlt

/-- A value that is not above a real number is not rounded to one above it. -/
theorem Nearest.le_of_le (hnear : Nearest m e v) (h : Canonical m e) (h' : Canonical m' e')
    (hle : v ≤ m' * 2 ^ e') : (m * 2 ^ e : ℚ) ≤ m' * 2 ^ e' := by
  have he : (0 : ℚ) < 2 ^ e := by positivity
  obtain hlt | rfl | hlt := lt_trichotomy e e'
  · exact (h.value_lt h' hlt).le
  · -- With one exponent a greater mantissa is greater by at least one.
    by_contra! hgt
    have hmantissa : m' < m := by exact_mod_cast (mul_lt_mul_iff_left₀ he).mp hgt
    have hmantissa : (m' + 1 : ℚ) ≤ m := by exact_mod_cast hmantissa
    nlinarith [hnear.le_value]
  · by_contra! _
    have hfull : 2 ^ 52 ≤ m := h.full.resolve_right (by have := h'.le_exponent; omega)
    have hlast : (m' : ℚ) ≤ 2 ^ 53 - 1 := by
      have : (m' + 1 : ℚ) ≤ 2 ^ 53 := by exact_mod_cast h'.mantissa_lt
      linarith
    have hsmall : (m' * 2 ^ e' : ℚ) ≤ (2 ^ 53 - 1) * 2 ^ (e - 1) :=
      mul_le_mul hlast (zpow_le_zpow_right₀ one_le_two (by omega)) (by positivity) (by norm_num)
    have hhalf : (2 : ℚ) ^ e = 2 * 2 ^ (e - 1) := by
      rw [← zpow_one_add₀ two_ne_zero, add_sub_cancel]
    have hpos : (0 : ℚ) < 2 ^ (e - 1) := by positivity
    obtain heq | hlt := hfull.eq_or_lt
    · have hquarter := hnear.le_value_of_power heq.symm (by have := h'.le_exponent; omega)
      rw [← heq] at hquarter
      push_cast at hquarter
      nlinarith
    · have hone : (2 ^ 52 + 1 : ℚ) ≤ m := by exact_mod_cast hlt
      have hle' := hnear.le_value
      nlinarith

theorem exists_roundHalf {r : ℚ} (hr : 0 ≤ r) : ∃ m : Nat, (m : ℚ) - 1 / 2 ≤ r ∧ r ≤ m + 1 / 2 ∧
    (r = m - 1 / 2 ∨ r = m + 1 / 2 → m % 2 = 0) := by
  have hfloor := Nat.floor_le hr
  have hlt := Nat.lt_floor_add_one r
  generalize ⌊r⌋₊ = n at hfloor hlt
  obtain hlow | heq | hhigh := lt_trichotomy r (n + 1 / 2)
  · exact ⟨n, by linarith, by linarith, fun h => by rcases h with h | h <;> linarith⟩
  · obtain heven | hodd := Nat.mod_two_eq_zero_or_one n
    · exact ⟨n, by linarith, by linarith, fun _ => heven⟩
    · exact ⟨n + 1, by push_cast; linarith, by push_cast; linarith, fun _ => by omega⟩
  · refine ⟨n + 1, by push_cast; linarith, by push_cast; linarith, fun h => ?_⟩
    push_cast at h
    rcases h with h | h <;> linarith

/-- Every fraction in range has a nearest real number. -/
theorem exists_nearest (hv : 0 ≤ v) (hrange : v < 2 ^ (1023 : Int)) :
    ∃ (m : Nat) (e : Int), Canonical m e ∧ Nearest m e v := by
  obtain rfl | hpos := hv.eq_or_lt
  · exact ⟨0, -1074, ⟨by norm_num, le_rfl, by norm_num, .inr rfl⟩, by simpa using Nearest.exact 0 (-1074)⟩
  have hlow : (2 : ℚ) ^ Int.log 2 v ≤ v := Int.zpow_log_le_self (by norm_num) hpos
  have hhigh : v < (2 : ℚ) ^ (Int.log 2 v + 1) := Int.lt_zpow_succ_log_self (by norm_num) v
  have hlog : Int.log 2 v < 1023 := (zpow_lt_zpow_iff_right₀ one_lt_two).mp (hlow.trans_lt hrange)
  generalize Int.log 2 v = l at *
  obtain ⟨e, he⟩ : ∃ e, e = max (l - 52) (-1074) := ⟨_, rfl⟩
  have hunit : (0 : ℚ) < 2 ^ e := by positivity
  obtain ⟨r, rfl⟩ : ∃ r, v = r * 2 ^ e := ⟨v / 2 ^ e, (div_mul_cancel₀ _ hunit.ne').symm⟩
  have hr : 0 ≤ r := nonneg_of_mul_nonneg_left hv hunit
  have hlt : r < 2 ^ 53 := by
    refine lt_of_mul_lt_mul_right (hhigh.trans_le ?_) hunit.le
    rw [← zpow_natCast, ← zpow_add₀ two_ne_zero]
    exact zpow_le_zpow_right₀ one_le_two (by push_cast; omega)
  have hnormal : -1074 < e → 2 ^ 52 ≤ r := by
    intro hgt
    refine le_of_mul_le_mul_right (le_trans (le_of_eq ?_) hlow) hunit
    rw [← zpow_natCast, ← zpow_add₀ two_ne_zero]
    congr 1
    push_cast
    omega
  obtain ⟨m, hle, hge, heven⟩ := exists_roundHalf hr
  have hm : m ≤ 2 ^ 53 := by
    by_contra! hm
    have : (2 ^ 53 + 1 : ℚ) ≤ m := by exact_mod_cast hm
    linarith
  obtain rfl | hm := hm.eq_or_lt
  · -- Rounding has carried into a new bit.
    refine ⟨2 ^ 52, e + 1, ⟨by norm_num, by omega, by omega, .inl le_rfl⟩, ?_⟩
    rw [show r * 2 ^ e = r / 2 * 2 ^ (e + 1) by rw [zpow_add_one₀ two_ne_zero]; ring]
    push_cast at hle
    refine nearest_iff.mpr ⟨?_, ?_, fun _ => rfl, fun _ _ => ?_⟩ <;> push_cast <;> linarith
  · refine ⟨m, e, ⟨hm, by omega, by omega, ?_⟩, nearest_iff.mpr ⟨hle, hge, heven, ?_⟩⟩
    · refine or_iff_not_imp_right.mpr fun hne => ?_
      have := hnormal (by omega)
      have : (2 ^ 52 : ℚ) < m + 1 := by linarith
      exact Nat.lt_add_one_iff.mp (by exact_mod_cast this)
    · rintro rfl hgt
      have := hnormal hgt
      push_cast
      linarith

/-- A fraction is rounded to a real number that is not above one that the fraction does not pass. -/
theorem exists_nearest_le {c : Nat} {k : Int} (hv : 0 ≤ v) (hc : c < 2 ^ 53) (hk : -1074 ≤ k)
    (hk' : k ≤ 970) (hle : v ≤ c * 2 ^ k) :
    ∃ (m : Nat) (e : Int), Canonical m e ∧ Nearest m e v ∧ (m * 2 ^ e : ℚ) ≤ c * 2 ^ k := by
  have hrange : (c * 2 ^ k : ℚ) < 2 ^ (1023 : Int) := by
    calc (c * 2 ^ k : ℚ) < 2 ^ (53 : Int) * 2 ^ k := by
          gcongr
          exact_mod_cast hc
      _ = 2 ^ (53 + k) := (zpow_add₀ two_ne_zero ..).symm
      _ ≤ 2 ^ (1023 : Int) := zpow_le_zpow_right₀ one_le_two (by omega)
  obtain ⟨m, e, hcanonical, hnear⟩ := exists_nearest hv (hle.trans_lt hrange)
  obtain ⟨m', e', hbound, -, heq⟩ := exists_canonical_eq hc hk (by omega)
  rw [← heq] at hle ⊢
  exact ⟨m, e, hcanonical, hnear, hnear.le_of_le hcanonical hbound hle⟩

/-- Rounding adds at most half a unit of the last of 53 bits. -/
theorem Nearest.le_relative (hnear : Nearest m e v) (h : Canonical m e) (hv : 1 ≤ v) :
    (m * 2 ^ e : ℚ) * (2 ^ 53 - 1) ≤ v * 2 ^ 53 := by
  have he : (0 : ℚ) < 2 ^ e := by positivity
  have hfull : 2 ^ 52 ≤ m := by
    refine h.full.resolve_right fun hleast => ?_
    have hsmall : v < 2 ^ (53 + e) := hnear.value_lt h.mantissa_lt
    have : (2 : ℚ) ^ (53 + e) ≤ 1 := zpow_le_one_of_nonpos₀ one_le_two (by omega)
    linarith
  have hfull : (2 ^ 52 : ℚ) * 2 ^ e ≤ m * 2 ^ e := by
    gcongr
    exact_mod_cast hfull
  have hle := hnear.le_value
  linarith

/-! ## Numbers that are not below zero -/

/-- A product of two real numbers has enough bits to be rounded once. -/
theorem Canonical.precise_mul (h : Canonical m e) (h' : Canonical m' e') (hm : 0 < m) (hm' : 0 < m') :
    2 ^ 52 ≤ m * m' ∨ e + e' ≤ -1074 := by
  obtain hfull | rfl := h.full
  · exact .inl (hfull.trans (Nat.le_mul_of_pos_right _ hm'))
  obtain hfull | rfl := h'.full
  · exact .inl (hfull.trans (Nat.le_mul_of_pos_left _ hm))
  · exact .inr (by norm_num)

/-- A real number of the machine that is not below zero stands for a fraction. -/
def Stands (x : Float) (v : ℚ) : Prop :=
  ∃ negative m e, Binary.ofFloat x = .finite negative m e ∧ (negative = false ∨ m = 0) ∧
    (m * 2 ^ e : ℚ) = v

namespace Stands

variable {x y : Float} {a b : ℚ}

theorem of_ofFloat (h : Binary.ofFloat x = .finite false m e) : Stands x (m * 2 ^ e) :=
  ⟨false, m, e, h, .inl rfl, rfl⟩

theorem of_isNat {n : Nat} (h : (Binary.ofFloat x).IsNat n) : Stands x n := by
  generalize hx : Binary.ofFloat x = b at h
  cases b with
  | finite negative m e => exact ⟨negative, m, e, hx, .inl h.1, value_eq_of_isNat h⟩
  | infinite _ => exact h.elim
  | notANumber => exact h.elim

theorem nonneg (h : Stands x a) : 0 ≤ a := by
  obtain ⟨_, _, _, _, _, rfl⟩ := h
  positivity

/-- The arithmetic takes such a number as a zero, or as a mantissa and an exponent. -/
theorem unpacked (h : Stands x a) : (∃ s, x.toModel.unpack = .zero s ∧ a = 0) ∨
    ∃ (m : Nat) (e : Int) (hm : 0 < m), x.toModel.unpack = .finite .positive m e hm ∧
      Canonical m e ∧ a = m * 2 ^ e := by
  obtain ⟨negative, m, e, hx, hsign, rfl⟩ := h
  have hcanonical := isCanonical_ofFloat x
  rw [hx] at hcanonical
  rw [unpack_toModel, hx, Binary.unpacked]
  by_cases hm : m = 0
  · rw [dif_pos hm]
    exact .inl ⟨_, rfl, by rw [hm, Nat.cast_zero, zero_mul]⟩
  · rw [dif_neg hm, hsign.resolve_right hm]
    exact .inr ⟨m, e, Nat.pos_of_ne_zero hm, rfl, hcanonical, rfl⟩

theorem isNaN (h : Stands x a) : x.isNaN = false := by
  obtain ⟨_, _, _, hx, _⟩ := h
  exact isNaN_of_finite hx

theorem isInf (h : Stands x a) : x.isInf = false := by
  obtain ⟨_, _, _, hx, _⟩ := h
  exact isInf_of_finite hx

theorem of_unpacked_zero {s : Sign} : Stands (.ofModel (.pack (.zero s))) 0 := by
  have hzero : UnpackedFloat.zero s = (Binary.finite (s == .negative) 0 (-1074)).unpacked := by
    cases s <;> rfl
  rw [hzero]
  refine ⟨_, 0, -1074, ofFloat_pack_finite _ ⟨?_, ?_, ?_, .inr rfl⟩, .inr rfl, ?_⟩ <;> norm_num

theorem of_unpacked_nearest {u : UnpackedFloat} (hcanonical : Canonical m e)
    (hu : u = (Binary.finite false m e).unpacked) : Stands (.ofModel (.pack u)) (m * 2 ^ e) :=
  of_ofFloat (by rw [hu]; exact ofFloat_pack_finite _ hcanonical)

theorem of_same (h : Stands x a) : Stands (.ofModel (.pack x.toModel.unpack)) a := by
  obtain ⟨negative, m, e, hx, hsign, ha⟩ := h
  refine ⟨negative, m, e, ?_, hsign, ha⟩
  rw [unpack_toModel, ofFloat_pack (isCanonical_ofFloat x), hx]

/-- A number from zero to one with a given exponent stands for a fraction of that size. -/
theorem of_between {top : Float} (hzero : 0.0 ≤ x) (hle : x ≤ top) (hm : 0 < m)
    (htop : Binary.ofFloat top = .finite false m e) : ∃ v, Stands x v ∧ v ≤ 2 ^ (53 + e) := by
  obtain ⟨hnumber, hnumber'⟩ := RealOrder.isNumber_of_le hle
  rw [RealOrder.le_iff (RealOrder.isNumber_of_le hzero).1 hnumber] at hzero
  rw [RealOrder.le_iff hnumber hnumber'] at hle
  have horigin : Binary.ofFloat 0.0 = .finite false 0 (-1074) := by decide +kernel
  have hplace {z : Float} {m : Nat} {e : Int} {negative : Bool} (hm : m ≠ 0)
      (hz : Binary.ofFloat z = .finite negative m e) :
      RealOrder.place z = RealOrder.standing (.finite (signOf negative) m e (Nat.pos_of_ne_zero hm)) := by
    rw [RealOrder.place, unpack_toModel, hz, Binary.unpacked, dif_neg hm]
  have hzero : toLex (0, toLex (0, 0)) ≤ RealOrder.place x := by
    rw [RealOrder.place, unpack_toModel, horigin] at hzero
    exact hzero
  have hle : RealOrder.place x ≤ toLex (1, toLex (e, Int.ofNat m)) := by
    rw [hplace hm.ne' htop] at hle
    exact hle
  have hcanonical := isCanonical_ofFloat x
  cases hx : Binary.ofFloat x with
  | notANumber =>
      rw [RealOrder.isNumber_iff, unpack_toModel, hx] at hnumber
      exact absurd rfl hnumber
  | infinite negative =>
      rw [RealOrder.place, unpack_toModel, hx] at hzero hle
      cases negative
      · exact absurd (RealOrder.side_le hle) (by norm_num)
      · exact absurd (RealOrder.side_le hzero) (by norm_num)
  | finite negative m' e' =>
      rw [hx] at hcanonical
      by_cases hm' : m' = 0
      · subst hm'
        exact ⟨_, ⟨negative, 0, e', hx, .inr rfl, rfl⟩, by rw [Nat.cast_zero, zero_mul]; positivity⟩
      rw [hplace hm' hx] at hzero hle
      cases negative
      · -- On one side of zero the exponents are in order.
        have hexponent : e' ≤ e := RealOrder.exponent_le hle
        refine ⟨_, of_ofFloat hx, ?_⟩
        calc (m' * 2 ^ e' : ℚ) ≤ 2 ^ (53 : Int) * 2 ^ e := by
              gcongr
              · exact_mod_cast hcanonical.mantissa_lt.le
              · exact one_le_two
          _ = 2 ^ (53 + e) := (zpow_add₀ two_ne_zero ..).symm
      · exact absurd (RealOrder.side_le hzero) (by norm_num)

variable {c : Nat} {k : Int}

/-- A sum is at most a real number that the exact sum does not pass. -/
theorem add (hx : Stands x a) (hy : Stands y b) (hc : c < 2 ^ 53) (hk : -1074 ≤ k) (hk' : k ≤ 970)
    (hle : a + b ≤ c * 2 ^ k) : ∃ s, Stands (x + y) s ∧ s ≤ c * 2 ^ k := by
  have ha := hx.nonneg
  have hb := hy.nonneg
  have hsum : x + y = .ofModel (.pack (.add .binary64 x.toModel.unpack y.toModel.unpack)) := rfl
  rw [hsum]
  obtain ⟨s, hzx, rfl⟩ | ⟨m₁, e₁, h₁, hfx, _, rfl⟩ := hx.unpacked
  · obtain ⟨t, hzy, rfl⟩ | ⟨m₂, e₂, h₂, hfy, _, _⟩ := hy.unpacked
    · rw [hzx, hzy]
      refine ⟨0, ?_, by positivity⟩
      cases s <;> cases t <;> exact of_unpacked_zero
    · refine ⟨b, ?_, by linarith⟩
      have hsame := hy.of_same
      rw [hfy] at hsame
      rw [hzx, hfy]
      exact hsame
  · obtain ⟨t, hzy, rfl⟩ | ⟨m₂, e₂, h₂, hfy, _, rfl⟩ := hy.unpacked
    · refine ⟨m₁ * 2 ^ e₁, ?_, by linarith⟩
      have hsame := hx.of_same
      rw [hfx] at hsame
      rw [hzy, hfx]
      exact hsame
    · obtain ⟨m, e, hcanonical, hnear, hbound⟩ :=
        exists_nearest_le (add_nonneg ha hb) hc hk hk' hle
      refine ⟨_, of_unpacked_nearest hcanonical ?_, hbound⟩
      rw [hfx, hfy]
      exact add_nearest h₁ h₂ hcanonical hnear

/-- A product is at most a real number that the exact product does not pass. -/
theorem mul (hx : Stands x a) (hy : Stands y b) (hc : c < 2 ^ 53) (hk : -1074 ≤ k) (hk' : k ≤ 970)
    (hle : a * b ≤ c * 2 ^ k) : ∃ p, Stands (x * y) p ∧ p ≤ c * 2 ^ k := by
  have ha := hx.nonneg
  have hb := hy.nonneg
  have hproduct : x * y = .ofModel (.pack (.mul .binary64 x.toModel.unpack y.toModel.unpack)) := rfl
  rw [hproduct]
  obtain ⟨s, hzx, rfl⟩ | ⟨m₁, e₁, h₁, hfx, hc₁, rfl⟩ := hx.unpacked
  · refine ⟨0, ?_, by positivity⟩
    obtain ⟨t, hzy, _⟩ | ⟨m₂, e₂, h₂, hfy, _, _⟩ := hy.unpacked
    · rw [hzx, hzy]
      exact of_unpacked_zero
    · rw [hzx, hfy]
      exact of_unpacked_zero
  · obtain ⟨t, hzy, rfl⟩ | ⟨m₂, e₂, h₂, hfy, hc₂, rfl⟩ := hy.unpacked
    · refine ⟨0, ?_, by positivity⟩
      rw [hfx, hzy]
      exact of_unpacked_zero
    · obtain ⟨m, e, hcanonical, hnear, hbound⟩ :=
        exists_nearest_le (mul_nonneg ha hb) hc hk hk' hle
      refine ⟨_, of_unpacked_nearest hcanonical ?_, hbound⟩
      rw [hfx, hfy]
      exact mul_nearest h₁ h₂ hcanonical (hc₁.precise_mul hc₂ h₁ h₂) hnear

theorem wholePart? (h : Stands x a) : wholePart? x = some (⌊a⌋₊ : Int) := by
  obtain ⟨negative, m, e, hx, hsign, rfl⟩ := h
  simp only [Decimal.wholePart?, hx, fraction, Nat.pow_eq]
  have hfloor : ⌊(m * 2 ^ e : ℚ)⌋₊ = m * 2 ^ e.toNat / 2 ^ (-e).toNat := by
    have hquotient := Nat.floor_div_eq_div (K := ℚ) (m * 2 ^ e.toNat) (2 ^ (-e).toNat)
    push_cast at hquotient
    rw [zpow_eq_div, ← mul_div_assoc, hquotient]
  rw [hfloor]
  obtain rfl | rfl := hsign
  · rfl
  · simp

end Stands

end Wayfare.Decimal
