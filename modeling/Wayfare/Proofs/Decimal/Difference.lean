import Wayfare.Proofs.Decimal.Arithmetic

/-! # Differences of real numbers

Real numbers are whole multiples of the least of them, and so is the difference
of two. Rounding never takes away so much that nothing is left: a difference of
numbers that are not the same is not zero, however close they are.
-/

namespace Wayfare.Decimal

open Float.Model Float.Model.UnpackedFloat

/-! ## What rounding leaves -/

/-- What is kept of a mantissa when it is cut down to its exponent: something, in at most 53 bits. -/
theorem exists_shift {M : Nat} {E : Int} (hM : 0 < M) (hE : -1074 ≤ E) :
    ∃ em e, shiftToTargetExponent .binary64 M E .exact = (em, e) ∧ 0 < em.mantissa ∧
      em.mantissa < 2 ^ 53 ∧ -1074 ≤ e := by
  have hk : (Format.binary64.targetExponent (totalExponent M E) - E).toNat = M.log2 - 52 := by
    rw [targetExponent_eq, totalExponent]
    omega
  have hshift : shiftToTargetExponent .binary64 M E .exact =
      (ExtendedMantissa.ofMantissaAndAccuracy M .exact >>> (M.log2 - 52),
        E + (M.log2 - 52 : Nat)) := by
    simp only [shiftToTargetExponent, shiftToExponent, hk]
  have hmantissa := ((represents_exact M).shiftRight one_pos (M.log2 - 52)).mantissa
  rw [one_mul] at hmantissa
  refine ⟨_, _, hshift, ?_, ?_, by omega⟩
  · rw [hmantissa]
    have hpow : 2 ^ (M.log2 - 52) ≤ 2 ^ M.log2 := Nat.pow_le_pow_right two_pos (Nat.sub_le _ _)
    exact Nat.div_pos (hpow.trans (Nat.log2_self_le hM.ne')) (by positivity)
  · rw [hmantissa, Nat.div_lt_iff_lt_mul (by positivity), ← pow_add]
    exact Nat.lt_log2_self.trans_le (Nat.pow_le_pow_right two_pos (by omega))

theorem le_roundedMantissa (em : ExtendedMantissa) : em.mantissa ≤ em.roundedMantissa := by
  rw [ExtendedMantissa.roundedMantissa]
  cases em.accuracy with
  | exact => exact le_rfl
  | inexact o => cases o <;> simp [Accuracy.roundToNearestEven]

/-- A number as arithmetic leaves it, unless it is zero. -/
def Solid : UnpackedFloat → Prop
  | .zero _ => False
  | .finite _ m e _ => m < 2 ^ 53 ∧ -1074 ≤ e
  | .infinity _ | .notANumber => True

theorem solid_round (s : Sign) {M : Nat} {E : Int} (hM : 0 < M) (hE : -1074 ≤ E) :
    Solid (UnpackedFloat.round .binary64 s M E) := by
  simp only [UnpackedFloat.round, decreaseExponent, Nat.shiftLeft_eq]
  generalize hk : (E - Format.binary64.targetExponent (totalExponent M E)).toNat = k
  rw [targetExponent_eq] at hk
  obtain ⟨first, e, hfirst, hpos, -, he⟩ :=
    exists_shift (M := M * 2 ^ k) (E := E - k) (by positivity) (by omega)
  obtain ⟨second, e', hsecond, hpos', hlt, he'⟩ :=
    exists_shift (hpos.trans_le (le_roundedMantissa first)) he
  simp only [roundWithAccuracy, hfirst, hsecond]
  rw [dif_neg hpos'.ne']
  exact ⟨hlt, he'⟩

theorem solid_normalize {d : Int} (hd : d ≠ 0) {E : Int} (hE : -1074 ≤ E) (zeroSign : Sign) :
    Solid (normalize .binary64 d E zeroSign) := by
  rcases lt_trichotomy d 0 with hlt | rfl | hgt
  · simp only [UnpackedFloat.normalize, Int.compare_eq_lt.mpr hlt]
    exact solid_round .negative (by omega) hE
  · exact absurd rfl hd
  · simp only [UnpackedFloat.normalize, Int.compare_eq_gt.mpr hgt]
    exact solid_round .positive (by omega) hE

/-! ## What is not zero -/

theorem ofFloat_of_beq_zero {x : Float} (h : (x == 0.0) = true) :
    ∃ negative e, Binary.ofFloat x = .finite negative 0 e := by
  have hcompare : (x.toModel.unpack.compare (.zero .positive) == some .eq) = true := h
  rw [unpack_toModel, beq_iff_eq] at hcompare
  cases hx : Binary.ofFloat x with
  | notANumber => rw [hx] at hcompare; cases hcompare
  | infinite negative => rw [hx] at hcompare; cases negative <;> cases hcompare
  | finite negative m e =>
      rw [hx, Binary.unpacked] at hcompare
      split at hcompare
      next hm => exact ⟨negative, e, by rw [hm]⟩
      next => cases negative <;> cases hcompare

theorem ofParts_eq_zero {negative negative' : Bool} {exponent fraction : Nat} {e : Int}
    (h : Binary.ofParts negative exponent fraction = .finite negative' 0 e) :
    exponent = 0 ∧ fraction = 0 := by
  rw [Binary.ofParts] at h
  split at h
  next => split at h <;> cases h
  next =>
    split at h
    next hzero =>
      cases h
      exact ⟨hzero, rfl⟩
    next =>
      injection h with _ hm
      omega

theorem exists_signOf (s : Sign) : ∃ negative, s = signOf negative := by
  cases s with
  | positive => exact ⟨false, rfl⟩
  | negative => exact ⟨true, rfl⟩

/-- The bits of a number that is not zero do not stand for zero. -/
theorem Solid.ofBits_pack_ne {u : UnpackedFloat} (hu : Solid u) (negative : Bool) (e : Int) :
    Binary.ofBits (UnpackedFloat.pack .binary64 u).toNat ≠ .finite negative 0 e := by
  intro hzero
  have hinfinite (negative' : Bool) :
      Binary.ofBits (UnpackedFloat.pack .binary64 (.infinity (signOf negative'))).toNat =
        .infinite negative' :=
    ofFloat_pack (b := .infinite negative') trivial
  cases u with
  | notANumber =>
      have hnone : Binary.ofBits (UnpackedFloat.pack .binary64 .notANumber).toNat = .notANumber :=
        ofFloat_pack (b := .notANumber) trivial
      rw [hnone] at hzero
      cases hzero
  | infinity s =>
      obtain ⟨negative', rfl⟩ := exists_signOf s
      rw [hinfinite] at hzero
      cases hzero
  | zero s => exact hu
  | finite s m exponent hm =>
      obtain ⟨negative', rfl⟩ := exists_signOf s
      obtain ⟨hlt, hle⟩ := hu
      have hbiased : exponent + Format.binary64.exponentBias +
          Format.binary64.mantissaBitsWithoutImplicit = exponent + 1075 := add_assoc exponent 1023 52
      rw [UnpackedFloat.pack, hbiased] at hzero
      split at hzero
      next => exact absurd ((hinfinite negative').symm.trans hzero) (by simp)
      next hsmall =>
        have hsmall : ¬ 2 ^ 11 ≤ (exponent + 1075).toNat + 1 := hsmall
        split at hzero
        next =>
          rw [ofBits_packComponents] at hzero
          have hexponent : (exponent + 1075).toNat % 2 ^ 11 = 0 := (ofParts_eq_zero hzero).1
          omega
        next hbits =>
          rw [ofBits_packComponents] at hzero
          have hfraction : m % 2 ^ 52 = 0 := (ofParts_eq_zero hzero).2
          have hlog : m.log2 < 53 := (Nat.log2_lt hm.ne').mpr hlt
          have hbits : m.log2 + 1 ≠ 53 := hbits
          have hsub : m < 2 ^ 52 := (Nat.log2_lt hm.ne').mp (by omega)
          omega

theorem Solid.beq_zero {u : UnpackedFloat} (hu : Solid u) :
    ((Float.ofModel (.pack u)) == 0.0) = false := by
  rw [Bool.eq_false_iff]
  intro h
  obtain ⟨negative, e, hzero⟩ := ofFloat_of_beq_zero h
  exact hu.ofBits_pack_ne negative e hzero

/-! ## Differences -/

/-- Real numbers that are the same have one mantissa and one exponent. -/
theorem Canonical.eq_of_value_eq {m m' : Nat} {e e' : Int} (h : Canonical m e) (h' : Canonical m' e')
    (heq : (m * 2 ^ e : ℚ) = m' * 2 ^ e') : m = m' ∧ e = e' := by
  rcases lt_trichotomy e e' with hlt | rfl | hgt
  · exact absurd heq (h.value_lt h' hlt).ne
  · have he : (2 : ℚ) ^ e ≠ 0 := by positivity
    exact ⟨by exact_mod_cast mul_right_cancel₀ he heq, rfl⟩
  · exact absurd heq (h'.value_lt h hgt).ne'

/-- Numbers of one sign whose mantissas are the same at a common exponent are the same. -/
theorem eq_of_shifted_eq {m m' : Nat} {e e' : Int} (h : Canonical m e) (h' : Canonical m' e')
    (heq : m * 2 ^ (e - min e e').toNat = m' * 2 ^ (e' - min e e').toNat) : m = m' ∧ e = e' := by
  obtain ⟨k, hk⟩ : ∃ k : Nat, e = min e e' + k := ⟨(e - min e e').toNat, by omega⟩
  obtain ⟨k', hk'⟩ : ∃ k : Nat, e' = min e e' + k := ⟨(e' - min e e').toNat, by omega⟩
  refine h.eq_of_value_eq h' ?_
  generalize min e e' = E at *
  subst hk hk'
  rw [add_sub_cancel_left, add_sub_cancel_left, Int.toNat_natCast, Int.toNat_natCast] at heq
  rw [zpow_add₀ two_ne_zero, zpow_add₀ two_ne_zero, zpow_natCast, zpow_natCast, mul_left_comm,
    mul_left_comm (m' : ℚ)]
  exact congrArg _ (by exact_mod_cast heq)

/-- The difference of finite numbers that are not zero, nor the same, is not zero. -/
theorem solid_sub_finite {negative negative' : Bool} {m m' : Nat} {e e' : Int}
    (h : Canonical m e) (h' : Canonical m' e') (hm : 0 < m) (hm' : 0 < m')
    (hne : ¬ (negative = negative' ∧ m = m' ∧ e = e')) :
    Solid (UnpackedFloat.sub .binary64 (.finite (signOf negative) m e hm)
      (.finite (signOf negative') m' e' hm')) := by
  simp only [UnpackedFloat.sub, decreaseExponent, Nat.shiftLeft_eq]
  refine solid_normalize ?_ (le_min h.le_exponent h'.le_exponent) .positive
  have hshifted := mt (eq_of_shifted_eq h h')
  generalize hM : m * 2 ^ (e - min e e').toNat = M at *
  generalize hM' : m' * 2 ^ (e' - min e e').toNat = M' at *
  have hpos : 0 < M := by
    rw [← hM]
    positivity
  have hpos' : 0 < M' := by
    rw [← hM']
    positivity
  have hsame : negative = negative' → M ≠ M' := fun hsign => hshifted fun h => hne ⟨hsign, h⟩
  cases negative <;> cases negative' <;> simp only [signOf, Sign.apply] <;>
    simp at hsame ⊢ <;> omega

theorem solid_sub {b c : Binary} (hb : b.IsCanonical) (hc : c.IsCanonical)
    (h : ¬ (b.unpacked.compare c.unpacked).any (·.isLE) = true) :
    Solid (UnpackedFloat.sub .binary64 b.unpacked c.unpacked) := by
  cases b with
  | notANumber => trivial
  | infinite negative =>
      cases c with
      | notANumber => trivial
      | infinite negative' => cases negative <;> cases negative' <;> trivial
      | finite negative' m' e' =>
          rw [Binary.unpacked, Binary.unpacked]
          split <;> trivial
  | finite negative m e =>
      cases c with
      | notANumber =>
          rw [Binary.unpacked]
          split <;> trivial
      | infinite negative' =>
          rw [Binary.unpacked]
          split <;> trivial
      | finite negative' m' e' =>
          by_cases hm : m = 0
          · by_cases hm' : m' = 0
            · rw [Binary.unpacked, Binary.unpacked, dif_pos hm, dif_pos hm'] at h
              exact absurd rfl h
            · rw [Binary.unpacked, Binary.unpacked, dif_pos hm, dif_neg hm']
              exact ⟨hc.mantissa_lt, hc.le_exponent⟩
          · by_cases hm' : m' = 0
            · rw [Binary.unpacked, Binary.unpacked, dif_neg hm, dif_pos hm']
              exact ⟨hb.mantissa_lt, hb.le_exponent⟩
            · rw [Binary.unpacked, Binary.unpacked, dif_neg hm, dif_neg hm'] at h ⊢
              refine solid_sub_finite hb hc _ _ ?_
              rintro ⟨rfl, rfl, rfl⟩
              refine h ?_
              cases negative <;> simp [signOf, UnpackedFloat.compare]

/-- The difference of numbers is zero only if one of them is not above the other. -/
theorem sub_beq_zero {x y : Float} (h : ¬ y ≤ x) : (y - x == 0.0) = false := by
  have hle : y ≤ x ↔ (y.toModel.unpack.compare x.toModel.unpack).any (·.isLE) = true :=
    decide_eq_true_iff
  have hsub : y - x = .ofModel (.pack (.sub .binary64 y.toModel.unpack x.toModel.unpack)) := rfl
  rw [hle, unpack_toModel, unpack_toModel] at h
  rw [hsub, unpack_toModel, unpack_toModel]
  exact (solid_sub (isCanonical_ofFloat y) (isCanonical_ofFloat x) h).beq_zero

end Wayfare.Decimal
