import Mathlib
import Wayfare.Decimal.Binary

/-! # What the bits of a real number stand for

The sign, exponent and fraction in the bits of a real number determine it: only
one pattern of bits is kept for what is no number. Taking a number apart and
putting it together again gives the number back.
-/

namespace Wayfare.Decimal

open Float.Model Float.Model.UnpackedFloat

/-- A mantissa and an exponent as a real number has them: at most 53 bits, all of them used unless the
exponent is the least. -/
structure Canonical (m : Nat) (e : Int) : Prop where
  mantissa_lt : m < 2 ^ 53
  le_exponent : -1074 ≤ e
  exponent_le : e ≤ 971
  full : 2 ^ 52 ≤ m ∨ e = -1074

namespace Binary

/-- The number with given parts of its bits. -/
def ofParts (negative : Bool) (exponent fraction : Nat) : Binary :=
  if exponent = 2047 then
    if fraction = 0 then .infinite negative else .notANumber
  else if exponent = 0 then .finite negative fraction (-1074)
  else .finite negative (2 ^ 52 + fraction) (exponent - 1075)

/-- A finite number has a mantissa and an exponent as real numbers have them. -/
def IsCanonical : Binary → Prop
  | finite _ m e => Canonical m e
  | _ => True

/-- The number of the other sign. -/
def opposite : Binary → Binary
  | finite negative m e => finite (!negative) m e
  | infinite negative => infinite (!negative)
  | notANumber => notANumber

end Binary

def signOf (negative : Bool) : Sign :=
  if negative then .negative else .positive

/-- The number in the form in which the arithmetic of real numbers takes it. -/
def Binary.unpacked : Binary → UnpackedFloat
  | finite negative m e =>
      if h : m = 0 then .zero (signOf negative)
      else .finite (signOf negative) m e (Nat.pos_of_ne_zero h)
  | infinite negative => .infinity (signOf negative)
  | notANumber => .notANumber

/-- The bits of a number. -/
def bitsOf (x : Float) : BitVec Format.binary64.numBits :=
  x.toModel.toBits.toBitVec

theorem toNat_unpackMantissa (b : BitVec Format.binary64.numBits) :
    (unpackMantissa b).toNat = b.toNat % 2 ^ 52 := by
  simp [unpackMantissa]

theorem toNat_unpackExponent (b : BitVec Format.binary64.numBits) :
    (unpackExponent b).toNat = b.toNat / 2 ^ 52 % 2048 := by
  simp [unpackExponent, Nat.shiftRight_eq_div_pow]

theorem toNat_unpackSign (b : BitVec Format.binary64.numBits) :
    (unpackSign b).toNat = b.toNat / 2 ^ 63 % 2 := by
  simp [unpackSign, Nat.shiftRight_eq_div_pow]

theorem ofBits_eq_ofParts (bits : Nat) :
    Binary.ofBits bits =
      .ofParts (bits / 2 ^ 63 % 2 == 1) (bits / 2 ^ 52 % 2048) (bits % 2 ^ 52) := by
  simp [Binary.ofBits, Binary.ofParts]

theorem toNat_packComponents (s : Sign) (e : BitVec Format.binary64.exponentBits)
    (m : BitVec Format.binary64.mantissaBitsWithoutImplicit) :
    (packComponents .binary64 s e m).toNat =
      s.toBitVec.toNat * 2 ^ 63 + e.toNat * 2 ^ 52 + m.toNat := by
  rw [packComponents, BitVec.toNat_append, BitVec.toNat_append,
    ← Nat.shiftLeft_add_eq_or_of_lt m.isLt, ← Nat.shiftLeft_add_eq_or_of_lt e.isLt]
  simp only [Nat.shiftLeft_eq]
  omega

theorem toNat_signOf (negative : Bool) : (signOf negative).toBitVec.toNat = negative.toNat := by
  cases negative <;> rfl

/-- A number whose bits are put together from parts. -/
theorem ofBits_packComponents (negative : Bool) (e : BitVec Format.binary64.exponentBits)
    (m : BitVec Format.binary64.mantissaBitsWithoutImplicit) :
    Binary.ofBits (packComponents .binary64 (signOf negative) e m).toNat =
      .ofParts negative e.toNat m.toNat := by
  have hm : m.toNat < 2 ^ 52 := m.isLt
  have he : e.toNat < 2 ^ 11 := e.isLt
  rw [toNat_packComponents, toNat_signOf]
  generalize e.toNat = e at *
  generalize m.toNat = f at *
  have hsign : (negative.toNat * 2 ^ 63 + e * 2 ^ 52 + f) / 2 ^ 63 % 2 = negative.toNat := by
    have := negative.toNat_lt
    omega
  have hexponent : (negative.toNat * 2 ^ 63 + e * 2 ^ 52 + f) / 2 ^ 52 % 2048 = e := by omega
  have hfraction : (negative.toNat * 2 ^ 63 + e * 2 ^ 52 + f) % 2 ^ 52 = f := by omega
  rw [ofBits_eq_ofParts, hsign, hexponent, hfraction]
  cases negative <;> rfl

theorem ofFloat_eq_ofParts (x : Float) :
    Binary.ofFloat x = .ofParts ((unpackSign (bitsOf x)).toNat == 1)
      (unpackExponent (bitsOf x)).toNat (unpackMantissa (bitsOf x)).toNat := by
  rw [toNat_unpackMantissa, toNat_unpackExponent, toNat_unpackSign]
  exact ofBits_eq_ofParts _

theorem isCanonical_ofFloat (x : Float) : (Binary.ofFloat x).IsCanonical := by
  rw [ofFloat_eq_ofParts]
  have hfraction : (unpackMantissa (bitsOf x)).toNat < 2 ^ 52 := (unpackMantissa _).isLt
  have hexponent : (unpackExponent (bitsOf x)).toNat < 2 ^ 11 := (unpackExponent _).isLt
  generalize (unpackMantissa (bitsOf x)).toNat = f at *
  generalize (unpackExponent (bitsOf x)).toNat = e at *
  unfold Binary.ofParts
  split
  · split <;> trivial
  · split
    · exact ⟨by omega, by omega, by omega, .inr rfl⟩
    · exact ⟨by omega, by omega, by omega, .inl (by omega)⟩

theorem ofParts_eq_ofParts {n n' : Bool} {e e' f f' : Nat} (hf : f < 2 ^ 52) (hf' : f' < 2 ^ 52)
    (h : Binary.ofParts n e f = .ofParts n' e' f') :
    (n = n' ∧ e = e' ∧ f = f') ∨ (e = 2047 ∧ f ≠ 0 ∧ e' = 2047 ∧ f' ≠ 0) := by
  unfold Binary.ofParts at h
  split_ifs at h <;> grind

/-- There is one pattern of bits for what is no number. -/
theorem bitsOf_eq_packedNaN {x : Float} (he : (unpackExponent (bitsOf x)).toNat = 2047)
    (hf : (unpackMantissa (bitsOf x)).toNat ≠ 0) : bitsOf x = packedNaN .binary64 :=
  x.toModel.valid.eq_packedNaN (BitVec.eq_of_toNat_eq he) fun h => hf (congrArg BitVec.toNat h)

/-- A real number is determined by what it stands for. -/
theorem ofFloat_injective {x y : Float} (h : Binary.ofFloat x = Binary.ofFloat y) : x = y := by
  have hbits : bitsOf x = bitsOf y := by
    rw [ofFloat_eq_ofParts, ofFloat_eq_ofParts] at h
    obtain ⟨hs, he, hf⟩ | ⟨he, hf, he', hf'⟩ :=
      ofParts_eq_ofParts (unpackMantissa _).isLt (unpackMantissa _).isLt h
    · have hx : (bitsOf x).toNat < 2 ^ 64 := (bitsOf x).isLt
      have hy : (bitsOf y).toNat < 2 ^ 64 := (bitsOf y).isLt
      rw [toNat_unpackExponent, toNat_unpackExponent] at he
      rw [toNat_unpackMantissa, toNat_unpackMantissa] at hf
      rw [toNat_unpackSign, toNat_unpackSign, Bool.eq_iff_iff, beq_iff_eq, beq_iff_eq] at hs
      exact BitVec.eq_of_toNat_eq (by omega)
    · rw [bitsOf_eq_packedNaN he hf, bitsOf_eq_packedNaN he' hf']
  obtain ⟨⟨x, hx⟩⟩ := x
  obtain ⟨⟨y, hy⟩⟩ := y
  obtain rfl : x = y := UInt64.toBitVec_inj.mp hbits
  rfl

theorem unpack_toModel (x : Float) : x.toModel.unpack = (Binary.ofFloat x).unpacked := by
  have hsign : Sign.ofBitVec (unpackSign (bitsOf x)) =
      signOf ((unpackSign (bitsOf x)).toNat == 1) := by
    obtain h | h : unpackSign (bitsOf x) = 0#1 ∨ unpackSign (bitsOf x) = 1#1 := by bv_omega
    all_goals rw [h]; rfl
  have hmantissa : (1#1 ++ unpackMantissa (bitsOf x)).toNat =
      2 ^ 52 + (unpackMantissa (bitsOf x)).toNat := by
    rw [BitVec.toNat_append, ← Nat.shiftLeft_add_eq_or_of_lt (BitVec.isLt _)]
    rfl
  have hbias : (Format.binary64.exponentBias : Int) + (52 : Nat) = 1075 := rfl
  have hones : (-1#11).toNat = 2047 := rfl
  have hzeros : (0#11).toNat = 0 := rfl
  rw [ofFloat_eq_ofParts]
  change UnpackedFloat.unpack .binary64 (bitsOf x) = _
  unfold UnpackedFloat.unpack Binary.ofParts
  simp only [hsign, ← BitVec.toNat_inj, hmantissa, hbias, hones, hzeros]
  by_cases hinfinite : (unpackExponent (bitsOf x)).toNat = 2047
  · rw [if_pos hinfinite, if_pos hinfinite]
    split_ifs <;> trivial
  · rw [if_neg hinfinite, if_neg hinfinite]
    by_cases hzero : (unpackExponent (bitsOf x)).toNat = 0
    · rw [if_pos hzero, if_pos hzero, hzero]
      rfl
    · rw [if_neg hzero, if_neg hzero, Binary.unpacked, dif_neg (by omega)]

theorem isInf_iff {x : Float} : x.isInf = true ↔ ∃ negative, Binary.ofFloat x = .infinite negative := by
  change x.toModel.unpack.isInf = true ↔ _
  rw [unpack_toModel]
  cases Binary.ofFloat x with
  | finite negative m e =>
      rw [Binary.unpacked]
      split <;> simp [UnpackedFloat.isInf]
  | infinite negative => simp [Binary.unpacked, UnpackedFloat.isInf]
  | notANumber => simp [Binary.unpacked, UnpackedFloat.isInf]

theorem isNaN_iff {x : Float} : x.isNaN = true ↔ Binary.ofFloat x = .notANumber := by
  change x.toModel.unpack.isNaN = true ↔ _
  rw [unpack_toModel]
  cases Binary.ofFloat x with
  | finite negative m e =>
      rw [Binary.unpacked]
      split_ifs <;> simp [UnpackedFloat.isNaN]
  | infinite negative => simp [Binary.unpacked, UnpackedFloat.isNaN]
  | notANumber => simp [Binary.unpacked, UnpackedFloat.isNaN]

theorem isInf_of_finite {x : Float} {negative : Bool} {m : Nat} {e : Int}
    (h : Binary.ofFloat x = .finite negative m e) : x.isInf = false := by
  rw [Bool.eq_false_iff, Ne, isInf_iff, h]
  rintro ⟨_, h⟩
  cases h

theorem isNaN_of_finite {x : Float} {negative : Bool} {m : Nat} {e : Int}
    (h : Binary.ofFloat x = .finite negative m e) : x.isNaN = false := by
  rw [Bool.eq_false_iff, Ne, isNaN_iff, h]
  exact Binary.noConfusion

theorem pack_normal (s : Sign) {m : Nat} {e : Int} (hm : 0 < m) (h : Canonical m e)
    (hfull : 2 ^ 52 ≤ m) :
    UnpackedFloat.pack .binary64 (.finite s m e hm) =
      packComponents .binary64 s (BitVec.ofNat _ (e + 1075).toNat) (BitVec.ofNat _ m) := by
  have hlog : m.log2 = 52 := (Nat.log2_eq_iff (by omega)).mpr ⟨hfull, h.mantissa_lt⟩
  have hbiased : e + Format.binary64.exponentBias + Format.binary64.mantissaBitsWithoutImplicit =
      e + 1075 := add_assoc e 1023 52
  have hle := h.exponent_le
  rw [UnpackedFloat.pack, hbiased, if_neg (show ¬2 ^ 11 ≤ _ by omega), if_pos (by rw [hlog]; rfl)]

theorem pack_subnormal (s : Sign) {m : Nat} (hm : 0 < m) (h : m < 2 ^ 52) :
    UnpackedFloat.pack .binary64 (.finite s m (-1074) hm) =
      packComponents .binary64 s 0#_ (BitVec.ofNat _ m) := by
  have hlog : m.log2 < 52 := (Nat.log2_lt (by omega)).mpr h
  rw [UnpackedFloat.pack, if_neg (by decide),
    if_neg (show m.log2 + 1 ≠ Format.binary64.mantissaBits from fun h => by
      rw [show Format.binary64.mantissaBits = 53 from rfl] at h; omega)]

theorem ofFloat_pack {b : Binary} (h : b.IsCanonical) :
    Binary.ofFloat (.ofModel (.pack b.unpacked)) = b := by
  change Binary.ofBits (UnpackedFloat.pack .binary64 b.unpacked).toNat = b
  cases b with
  | notANumber => decide
  | infinite negative => exact (ofBits_packComponents negative _ _).trans (by simp [Binary.ofParts])
  | finite negative m e =>
      obtain ⟨hlt, hle, hle', hfull⟩ := id h
      rw [Binary.unpacked]
      split_ifs with hzero
      · obtain rfl : e = -1074 := by omega
        exact (ofBits_packComponents negative _ _).trans (by simp [Binary.ofParts, hzero])
      · have hfraction : (BitVec.ofNat Format.binary64.mantissaBitsWithoutImplicit m).toNat =
            m % 2 ^ 52 := BitVec.toNat_ofNat m 52
        by_cases hnormal : 2 ^ 52 ≤ m
        · have hexponent : (BitVec.ofNat Format.binary64.exponentBits (e + 1075).toNat).toNat =
              (e + 1075).toNat := Nat.mod_eq_of_lt (show (e + 1075).toNat < 2 ^ 11 by omega)
          rw [pack_normal _ _ h hnormal, ofBits_packComponents, hexponent, hfraction,
            Binary.ofParts, if_neg (by omega), if_neg (by omega),
            show 2 ^ 52 + m % 2 ^ 52 = m by omega,
            show ((e + 1075).toNat : Int) - 1075 = e by omega]
        · obtain rfl : e = -1074 := by omega
          rw [pack_subnormal _ _ (by omega), ofBits_packComponents, hfraction,
            Nat.mod_eq_of_lt (by omega)]
          rfl

theorem ofFloat_pack_finite (negative : Bool) {m : Nat} {e : Int} (h : Canonical m e) :
    Binary.ofFloat (.ofModel (.pack (Binary.finite negative m e).unpacked)) =
      .finite negative m e :=
  ofFloat_pack h

theorem ofFloat_neg (x : Float) : Binary.ofFloat (-x) = (Binary.ofFloat x).opposite := by
  have hneg (b : Binary) : b.unpacked.neg = b.opposite.unpacked := by
    cases b with
    | notANumber => rfl
    | infinite negative => cases negative <;> rfl
    | finite negative m e =>
      by_cases hm : m = 0 <;> cases negative <;> simp [Binary.unpacked, Binary.opposite, hm] <;> rfl
  have hx : -x = .ofModel (.pack (Binary.ofFloat x).opposite.unpacked) := by
    rw [← hneg, ← unpack_toModel]
    rfl
  have hcanonical : (Binary.ofFloat x).opposite.IsCanonical := by
    have h := isCanonical_ofFloat x
    generalize Binary.ofFloat x = b at h
    cases b <;> exact h
  rw [hx, ofFloat_pack hcanonical]

end Wayfare.Decimal
