import Mathlib
import Wayfare.Proofs.Decimal.Whole
import Wayfare.Wire

/-! # What the fields of a place hold

A field holds what it is for, or nothing. Decoding makes the numbers real ones
and the counts whole ones, and so does the wire; either way they stand for the
same, and doing it twice changes nothing more.
-/

namespace Wayfare

open Wayfare.Decimal Wayfare.RealOrder

namespace Value

/-- What a number field of a place holds: a number that a real one stands for, or nothing. -/
inductive IsNumberField : Value → Prop
  | absent : IsNumberField null
  | truth (b : Bool) : IsNumberField (bool b)
  | whole {n : Int} (h : FitsReal n) : IsNumberField (int n)
  | real {x : Float} (h : IsNumber x) : IsNumberField (real x)

/-- What a field that counts something holds: a whole number, or nothing. -/
inductive IsCountField : Value → Prop
  | absent : IsCountField null
  | truth (b : Bool) : IsCountField (bool b)
  | whole (n : Int) : IsCountField (int n)

/-- What a field that is true or false holds, if it holds anything. -/
inductive IsTruthField : Value → Prop
  | absent : IsTruthField null
  | truth (b : Bool) : IsTruthField (bool b)

/-- What a field with a time holds, if it holds anything. -/
inductive IsTimeField : Value → Prop
  | absent : IsTimeField null
  | time (m : Calendar.Moment) : IsTimeField (moment m)

inductive IsTextField : Value → Prop
  | text (s : String) : IsTextField (text s)

/-- A number field after decoding: real, if it holds anything. -/
def decodedNumber (v : Value) : Value :=
  match v.toReal with
  | .ok x => real x
  | .error _ => v

/-- A count after decoding: a whole number, if the field holds anything. -/
def decodedCount (v : Value) : Value :=
  match v with
  | bool b => int (if b then 1 else 0)
  | v => v

theorem decodedNumber_decodedNumber (v : Value) :
    v.decodedNumber.decodedNumber = v.decodedNumber := by
  cases h : v.toReal with
  | ok x =>
      have hv : v.decodedNumber = real x := by rw [decodedNumber, h]
      rw [hv]
      rfl
  | error fault =>
      have hv : v.decodedNumber = v := by rw [decodedNumber, h]
      rw [hv, hv]

theorem decodedCount_decodedCount (v : Value) : v.decodedCount.decodedCount = v.decodedCount := by
  cases v <;> rfl

section

variable {v : Value}

theorem toReal_int {n : Int} (h : FitsReal n) : (int n).toReal = .ok (Float.ofInt n) := by
  simp [toReal, realOfInt, isInf_ofInt h]

theorem decodedNumber_int {n : Int} (h : FitsReal n) :
    (int n).decodedNumber = real (Float.ofInt n) := by
  rw [decodedNumber, toReal_int h]

theorem lenientReal_int {n : Int} (h : FitsReal n) :
    Wire.lenientReal (int n) = .ok (real (Float.ofInt n)) := by
  simp [Wire.lenientReal, asReal, asNumber, number?, Number.toReal?, Result.ofOption,
    isInf_ofInt h, bind, Except.bind]

theorem fitsReal_truth (b : Bool) : FitsReal (if b then 1 else 0) :=
  ⟨b.toNat, 0, by cases b <;> decide, by decide, by cases b <;> rfl⟩

theorem ofInt_truth (b : Bool) : Float.ofInt (if b then 1 else 0) = if b then 1.0 else 0.0 := by
  cases b <;> exact ofFloat_injective (by decide +kernel)

namespace IsNumberField

theorem numberOf_eq (h : IsNumberField v) : Place.numberOf v = .ok v.decodedNumber := by
  cases h with
  | whole h =>
      rw [decodedNumber_int h]
      exact congrArg (Value.real <$> ·) (toReal_int h)
  | _ => rfl

theorem lenientReal_eq (h : IsNumberField v) :
    Wire.optional Wire.lenientReal v = .ok v.decodedNumber := by
  cases h with
  | whole h =>
      rw [decodedNumber_int h]
      exact lenientReal_int h
  | truth b =>
      change Wire.lenientReal (int (if b then 1 else 0)) = .ok (Value.real (if b then 1.0 else 0.0))
      rw [lenientReal_int (fitsReal_truth b), ofInt_truth]
  | _ => rfl

theorem decoded (h : IsNumberField v) : IsNumberField v.decodedNumber := by
  cases h with
  | absent => exact .absent
  | truth b => exact .real (by cases b <;> decide +kernel)
  | whole h =>
      rw [decodedNumber_int h]
      exact .real (isNumber_ofInt h)
  | real h => exact .real h

theorem decoded_same (h : IsNumberField v) : (v.decodedNumber == v) = true := by
  cases h with
  | absent => rfl
  | truth b => cases b <;> decide +kernel
  | whole h =>
      rw [decodedNumber_int h]
      change (wholePart? _ == some _ && _) = true
      rw [wholePart?_ofInt h, beq_self_eq_true, Bool.true_and]
      exact isNumber_ofInt h
  | real h => exact Bool.or_eq_true_iff.mpr (.inl h)

/-- A number field reads as the same number before and after decoding. -/
theorem decoded_reads (h : IsNumberField v) :
    v.decodedNumber.isNull = v.isNull ∧ v.decodedNumber.toReal = v.toReal := by
  cases h with
  | whole h =>
      rw [decodedNumber_int h, toReal_int h]
      exact ⟨rfl, rfl⟩
  | _ => exact ⟨rfl, rfl⟩

end IsNumberField

namespace IsCountField

theorem countOf_eq (h : IsCountField v) : Place.countOf v = .ok v.decodedCount := by
  cases h <;> rfl

theorem lenientInt_eq (h : IsCountField v) :
    Wire.optional Wire.lenientInt v = .ok v.decodedCount := by
  cases h <;> rfl

theorem decoded (h : IsCountField v) : IsCountField v.decodedCount := by
  cases h with
  | absent => exact .absent
  | truth b => exact .whole _
  | whole n => exact .whole n

theorem decoded_same (h : IsCountField v) : (v.decodedCount == v) = true := by
  cases h with
  | absent => rfl
  | truth b => cases b <;> rfl
  | whole n => exact beq_self_eq_true n

end IsCountField

theorem IsCountField.same_self (h : IsCountField v) : (v == v) = true := by
  cases h with
  | absent => rfl
  | truth b => exact beq_self_eq_true b
  | whole n => exact beq_self_eq_true n

theorem IsTruthField.same_self (h : IsTruthField v) : (v == v) = true := by
  cases h with
  | absent => rfl
  | truth b => exact beq_self_eq_true b

theorem IsTextField.same_self (h : IsTextField v) : (v == v) = true := by
  cases h with
  | text s => exact beq_self_eq_true s

theorem IsTimeField.same_self (h : IsTimeField v) : (v == v) = true := by
  cases h with
  | absent => rfl
  | time m =>
      change m.same m = true
      rw [Calendar.Moment.same, Calendar.Moment.comparable, beq_self_eq_true, beq_self_eq_true]
      rfl

theorem IsTruthField.lenientBool_eq (h : IsTruthField v) :
    Wire.optional Wire.lenientBool v = .ok v := by
  cases h <;> rfl

end

end Value

end Wayfare
