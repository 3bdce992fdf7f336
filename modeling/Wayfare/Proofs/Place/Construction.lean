import Mathlib.Tactic.SplitIfs
import Wayfare.Place.Record
import Wayfare.Proofs.Success

/-! # Places that can be made

A place is made if its identifier is not blank and its coordinates are in order.
Whether coordinates are in order depends on nothing but how they read, and if
they are, they can be read.
-/

namespace Wayfare

/-! ## Coordinates -/

/-- A latitude and a longitude are both absent, or numbers within their ranges. -/
def Located (lat lon : Value) : Prop :=
  lat.isNull = true ∧ lon.isNull = true ∨
    ∃ x y, lat.toReal = .ok x ∧ lon.toReal = .ok y ∧
      (-90.0 ≤ x ∧ x ≤ 90.0) ∧ -180.0 ≤ y ∧ y ≤ 180.0

section

variable {lat lon : Value}

theorem toReal_of_isNull {v : Value} (h : v.isNull = true) : v.toReal = .error .wrongKind := by
  cases v with
  | null => rfl
  | _ => cases h

theorem rangeErrors_eq_nil {name range : String} {x bound : Float} :
    rangeErrors name x bound range = [] ↔ -bound ≤ x ∧ x ≤ bound := by
  simp only [rangeErrors, ite_eq_left_iff, List.cons_ne_nil, imp_false, not_not]

theorem readPair_eq_ok_some {x y : Float} :
    readPair lat lon = .ok (some (x, y)) ↔ lat.toReal = .ok x ∧ lon.toReal = .ok y := by
  rw [readPair]
  cases lat.toReal with
  | error fault => cases fault <;> simp
  | ok x =>
      cases lon.toReal with
      | error fault => cases fault <;> simp
      | ok y => simp

theorem coordinateErrors_eq_ok_nil : coordinateErrors lat lon = .ok [] ↔ Located lat lon := by
  rw [coordinateErrors, Located, ← Bool.and_eq_true]
  by_cases hboth : (lat.isNull && lon.isNull) = true
  · simp [hboth]
  rw [if_neg hboth, or_iff_right hboth]
  by_cases hone : (lat.isNull || lon.isNull) = true
  · rw [if_pos hone]
    rcases (Bool.or_eq_true ..).mp hone with hnull | hnull
    · simp [toReal_of_isNull hnull]
    · simp [toReal_of_isNull hnull]
  rw [if_neg hone]
  constructor
  · intro h
    split at h
    next => cases h
    next => cases h
    next x y hread =>
      rw [Except.ok.injEq, List.append_eq_nil_iff, rangeErrors_eq_nil, rangeErrors_eq_nil] at h
      obtain ⟨hx, hy⟩ := readPair_eq_ok_some.mp hread
      exact ⟨x, y, hx, hy, h⟩
  · rintro ⟨x, y, hx, hy, hlat, hlon⟩
    rw [readPair_eq_ok_some.mpr ⟨hx, hy⟩]
    dsimp only
    rw [rangeErrors_eq_nil.mpr hlat, rangeErrors_eq_nil.mpr hlon]
    rfl

/-- A pair is judged unless a number beyond all range is met in reading it: the second part is not read
if one of them is absent or the first is no number. -/
theorem exists_coordinateErrors_iff : (∃ errors, coordinateErrors lat lon = .ok errors) ↔
    lat.isNull = true ∨ lon.isNull = true ∨ lat.toReal ≠ .error .tooLarge ∧
      ((∃ x, lat.toReal = .ok x) → lon.toReal ≠ .error .tooLarge) := by
  rw [coordinateErrors, ← or_assoc, ← Bool.or_eq_true]
  by_cases hboth : (lat.isNull && lon.isNull) = true
  · have hone : (lat.isNull || lon.isNull) = true := by
      rw [(Bool.and_eq_true ..).mp hboth |>.1, Bool.true_or]
    simp [hboth, hone]
  rw [if_neg hboth]
  by_cases hone : (lat.isNull || lon.isNull) = true
  · simp [hone]
  rw [if_neg hone, or_iff_right hone, readPair]
  cases lat.toReal with
  | error fault => cases fault <;> simp
  | ok x =>
      cases lon.toReal with
      | error fault => cases fault <;> simp
      | ok y => simp

theorem exists_coordinateErrors (hlat : lat.toReal ≠ .error .tooLarge)
    (hlon : lon.toReal ≠ .error .tooLarge) : ∃ errors, coordinateErrors lat lon = .ok errors :=
  exists_coordinateErrors_iff.mpr (.inr (.inr ⟨hlat, fun _ => hlon⟩))

theorem readable_of_coordinateErrors (h : coordinateErrors lat lon = .ok []) :
    (lat.isNull = true ∨ ∃ x, lat.toReal = .ok x) ∧ (lon.isNull = true ∨ ∃ y, lon.toReal = .ok y) := by
  obtain ⟨hlat, hlon⟩ | ⟨x, y, hx, hy, -⟩ := coordinateErrors_eq_ok_nil.mp h
  · exact ⟨.inl hlat, .inl hlon⟩
  · exact ⟨.inr ⟨x, hx⟩, .inr ⟨y, hy⟩⟩

/-- Coordinates that read as others do are in order if those are. -/
theorem coordinateErrors_of_reads {lat' lon' : Value}
    (hlat : lat'.isNull = lat.isNull ∧ lat'.toReal = lat.toReal)
    (hlon : lon'.isNull = lon.isNull ∧ lon'.toReal = lon.toReal)
    (h : coordinateErrors lat lon = .ok []) : coordinateErrors lat' lon' = .ok [] := by
  rw [coordinateErrors_eq_ok_nil, Located] at h ⊢
  rwa [hlat.1, hlat.2, hlon.1, hlon.2]

end

/-! ## Places -/

namespace Place

theorem check_eq_ok {p : Place} : p.check = .ok () ↔
    ¬(!p.id.isTruthy || Text.isBlank p.id.display) ∧ coordinateErrors p.latitude p.longitude = .ok [] := by
  rw [check, Result.guard_eq_ok, Result.bind_eq_ok]
  refine and_congr_right fun _ => ?_
  constructor
  · rintro ⟨errors, herrors, h⟩
    cases errors with
    | nil => exact herrors
    | cons e rest => cases h
  · exact fun h => ⟨[], h, rfl⟩

theorem checked_eq_ok {p q : Place} : p.checked = .ok q ↔ p = q ∧ p.check = .ok () := by
  rw [checked, Result.bind_eq_ok]
  constructor
  · rintro ⟨_, hcheck, h⟩
    exact ⟨Result.pure_eq_ok.mp h, hcheck⟩
  · rintro ⟨rfl, hcheck⟩
    exact ⟨(), hcheck, rfl⟩

theorem checked_of_check {p : Place} (h : p.check = .ok ()) : p.checked = .ok p :=
  checked_eq_ok.mpr ⟨rfl, h⟩

/-- A place whose identifier is a text is made if that is not blank and the coordinates are in order. -/
theorem check_of_text {p : Place} {id : String} (hid : p.id = .text id)
    (hblank : Text.isBlank id = false) (h : coordinateErrors p.latitude p.longitude = .ok []) :
    p.check = .ok () := by
  refine check_eq_ok.mpr ⟨?_, h⟩
  have hempty : id ≠ "" := by
    rintro rfl
    exact absurd hblank (by decide)
  simp [hid, Value.isTruthy, Value.display, hblank, hempty]

end Place

end Wayfare
