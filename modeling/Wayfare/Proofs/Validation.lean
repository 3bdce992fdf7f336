import Wayfare.Proofs.Place.Construction
import Wayfare.Validation

/-! # What a record that passes its checks is like

A verdict stands when no check has a reason against the record. A check of a
number has none when the number is absent, or can be read and is in order; the
only number on which it has no outcome is one beyond all range.
-/

namespace Wayfare

theorem Verdict.valid_ofChecks {checks : List (String × List String)} :
    (ofChecks checks).valid = true ↔ ∀ c ∈ checks, c.2 = [] := by
  rw [ofChecks, List.isEmpty_iff, List.flatMap_eq_nil_iff]

theorem Verdict.require_eq_ok {v : Verdict} {code : Option String} :
    v.require code = .ok () ↔ v.valid = true := by
  rw [require]
  split
  next hvalid => exact ⟨fun _ => hvalid, fun _ => rfl⟩
  next hnot => exact ⟨fun h => (by cases h), fun hvalid => absurd hvalid hnot⟩

/-- Whoever is refused learns the reasons. -/
theorem Verdict.require_of_not_valid {v : Verdict} (h : ¬ v.valid = true) (code : Option String) :
    ∃ code', v.require code = .error (.rejected code' v.errors) := by
  rw [require, if_neg h]
  exact ⟨_, rfl⟩

namespace Validation

section

variable {α : Type} {v : Value} {read : Value → Result α} {judge : α → List String}
  {unreadable : String}

theorem numberErrors_eq_ok_nil : numberErrors v read judge unreadable = .ok [] ↔
    v.isNull = true ∨ ∃ x, read v = .ok x ∧ judge x = [] := by
  rw [numberErrors]
  by_cases hnull : v.isNull = true
  · simp [hnull]
  · rw [if_neg hnull]
    cases hread : read v with
    | ok x => simp [hnull]
    | error fault => cases fault <;> simp [hnull]

theorem exists_numberErrors (h : read v ≠ .error .tooLarge) :
    ∃ errors, numberErrors v read judge unreadable = .ok errors := by
  rw [numberErrors]
  split
  next => exact ⟨_, rfl⟩
  next =>
    split
    next => exact ⟨_, rfl⟩
    next hlarge => exact absurd hlarge h
    next => exact ⟨_, rfl⟩

end

theorem missingText_eq_nil {record : Fields} {name : String} : missingText record name = [] ↔
    (record.field name).isNull = false ∧ Text.isBlank (record.field name).display = false := by
  simp only [missingText]
  split
  next hmissing =>
    rw [Bool.or_eq_true] at hmissing
    rcases hmissing with hnull | hblank
    · simp [hnull]
    · simp [hblank]
  next hgiven =>
    rw [Bool.not_eq_true, Bool.or_eq_false_iff] at hgiven
    simp [hgiven]

theorem ratingErrors_eq_ok_nil {v : Value} : ratingErrors v = .ok [] ↔
    v.isNull = true ∨ ∃ x, v.toReal = .ok x ∧ 0.0 ≤ x ∧ x ≤ 5.0 := by
  rw [ratingErrors, numberErrors_eq_ok_nil]
  simp only [ite_eq_left_iff, List.cons_ne_nil, imp_false, not_not]

theorem reviewErrors_eq_ok_nil {v : Value} : reviewErrors v = .ok [] ↔
    v.isNull = true ∨ ∃ n, v.toInt = .ok n ∧ 0 ≤ n := by
  rw [reviewErrors, numberErrors_eq_ok_nil]
  simp only [ite_eq_right_iff, List.cons_ne_nil, imp_false, Int.not_lt]

/-- The record of a place passes every check. -/
structure Passes (record : Fields) : Prop where
  id : missingText record "place_id" = []
  name : missingText record "name" = []
  coordinates : coordinateErrors (record.field "latitude") (record.field "longitude") = .ok []
  rating : ratingErrors (record.field "rating") = .ok []
  reviews : reviewErrors (record.field "review_count") = .ok []

variable {record : Fields} {v : Verdict}

theorem Passes.place_eq (h : Passes record) : place record = .ok { valid := true } := by
  rw [place, h.coordinates, h.rating, h.reviews, h.id, h.name]
  rfl

theorem passes_of_valid (h : place record = .ok v) (hvalid : v.valid = true) : Passes record := by
  obtain ⟨coordinates, hcoordinates, h⟩ := Result.bind_eq_ok.mp h
  obtain ⟨rating, hrating, h⟩ := Result.bind_eq_ok.mp h
  obtain ⟨reviews, hreviews, h⟩ := Result.bind_eq_ok.mp h
  rw [Result.pure_eq_ok] at h
  subst h
  simp only [Verdict.valid_ofChecks, List.forall_mem_cons] at hvalid
  obtain ⟨hid, hname, rfl, rfl, rfl, _⟩ := hvalid
  exact ⟨hid, hname, hcoordinates, hrating, hreviews⟩

/-- None of the numbers of a record of a place is beyond all range. -/
structure InRange (record : Fields) : Prop where
  latitude : (record.field "latitude").toReal ≠ .error .tooLarge
  longitude : (record.field "longitude").toReal ≠ .error .tooLarge
  rating : (record.field "rating").toReal ≠ .error .tooLarge
  reviews : (record.field "review_count").toInt ≠ .error .tooLarge

theorem InRange.exists_place (h : InRange record) : ∃ v, place record = .ok v := by
  refine Result.exists_bind_eq_ok (exists_coordinateErrors h.latitude h.longitude) fun _ _ => ?_
  refine Result.exists_bind_eq_ok (exists_numberErrors h.rating) fun _ _ => ?_
  exact Result.exists_bind_eq_ok (exists_numberErrors h.reviews) fun _ _ => ⟨_, rfl⟩

/-! ## Trip requests -/

theorem tripDaysErrors_eq_ok_nil {v : Value} :
    tripDaysErrors v = .ok [] ↔ ∃ n, v.toInt = .ok n ∧ 0 < n := by
  rw [tripDaysErrors]
  by_cases hnull : v.isNull = true
  · rw [if_pos hnull]
    cases v <;> simp [Value.isNull, Value.toInt] at hnull ⊢
  · rw [if_neg hnull, numberErrors_eq_ok_nil]
    simp only [hnull, ite_eq_right_iff, List.cons_ne_nil, imp_false, Int.not_le, false_or,
      Bool.false_eq_true]

/-- The record of a trip request passes every check. -/
structure PassesRequest (record : Fields) : Prop where
  thread : missingText record "thread_id" = []
  destinations : destinationErrors (record.field "destinations") = .ok []
  days : tripDaysErrors (record.field "trip_days") = .ok []

theorem passesRequest_of_valid (h : request record = .ok v) (hvalid : v.valid = true) :
    PassesRequest record := by
  obtain ⟨destinations, hdestinations, h⟩ := Result.bind_eq_ok.mp h
  obtain ⟨days, hdays, h⟩ := Result.bind_eq_ok.mp h
  rw [Result.pure_eq_ok] at h
  subst h
  simp only [Verdict.valid_ofChecks, List.forall_mem_cons] at hvalid
  obtain ⟨hthread, rfl, rfl, _⟩ := hvalid
  exact ⟨hthread, hdestinations, hdays⟩

end Validation

end Wayfare
