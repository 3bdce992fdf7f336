import Wayfare.Proofs.Decimal.Whole
import Wayfare.Proofs.Validation

/-! # What a record is asked for

A record is checked against the terms of its kind, one after the other. The
check gives a verdict exactly if what it reads can be read at all; the verdict
says whether the terms are kept, and if not, which is the first that is broken.
So a batch is sifted by the terms alone, unless there is a record in it that
cannot be judged.
-/

namespace Wayfare

open Wayfare.Calendar Wayfare.Decimal Wayfare.Text

/-! ## Values that cannot be read -/

namespace Value

variable {v : Value}

/-- A whole number that no real one is near. -/
def IsBeyondReals (v : Value) : Prop :=
  ∃ n : Int, v = int n ∧ (Float.ofInt n).isInf = true

/-- A real number that no whole one is near. -/
def IsInfinite (v : Value) : Prop :=
  ∃ x : Float, v = real x ∧ x.isInf = true

/-- A value that has entries to go through. -/
inductive HasEntries : Value → Prop
  | text (s : String) : HasEntries (text s)
  | list (items : List Value) : HasEntries (list items)
  | record (fields : Fields) : HasEntries (record fields)

/-- A value that can be written: no whole number in it has more digits than are written. -/
inductive Writable : Value → Prop
  | null : Writable null
  | bool (b : Bool) : Writable (bool b)
  | int {n : Int} (h : n.natAbs < 10 ^ Decimal.maxDigits) : Writable (int n)
  | real (x : Float) : Writable (real x)
  | text (s : String) : Writable (text s)
  | list {items : List Value} (h : ∀ v ∈ items, Writable v) : Writable (list items)
  | record {fields : Fields} (h : ∀ f ∈ fields, Writable f.2) : Writable (record fields)
  | moment (m : Moment) : Writable (moment m)

theorem Writable.of_lt {n : Int} (h : n.natAbs < Decimal.maxDigits) : (Value.int n).Writable :=
  .int (h.trans (Nat.lt_pow_self (by decide)))

theorem toReal_eq_tooLarge : v.toReal = .error .tooLarge ↔ v.IsBeyondReals := by
  cases v with
  | int n =>
      simp only [toReal, realOfInt, IsBeyondReals, int.injEq, exists_eq_left']
      split <;> simp [*]
  | text s => cases hread : readReal s <;> simp [toReal, hread, Result.ofOption, IsBeyondReals]
  | _ => simp [toReal, IsBeyondReals]

theorem intOfReal_eq_tooLarge {x : Float} : intOfReal x = .error .tooLarge ↔ x.isInf = true := by
  rw [intOfReal]
  split
  next hnan =>
    rw [isInf_iff, isNaN_iff.mp hnan]
    simp
  next hnumber =>
    have hwhole := wholePart?_eq_none (x := x)
    rw [or_iff_right hnumber] at hwhole
    rw [← hwhole]
    cases wholePart? x <;> simp [Result.ofOption]

theorem toInt_eq_tooLarge : v.toInt = .error .tooLarge ↔ v.IsInfinite := by
  cases v with
  | real x => simp [toInt, intOfReal_eq_tooLarge, IsInfinite]
  | text s => cases hread : readInt s <;> simp [toInt, hread, Result.ofOption, IsInfinite]
  | _ => simp [toInt, IsInfinite]

end Value

/-! ## Verdicts -/

/-- What a verdict says of terms, each with the code of its breach: it stands exactly if there is no reason
against it, which is to say if all terms are kept. It has no code then; else it has that of the first term
that is broken. -/
structure Verdict.Judges (v : Verdict) (terms : List (String × Prop)) : Prop where
  valid_iff_errors : v.valid = true ↔ v.errors = []
  valid_iff_kept : v.valid = true ↔ ∀ t ∈ terms, t.2
  code_of_valid : v.valid = true → v.code = ""
  code_of_broken : ∀ kept t rest, terms = kept ++ t :: rest → (∀ s ∈ kept, s.2) → ¬t.2 → v.code = t.1

namespace Verdict

/-- A check with its reasons, as the term that it is there for. -/
def Checks (check : String × List String) (term : String × Prop) : Prop :=
  check.1 = term.1 ∧ (check.2 = [] ↔ term.2)

variable {checks : List (String × List String)} {terms : List (String × Prop)}

theorem kept_iff_of_checks (h : List.Forall₂ Checks checks terms) :
    (∀ c ∈ checks, c.2 = []) ↔ ∀ t ∈ terms, t.2 := by
  induction h with
  | nil => simp
  | cons hhead _ ih => rw [List.forall_mem_cons, List.forall_mem_cons, hhead.2, ih]

/-- The first check with a reason is that of the first term that is broken. -/
theorem find?_of_checks {kept rest : List (String × Prop)} {t : String × Prop}
    (h : List.Forall₂ Checks checks (kept ++ t :: rest)) (hkept : ∀ s ∈ kept, s.2) (ht : ¬t.2) :
    (checks.find? fun c => !c.2.isEmpty).map (·.1) = some t.1 := by
  induction kept generalizing checks with
  | nil =>
      obtain ⟨c, checks, hc, -, rfl⟩ := List.forall₂_cons_right_iff.mp h
      have hfails : (!c.2.isEmpty) = true := by simpa [hc.2] using ht
      rw [List.find?_cons, hfails, Option.map_some, hc.1]
  | cons s kept ih =>
      obtain ⟨c, checks, hc, hrest, rfl⟩ := List.forall₂_cons_right_iff.mp h
      obtain ⟨hs, hkept⟩ := List.forall_mem_cons.mp hkept
      have hpasses : (!c.2.isEmpty) = false := by simpa [hc.2] using hs
      rw [List.find?_cons, hpasses]
      exact ih hrest hkept

theorem judges_ofChecks (h : List.Forall₂ Checks checks terms) : (ofChecks checks).Judges terms where
  valid_iff_errors := List.isEmpty_iff
  valid_iff_kept := valid_ofChecks.trans (kept_iff_of_checks h)
  code_of_valid hvalid := by
    have hnone : (checks.find? fun c => !c.2.isEmpty) = none := by
      rw [List.find?_eq_none]
      intro c hc
      simp [valid_ofChecks.mp hvalid c hc]
    simp [ofChecks, hnone]
  code_of_broken kept t rest hterms hkept ht := by
    subst hterms
    simp [ofChecks, find?_of_checks h hkept ht]

end Verdict

/-! ## Kinds of records -/

/-- The kinds of records that are checked. -/
inductive RecordKind where
  | place
  | booking
  | request

namespace RecordKind

def check : RecordKind → Fields → Result Verdict
  | place => Validation.place
  | booking => Validation.booking
  | request => Validation.request

/-- A field that has to be filled is neither absent nor blank. -/
def Filled (v : Value) : Prop :=
  v.isNull = false ∧ isBlank v.display = false

/-- A start is a moment, and an end, if there is one, is a moment no earlier. -/
def Timed (start finish : Value) : Prop :=
  ∃ a, start = .moment a ∧
    (finish = .null ∨ ∃ b : Moment, finish = .moment b ∧ b.before? a = some false)

/-- Some destination is neither blank nor counts as not given. -/
def Headed (v : Value) : Prop :=
  v.isTruthy = true ∧ ∃ given, Validation.entries v = .ok given ∧
    ∃ d ∈ given, d.isTruthy = true ∧ isBlank d.display = false

/-- What is asked of a record, in the order in which it is asked, with the code of each breach. -/
def terms (record : Fields) : RecordKind → List (String × Prop)
  | place =>
      [("ERROR_MISSING_PLACE_ID", Filled (record.field "place_id")),
       ("ERROR_MISSING_PLACE_NAME", Filled (record.field "name")),
       ("ERROR_INVALID_COORDINATES", Located (record.field "latitude") (record.field "longitude")),
       ("ERROR_INVALID_RATING", (record.field "rating").isNull = true ∨
          ∃ x, (record.field "rating").toReal = .ok x ∧ 0.0 ≤ x ∧ x ≤ 5.0),
       ("ERROR_INVALID_REVIEW_COUNT", (record.field "review_count").isNull = true ∨
          ∃ n, (record.field "review_count").toInt = .ok n ∧ 0 ≤ n)]
  | booking =>
      [("ERROR_INVALID_SCHEDULE", Filled (record.field "title")),
       ("ERROR_INVALID_SCHEDULE", Timed (record.field "start_time") (record.field "end_time")),
       ("ERROR_INVALID_COORDINATES", Located (record.field "latitude") (record.field "longitude"))]
  | request =>
      [("ERROR_MISSING_THREAD_ID", Filled (record.field "thread_id")),
       ("ERROR_MISSING_DESTINATION", Headed (record.field "destinations")),
       ("ERROR_INVALID_TRIP_DAYS", ∃ n, (record.field "trip_days").toInt = .ok n ∧ 0 < n)]

/-- A pair of coordinates can be judged if one of them is absent, or no whole number beyond the real ones
is met in reading them. -/
def PairJudgeable (lat lon : Value) : Prop :=
  lat.isNull = true ∨ lon.isNull = true ∨
    ¬lat.IsBeyondReals ∧ ((∃ x, lat.toReal = .ok x) → ¬lon.IsBeyondReals)

/-- When a check has an outcome: no number that is read is out of range, moments that are ordered can be,
and destinations that are gone through have entries. -/
def Judgeable (record : Fields) : RecordKind → Prop
  | place =>
      PairJudgeable (record.field "latitude") (record.field "longitude") ∧
        ¬(record.field "rating").IsBeyondReals ∧ ¬(record.field "review_count").IsInfinite
  | booking =>
      (∀ a b, record.field "start_time" = .moment a → record.field "end_time" = .moment b →
          b.comparable a = true) ∧
        PairJudgeable (record.field "latitude") (record.field "longitude")
  | request =>
      ((record.field "destinations").isTruthy = true → (record.field "destinations").HasEntries) ∧
        ¬(record.field "trip_days").IsInfinite

variable {record : Fields} {v : Verdict} {kind : RecordKind}

/-! ## Single checks -/

theorem pairJudgeable_iff {lat lon : Value} :
    (∃ errors, coordinateErrors lat lon = .ok errors) ↔ PairJudgeable lat lon := by
  rw [exists_coordinateErrors_iff, PairJudgeable, Ne, Ne, Value.toReal_eq_tooLarge,
    Value.toReal_eq_tooLarge]

/-- A check of a number that is absent reads nothing, so only a number beyond all range leaves it without
an outcome. -/
theorem exists_numberErrors_iff {α : Type} {v : Value} {read : Value → Result α}
    {judge : α → List String} {unreadable : String} (hnull : read .null ≠ .error .tooLarge) :
    (∃ errors, Validation.numberErrors v read judge unreadable = .ok errors) ↔
      read v ≠ .error .tooLarge := by
  refine ⟨?_, Validation.exists_numberErrors⟩
  rintro ⟨errors, h⟩ hlarge
  rw [Validation.numberErrors] at h
  split at h
  next habsent =>
    cases v with
    | null => exact hnull hlarge
    | _ => cases habsent
  next => simp [hlarge] at h

theorem exists_ratingErrors_iff {v : Value} :
    (∃ errors, Validation.ratingErrors v = .ok errors) ↔ ¬v.IsBeyondReals := by
  rw [← Value.toReal_eq_tooLarge]
  exact exists_numberErrors_iff (by decide)

theorem exists_reviewErrors_iff {v : Value} :
    (∃ errors, Validation.reviewErrors v = .ok errors) ↔ ¬v.IsInfinite := by
  rw [← Value.toInt_eq_tooLarge]
  exact exists_numberErrors_iff (by decide)

theorem exists_tripDaysErrors_iff {v : Value} :
    (∃ errors, Validation.tripDaysErrors v = .ok errors) ↔ ¬v.IsInfinite := by
  rw [← Value.toInt_eq_tooLarge, Validation.tripDaysErrors]
  split
  next habsent =>
    cases v with
    | null => simp [Value.toInt]
    | _ => cases habsent
  next => exact exists_numberErrors_iff (by decide)

theorem timeErrors_eq_ok_nil {start finish : Value} :
    Validation.timeErrors start finish = .ok [] ↔ Timed start finish := by
  unfold Timed
  cases start with
  | moment a =>
      cases finish with
      | moment b =>
          cases hbefore : b.before? a with
          | none => simp [Validation.timeErrors, hbefore]
          | some earlier => cases earlier <;> simp [Validation.timeErrors, hbefore]
      | _ => simp [Validation.timeErrors]
  | _ => simp [Validation.timeErrors]

theorem exists_timeErrors_iff {start finish : Value} :
    (∃ errors, Validation.timeErrors start finish = .ok errors) ↔
      ∀ a b, start = .moment a → finish = .moment b → b.comparable a = true := by
  cases start with
  | moment a =>
      cases finish with
      | moment b =>
          cases hcomparable : b.comparable a with
          | false => simp [Validation.timeErrors, Moment.before?, hcomparable]
          | true =>
              by_cases hearlier : b.instant < a.instant
              · simp [Validation.timeErrors, Moment.before?, hcomparable, hearlier]
              · simp [Validation.timeErrors, Moment.before?, hcomparable, hearlier]
      | _ => simp [Validation.timeErrors]
  | _ => simp [Validation.timeErrors]

theorem hasEntries_iff {v : Value} :
    (∃ given, Validation.entries v = .ok given) ↔ v.HasEntries := by
  constructor
  · rintro ⟨given, h⟩
    cases v with
    | text s => exact .text s
    | list items => exact .list items
    | record fields => exact .record fields
    | _ => cases h
  · rintro (_ | _ | _) <;> exact ⟨_, rfl⟩

theorem destinationErrors_eq_ok_nil {v : Value} :
    Validation.destinationErrors v = .ok [] ↔ Headed v := by
  rw [Validation.destinationErrors, Headed]
  by_cases htruthy : v.isTruthy = true
  · rw [if_pos htruthy, Result.bind_eq_ok, and_iff_right htruthy]
    refine exists_congr fun given => and_congr_right fun _ => ?_
    dsimp only
    split
    next hany => simpa [Result.pure_eq_ok] using hany
    next hnone => simpa [Result.pure_eq_ok] using hnone
  · rw [if_neg htruthy, Result.ok_bind]
    simp [htruthy, Result.pure_eq_ok]

theorem exists_destinationErrors_iff {v : Value} :
    (∃ errors, Validation.destinationErrors v = .ok errors) ↔
      (v.isTruthy = true → v.HasEntries) := by
  rw [← hasEntries_iff, Validation.destinationErrors]
  by_cases htruthy : v.isTruthy = true
  · rw [if_pos htruthy, imp_iff_right htruthy]
    constructor
    · rintro ⟨errors, h⟩
      obtain ⟨given, hgiven, -⟩ := Result.bind_eq_ok.mp h
      exact ⟨given, hgiven⟩
    · intro hgiven
      refine Result.exists_bind_eq_ok hgiven fun given _ => ?_
      dsimp only
      split <;> exact ⟨_, rfl⟩
  · rw [if_neg htruthy, Result.ok_bind]
    exact ⟨fun _ h => absurd h htruthy, fun _ => ⟨_, rfl⟩⟩

/-! ## Records -/

/-- The reasons that a check finds are none exactly if the check finds none. -/
theorem eq_nil_iff {x : Result (List String)} {errors : List String} {p : Prop} (h : x = .ok errors)
    (hp : x = .ok [] ↔ p) : errors = [] ↔ p := by
  rw [← hp, h, Except.ok.injEq]

theorem judges (h : kind.check record = .ok v) : v.Judges (kind.terms record) := by
  cases kind with
  | place =>
      obtain ⟨coordinates, hcoordinates, h⟩ := Result.bind_eq_ok.mp h
      obtain ⟨rating, hrating, h⟩ := Result.bind_eq_ok.mp h
      obtain ⟨reviews, hreviews, h⟩ := Result.bind_eq_ok.mp h
      rw [Result.pure_eq_ok] at h
      subst h
      exact Verdict.judges_ofChecks
        (.cons ⟨rfl, Validation.missingText_eq_nil⟩ <| .cons ⟨rfl, Validation.missingText_eq_nil⟩ <|
          .cons ⟨rfl, eq_nil_iff hcoordinates coordinateErrors_eq_ok_nil⟩ <|
          .cons ⟨rfl, eq_nil_iff hrating Validation.ratingErrors_eq_ok_nil⟩ <|
          .cons ⟨rfl, eq_nil_iff hreviews Validation.reviewErrors_eq_ok_nil⟩ .nil)
  | booking =>
      obtain ⟨times, htimes, h⟩ := Result.bind_eq_ok.mp h
      obtain ⟨coordinates, hcoordinates, h⟩ := Result.bind_eq_ok.mp h
      rw [Result.pure_eq_ok] at h
      subst h
      exact Verdict.judges_ofChecks
        (.cons ⟨rfl, Validation.missingText_eq_nil⟩ <|
          .cons ⟨rfl, eq_nil_iff htimes timeErrors_eq_ok_nil⟩ <|
          .cons ⟨rfl, eq_nil_iff hcoordinates coordinateErrors_eq_ok_nil⟩ .nil)
  | request =>
      obtain ⟨destinations, hdestinations, h⟩ := Result.bind_eq_ok.mp h
      obtain ⟨days, hdays, h⟩ := Result.bind_eq_ok.mp h
      rw [Result.pure_eq_ok] at h
      subst h
      exact Verdict.judges_ofChecks
        (.cons ⟨rfl, Validation.missingText_eq_nil⟩ <|
          .cons ⟨rfl, eq_nil_iff hdestinations destinationErrors_eq_ok_nil⟩ <|
          .cons ⟨rfl, eq_nil_iff hdays Validation.tripDaysErrors_eq_ok_nil⟩ .nil)

theorem judgeable_iff : (∃ v, kind.check record = .ok v) ↔ kind.Judgeable record := by
  cases kind with
  | place =>
      rw [Judgeable, ← pairJudgeable_iff, ← exists_ratingErrors_iff, ← exists_reviewErrors_iff]
      constructor
      · rintro ⟨v, h⟩
        obtain ⟨coordinates, hcoordinates, h⟩ := Result.bind_eq_ok.mp h
        obtain ⟨rating, hrating, h⟩ := Result.bind_eq_ok.mp h
        obtain ⟨reviews, hreviews, h⟩ := Result.bind_eq_ok.mp h
        exact ⟨⟨_, hcoordinates⟩, ⟨_, hrating⟩, ⟨_, hreviews⟩⟩
      · rintro ⟨⟨coordinates, hcoordinates⟩, ⟨rating, hrating⟩, ⟨reviews, hreviews⟩⟩
        rw [check, Validation.place, hcoordinates, hrating, hreviews]
        exact ⟨_, rfl⟩
  | booking =>
      rw [Judgeable, ← pairJudgeable_iff, ← exists_timeErrors_iff]
      constructor
      · rintro ⟨v, h⟩
        obtain ⟨times, htimes, h⟩ := Result.bind_eq_ok.mp h
        obtain ⟨coordinates, hcoordinates, h⟩ := Result.bind_eq_ok.mp h
        exact ⟨⟨_, htimes⟩, ⟨_, hcoordinates⟩⟩
      · rintro ⟨⟨times, htimes⟩, ⟨coordinates, hcoordinates⟩⟩
        rw [check, Validation.booking, htimes, hcoordinates]
        exact ⟨_, rfl⟩
  | request =>
      rw [Judgeable, ← exists_destinationErrors_iff, ← exists_tripDaysErrors_iff]
      constructor
      · rintro ⟨v, h⟩
        obtain ⟨destinations, hdestinations, h⟩ := Result.bind_eq_ok.mp h
        obtain ⟨days, hdays, h⟩ := Result.bind_eq_ok.mp h
        exact ⟨⟨_, hdestinations⟩, ⟨_, hdays⟩⟩
      · rintro ⟨⟨destinations, hdestinations⟩, ⟨days, hdays⟩⟩
        rw [check, Validation.request, hdestinations, hdays]
        exact ⟨_, rfl⟩

end RecordKind

/-! ## Batches -/

namespace Validation

variable {α : Type} {check : Fields → Result Verdict} {recordOf : α → Fields} {items : List α}

/-- A batch is sifted exactly if every record in it gets a verdict. -/
theorem exists_filter_iff : (∃ sifted, filter check recordOf items = .ok sifted) ↔
    ∀ item ∈ items, ∃ v, check (recordOf item) = .ok v := by
  constructor
  · rintro ⟨sifted, h⟩ item hitem
    obtain ⟨judged, hjudged, -⟩ := Result.bind_eq_ok.mp h
    obtain ⟨_, -, hpair⟩ := Result.exists_eq_ok_of_mapM hjudged hitem
    obtain ⟨v, hv, -⟩ := Result.bind_eq_ok.mp hpair
    exact ⟨v, hv⟩
  · intro h
    refine Result.exists_bind_eq_ok (Result.exists_mapM_eq_ok fun item hitem => ?_) fun _ _ => ⟨_, rfl⟩
    obtain ⟨v, hv⟩ := h item hitem
    exact ⟨(item, v), Result.bind_eq_ok.mpr ⟨v, hv, rfl⟩⟩

theorem filter_eq_of_judged {judged : List (α × Verdict)} {meets : α → Bool}
    (h : List.Forall₂ (fun item pair => pair.1 = item ∧ pair.2.valid = meets item) items judged) :
    (judged.filter (·.2.valid)).map (·.1) = items.filter meets := by
  induction h with
  | nil => rfl
  | cons hhead _ ih =>
      rw [List.filter_cons, List.filter_cons, hhead.2]
      split
      · rw [List.map_cons, hhead.1, ih]
      · exact ih

/-- What passes is kept in order, and nothing else. -/
theorem kept_of_filter {kept : List α} {warnings : List String} {meets : α → Bool}
    (h : filter check recordOf items = .ok (kept, warnings))
    (hmeets : ∀ item ∈ items, ∀ v, check (recordOf item) = .ok v → v.valid = meets item) :
    kept = items.filter meets := by
  obtain ⟨judged, hjudged, h⟩ := Result.bind_eq_ok.mp h
  rw [Result.pure_eq_ok, Prod.mk.injEq] at h
  rw [← h.1]
  refine filter_eq_of_judged (Result.forall₂_of_mapM hjudged fun item hitem pair hpair => ?_)
  obtain ⟨v, hv, hpair⟩ := Result.bind_eq_ok.mp hpair
  rw [Result.pure_eq_ok] at hpair
  subst hpair
  exact ⟨rfl, hmeets item hitem v hv⟩

end Validation

/-- How records are judged and batches sifted. A record whose values can be written gets a verdict exactly
if it is judgeable, a verdict judges the record by the terms of its kind, and a batch is sifted exactly if
all its records are judgeable, and then the items whose records keep the terms remain, in order. -/
theorem RecordKind.check_outcome_iff (kind : RecordKind) :
    (∀ record : Fields, (∀ f ∈ record, f.2.Writable) →
      ((∃ v, kind.check record = .ok v) ↔ kind.Judgeable record)) ∧
    (∀ record v, kind.check record = .ok v → v.Judges (kind.terms record)) ∧
    ∀ {α : Type} (recordOf : α → Fields) (items : List α),
      (∀ item ∈ items, ∀ f ∈ recordOf item, f.2.Writable) →
      ((∃ sifted, Validation.filter kind.check recordOf items = .ok sifted) ↔
        ∀ item ∈ items, kind.Judgeable (recordOf item)) ∧
      ∀ kept warnings, Validation.filter kind.check recordOf items = .ok (kept, warnings) →
        ∃ meets : α → Bool,
          (∀ item ∈ items, meets item = true ↔ ∀ t ∈ kind.terms (recordOf item), t.2) ∧
          kept = items.filter meets := by
  refine ⟨fun record _ => judgeable_iff, fun record v h => judges h, ?_⟩
  intro α recordOf items _
  refine ⟨?_, fun kept warnings h => ?_⟩
  · rw [Validation.exists_filter_iff]
    exact forall₂_congr fun item _ => judgeable_iff
  · classical
    refine ⟨fun item => decide (∀ t ∈ kind.terms (recordOf item), t.2),
      fun item _ => decide_eq_true_iff, Validation.kept_of_filter h fun item _ v hv => ?_⟩
    rw [Bool.eq_iff_iff, decide_eq_true_iff]
    exact (judges hv).valid_iff_kept

/-- A rating above five is the one reason against a record, and only such records are dropped from a
batch. -/
theorem RecordKind.check_outcome_iff_rating :
    let excellent : Fields := [("place_id", .text "a"), ("name", .text "a"), ("rating", .int 9)]
    let tower : Fields :=
      [("place_id", .int 7), ("name", .text "tower"), ("latitude", .text "48.86"),
        ("longitude", .real 2.25)]
    (∃ v, Validation.place excellent = .ok v ∧ v.code = "ERROR_INVALID_RATING") ∧
      ∃ warnings, Validation.filter Validation.place id [excellent, tower, excellent] =
        .ok ([tower], warnings) := by
  intro excellent tower
  obtain ⟨hverdict, hjudges, hfilter⟩ := check_outcome_iff .place
  have hwritable : ∀ f ∈ excellent, f.2.Writable := by
    simp only [excellent, List.forall_mem_cons]
    exact ⟨.text _, .text _, .of_lt (by decide), nofun⟩
  have hwritable' : ∀ f ∈ tower, f.2.Writable := by
    simp only [tower, List.forall_mem_cons]
    exact ⟨.of_lt (by decide), .text _, .text _, .real _, nofun⟩
  have hnine : ¬(Value.int 9).IsBeyondReals := by
    rintro ⟨n, ⟨⟩, hinf⟩
    exact absurd hinf (by decide +kernel)
  have hjudgeable : RecordKind.place.Judgeable excellent :=
    ⟨.inl rfl, hnine, fun ⟨_, h, _⟩ => nomatch h⟩
  have hjudgeable' : RecordKind.place.Judgeable tower :=
    ⟨.inr (.inr ⟨fun ⟨_, h, _⟩ => (nomatch h), fun _ ⟨_, h, _⟩ => nomatch h⟩),
      fun ⟨_, h, _⟩ => (nomatch h), fun ⟨_, h, _⟩ => nomatch h⟩
  have hid : Filled (.text "a") := ⟨rfl, by decide⟩
  have hbroken : ¬((Value.int 9).isNull = true ∨
      ∃ x, (Value.int 9).toReal = .ok x ∧ 0.0 ≤ x ∧ x ≤ 5.0) := by
    rw [← Validation.ratingErrors_eq_ok_nil]
    decide +kernel
  have hkept : ∀ t ∈ RecordKind.place.terms tower, t.2 := by
    simp only [terms, List.forall_mem_cons]
    exact ⟨⟨rfl, by decide⟩, ⟨rfl, by decide⟩, coordinateErrors_eq_ok_nil.mp (by decide +kernel),
      .inl rfl, .inl rfl, nofun⟩
  have hnotKept : ¬∀ t ∈ RecordKind.place.terms excellent, t.2 := by
    simp only [terms, List.forall_mem_cons]
    exact fun h => hbroken h.2.2.2.1
  constructor
  · obtain ⟨v, hv⟩ := (hverdict excellent hwritable).mpr hjudgeable
    refine ⟨v, hv, (hjudges excellent v hv).code_of_broken [_, _, _] _ [_] rfl ?_ hbroken⟩
    simp only [List.forall_mem_cons]
    exact ⟨hid, hid, .inl ⟨rfl, rfl⟩, nofun⟩
  · obtain ⟨hsifted, hmeets⟩ := hfilter id [excellent, tower, excellent] <| by
      simp only [List.forall_mem_cons, id]
      exact ⟨hwritable, hwritable', hwritable, nofun⟩
    obtain ⟨⟨kept, warnings⟩, h⟩ := hsifted.mpr <| by
      simp only [List.forall_mem_cons, id]
      exact ⟨hjudgeable, hjudgeable', hjudgeable, nofun⟩
    obtain ⟨meets, hmeets, rfl⟩ := hmeets kept warnings h
    simp only [List.forall_mem_cons, id] at hmeets
    have hexcellent : meets excellent = false :=
      Bool.eq_false_iff.mpr (hmeets.1.not.mpr hnotKept)
    have htower : meets tower = true := hmeets.2.1.mpr hkept
    refine ⟨warnings, ?_⟩
    rw [List.filter_cons, List.filter_cons, List.filter_cons, hexcellent, htower] at h
    exact h

/-- Records without a verdict: a place whose reviews are beyond counting, a booking that ends by another
clock than it starts, and a trip to a number. One such place leaves its batch without an outcome. -/
theorem Validation.records_without_verdict :
    let date : Date := ⟨739000, by decide, by decide⟩
    let cafe : Fields := [("place_id", .text "b"), ("name", .text "b")]
    let famous : Fields :=
      [("place_id", .text "a"), ("name", .text "a"), ("review_count", .real (1.0 / 0.0))]
    let flight : Fields :=
      [("title", .text "KE 1"), ("start_time", .moment ⟨date, 8 * hour, none, by decide⟩),
        ("end_time", .moment ⟨date, 14 * hour, some (9 * hour), by decide⟩)]
    let trip : Fields := [("thread_id", .text "t"), ("destinations", .int 5), ("trip_days", .int 2)]
    place famous = .error .tooLarge ∧ booking flight = .error .wrongKind ∧
      request trip = .error .wrongKind ∧ ¬∃ sifted, filter place id [cafe, famous] = .ok sifted := by
  intro date cafe famous flight trip
  have hfamous : place famous = .error .tooLarge := by decide +kernel
  refine ⟨hfamous, by decide +kernel, by decide +kernel, fun h => ?_⟩
  obtain ⟨v, hv⟩ := exists_filter_iff.mp h famous (by simp)
  rw [id, hfamous] at hv
  cases hv

end Wayfare
