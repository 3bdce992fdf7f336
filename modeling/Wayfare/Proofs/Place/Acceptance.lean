import Mathlib
import Wayfare.Intake
import Wayfare.Proofs.Place.Decoding
import Wayfare.Proofs.Validation.Terms

/-! # From accepted records to places

The checks of a record, the decoding and the wire each decide for themselves
what a field may hold. A record that passes the checks becomes a place that
passes them too and has a wire form, if its identifier and its name count as
given as they stand, its source is known, and the wire can carry its price
level and its opening; and only then.
-/

namespace Wayfare

namespace Wire

variable {slots : List Slot} {name own : String}

theorem exists_record_iff :
    (∃ v, record slots = .ok v) ↔ ∀ s ∈ slots, s.mismatches = [] := by
  rw [record]
  split
  next hnone =>
    rw [List.isEmpty_iff, List.flatMap_eq_nil_iff] at hnone
    exact ⟨fun _ => hnone, fun _ => ⟨_, rfl⟩⟩
  next hsome =>
    rw [List.isEmpty_iff, List.flatMap_eq_nil_iff] at hsome
    exact ⟨fun ⟨_, h⟩ => (by cases h), fun h => absurd h hsome⟩

theorem mismatches_given {v : Except Mismatch Value} :
    (given name own v).mismatches = [] ↔ ∃ w, v = .ok w := by
  cases v <;> simp [given, Slot.mismatches, Except.mapError]

theorem mismatches_plain (v : Value) : (plain name v).mismatches = [] :=
  rfl

end Wire

namespace Place

open Value

/-! ## Fields -/

section

variable {v w : Value}

/-- A field that may be absent stays so, or is what it reads as. -/
theorem ifGiven_eq_ok {α : Type} {read : Value → Result α} {wrap : α → Value} :
    (if v.isNull then .ok .null else wrap <$> read v) = .ok w ↔
      (v.isNull = true ∧ w = .null) ∨ v.isNull = false ∧ ∃ x, read v = .ok x ∧ wrap x = w := by
  cases hnull : v.isNull with
  | true =>
      rw [if_pos rfl, Except.ok.injEq]
      simp [eq_comm]
  | false =>
      rw [if_neg Bool.false_ne_true, Result.map_eq_ok]
      simp

theorem numberOf_reads (h : numberOf v = .ok w) : w.isNull = v.isNull ∧ w.toReal = v.toReal := by
  rcases ifGiven_eq_ok.mp h with ⟨hnull, rfl⟩ | ⟨hgiven, x, hx, rfl⟩
  · rw [eq_null_of_isNull hnull]
    exact ⟨rfl, rfl⟩
  · exact ⟨hgiven.symm, hx.symm⟩

theorem countOf_reads (h : countOf v = .ok w) : w.isNull = v.isNull ∧ w.toInt = v.toInt := by
  rcases ifGiven_eq_ok.mp h with ⟨hnull, rfl⟩ | ⟨hgiven, n, hn, rfl⟩
  · rw [eq_null_of_isNull hnull]
    exact ⟨rfl, rfl⟩
  · exact ⟨hgiven.symm, hn.symm⟩

theorem exists_ifGiven {α : Type} {read : Value → Result α} {wrap : α → Value}
    (h : v.isNull = true ∨ ∃ x, read v = .ok x) :
    ∃ w, (if v.isNull then .ok .null else wrap <$> read v) = .ok w := by
  cases hnull : v.isNull with
  | true => exact ⟨.null, rfl⟩
  | false =>
      obtain ⟨x, hx⟩ := h.resolve_left (by rw [hnull]; exact Bool.false_ne_true)
      exact ⟨wrap x, Result.map_eq_ok.mpr ⟨x, hx, rfl⟩⟩

/-- A number that was read is one that the wire takes. -/
theorem exists_lenientReal (h : numberOf v = .ok w) :
    ∃ x, Wire.optional Wire.lenientReal w = .ok x := by
  rcases ifGiven_eq_ok.mp h with ⟨_, rfl⟩ | ⟨_, x, _, rfl⟩ <;> exact ⟨_, rfl⟩

theorem exists_lenientInt (h : countOf v = .ok w) :
    ∃ x, Wire.optional Wire.lenientInt w = .ok x := by
  rcases ifGiven_eq_ok.mp h with ⟨_, rfl⟩ | ⟨_, n, _, rfl⟩ <;> exact ⟨_, rfl⟩

/-- A text field is not blank if what it was made from counts as given and does not read as blank. -/
theorem isBlank_textOf : Text.isBlank (textOf v).display = false ↔
    v.isTruthy = true ∧ Text.isBlank v.display = false := by
  rw [textOf]
  by_cases htruthy : v.isTruthy = true
  · simp [htruthy, display]
  · have hempty : Text.isBlank "" = true := by decide
    simp [htruthy, display, hempty]

theorem missingText_text {record : Fields} {name s : String} (hfield : record.field name = .text s) :
    Validation.missingText record name = [] ↔ Text.isBlank s = false := by
  rw [Validation.missingText_eq_nil, hfield]
  simp [isNull, display]

theorem sourceNamed_name (source : Source) : sourceNamed (.text source.name) = .ok source := by
  cases source <;> rfl

/-- A source is read unless something is named that is no source. -/
theorem exists_sourceOf_iff :
    (∃ source, sourceOf v = .ok source) ↔
      v.isTruthy = false ∨ ∃ source : Source, v = .text source.name := by
  rw [sourceOf]
  by_cases htruthy : v.isTruthy = true
  · rw [if_pos htruthy]
    constructor
    · rintro ⟨source, h⟩
      refine .inr ⟨source, ?_⟩
      cases v with
      | text s =>
          have hfind := Result.ofOption_eq_ok.mp h
          have hname := List.find?_some hfind
          rw [eq_of_beq hname]
      | _ => cases h
    · rintro (hfalse | ⟨source, rfl⟩)
      · simp [htruthy] at hfalse
      · exact ⟨source, sourceNamed_name source⟩
  · rw [if_neg htruthy]
    exact ⟨fun _ => .inl (Bool.not_eq_true _ ▸ htruthy), fun _ => ⟨_, rfl⟩⟩

end

/-! ## Records that pass the checks -/

section

variable {record r : Fields}

/-- The place of a record under the names of its fields, whose numbers and source have been read. -/
def assembled (r : Fields) (latitude longitude rating reviewCount : Value) (source : Source) :
    Place where
  id := textOf (r.field "place_id")
  name := textOf (r.field "name")
  category := textOf (r.field "category")
  latitude := latitude
  longitude := longitude
  address := textOf (r.field "address")
  rating := rating
  reviewCount := reviewCount
  priceLevel := r.field "price_level"
  openNow := r.field "open_now"
  source := source
  region := textOf (r.field "region")
  fixedTime := r.field "fixed_time"

theorem ofRecord_eq_ok {p : Place} : ofRecord record = .ok p ↔
    ∃ latitude longitude rating reviewCount source,
      numberOf ((normalized record).field "latitude") = .ok latitude ∧
      numberOf ((normalized record).field "longitude") = .ok longitude ∧
      numberOf ((normalized record).field "rating") = .ok rating ∧
      countOf ((normalized record).field "review_count") = .ok reviewCount ∧
      sourceOf ((normalized record).field "source") = .ok source ∧
      assembled (normalized record) latitude longitude rating reviewCount source = p ∧
      p.check = .ok () := by
  constructor
  · intro h
    obtain ⟨latitude, hlatitude, h⟩ := Result.bind_eq_ok.mp h
    obtain ⟨longitude, hlongitude, h⟩ := Result.bind_eq_ok.mp h
    obtain ⟨rating, hrating, h⟩ := Result.bind_eq_ok.mp h
    obtain ⟨reviewCount, hreviews, h⟩ := Result.bind_eq_ok.mp h
    obtain ⟨source, hsource, h⟩ := Result.bind_eq_ok.mp h
    obtain ⟨rfl, hcheck⟩ := checked_eq_ok.mp h
    exact ⟨_, _, _, _, _, hlatitude, hlongitude, hrating, hreviews, hsource, rfl, hcheck⟩
  · rintro ⟨latitude, longitude, rating, reviewCount, source, hlatitude, hlongitude, hrating, hreviews,
      hsource, rfl, hcheck⟩
    rw [ofRecord, hlatitude, hlongitude, hrating, hreviews, hsource]
    exact checked_of_check hcheck

/-- What the fields of a record have to hold, beyond what the checks ask for, so that the place of the
record can be used: an identifier and a name that count as given, a source that is known if it is named,
and a price level and an opening that the wire can carry. -/
structure Carriable (record : Fields) : Prop where
  id : ((normalized record).field "place_id").isTruthy = true
  name : ((normalized record).field "name").isTruthy = true
  source : ((normalized record).field "source").isTruthy = false ∨
    ∃ source : Source, (normalized record).field "source" = .text source.name
  priceLevel : ∃ v, Wire.optional Wire.lenientInt ((normalized record).field "price_level") = .ok v
  openNow : ∃ v, Wire.optional Wire.lenientBool ((normalized record).field "open_now") = .ok v

/-- A record is decoded as a place that passes the checks of a record and has a wire form. -/
structure Carries (record : Fields) (p : Place) : Prop where
  decoded : ofRecord record = .ok p
  passes : ∃ v, Validation.place p.toRecord = .ok v ∧ v.valid = true
  wire : ∃ x, Wire.place p = .ok x

section Assembled

variable {latitude longitude rating reviewCount : Value} {source : Source}
  (hlatitude : numberOf (r.field "latitude") = .ok latitude)
  (hlongitude : numberOf (r.field "longitude") = .ok longitude)
  (hrating : numberOf (r.field "rating") = .ok rating)
  (hreviews : countOf (r.field "review_count") = .ok reviewCount)
include hlatitude hlongitude hrating hreviews

/-- Of an assembled place only the price level and the opening may be more than the wire can carry. -/
theorem exists_wire_assembled_iff :
    (∃ x, Wire.place (assembled r latitude longitude rating reviewCount source) = .ok x) ↔
      (∃ v, Wire.optional Wire.lenientInt (r.field "price_level") = .ok v) ∧
        ∃ v, Wire.optional Wire.lenientBool (r.field "open_now") = .ok v := by
  have htext : ∀ v, ∃ w, Wire.plainText (textOf v) = .ok w := fun _ => ⟨_, rfl⟩
  simp only [Wire.place, Wire.placeAs, Wire.exists_record_iff, List.forall_mem_cons,
    Wire.mismatches_given, Wire.mismatches_plain, assembled, htext, exists_lenientReal hlatitude,
    exists_lenientReal hlongitude, exists_lenientReal hrating, exists_lenientInt hreviews, true_and,
    List.not_mem_nil, false_imp_iff, implies_true, and_true]

/-- An assembled place passes the checks that its record has passed, unless its identifier or its name did
not count as given. -/
theorem passes_assembled_iff (h : Validation.Passes r) :
    Validation.Passes (assembled r latitude longitude rating reviewCount source).toRecord ↔
      (r.field "place_id").isTruthy = true ∧ (r.field "name").isTruthy = true := by
  have hid := (Validation.missingText_eq_nil.mp h.id).2
  have hname := (Validation.missingText_eq_nil.mp h.name).2
  have hreadable := numberOf_reads hrating
  have hcounted := countOf_reads hreviews
  constructor
  · intro hp
    have hid' := (missingText_text rfl).mp hp.id
    have hname' := (missingText_text rfl).mp hp.name
    exact ⟨(isBlank_textOf.mp hid').1, (isBlank_textOf.mp hname').1⟩
  · rintro ⟨hidTruthy, hnameTruthy⟩
    refine ⟨(missingText_text rfl).mpr (isBlank_textOf.mpr ⟨hidTruthy, hid⟩),
      (missingText_text rfl).mpr (isBlank_textOf.mpr ⟨hnameTruthy, hname⟩), ?_, ?_, ?_⟩
    · exact coordinateErrors_of_reads (numberOf_reads hlatitude) (numberOf_reads hlongitude)
        h.coordinates
    · change Validation.ratingErrors rating = .ok []
      rw [Validation.ratingErrors_eq_ok_nil, hreadable.1, hreadable.2]
      exact Validation.ratingErrors_eq_ok_nil.mp h.rating
    · change Validation.reviewErrors reviewCount = .ok []
      rw [Validation.reviewErrors_eq_ok_nil, hcounted.1, hcounted.2]
      exact Validation.reviewErrors_eq_ok_nil.mp h.reviews

end Assembled

/-- A record that passes the checks is assembled to a place, if its source is known. -/
theorem exists_assembled (h : Validation.Passes r)
    (hsource : ∃ source, sourceOf (r.field "source") = .ok source) :
    ∃ latitude longitude rating reviewCount source,
      numberOf (r.field "latitude") = .ok latitude ∧ numberOf (r.field "longitude") = .ok longitude ∧
      numberOf (r.field "rating") = .ok rating ∧ countOf (r.field "review_count") = .ok reviewCount ∧
      sourceOf (r.field "source") = .ok source := by
  obtain ⟨hlatitude, hlongitude⟩ := readable_of_coordinateErrors h.coordinates
  have hrating : _ ∨ ∃ x, (r.field "rating").toReal = .ok x :=
    (Validation.ratingErrors_eq_ok_nil.mp h.rating).imp_right fun ⟨x, hx, _⟩ => ⟨x, hx⟩
  have hreviews : _ ∨ ∃ n, (r.field "review_count").toInt = .ok n :=
    (Validation.reviewErrors_eq_ok_nil.mp h.reviews).imp_right fun ⟨n, hn, _⟩ => ⟨n, hn⟩
  obtain ⟨latitude, hlatitude⟩ := exists_ifGiven hlatitude
  obtain ⟨longitude, hlongitude⟩ := exists_ifGiven hlongitude
  obtain ⟨rating, hrating⟩ := exists_ifGiven hrating
  obtain ⟨reviewCount, hreviews⟩ := exists_ifGiven hreviews
  obtain ⟨source, hsource⟩ := hsource
  exact ⟨_, _, _, _, _, hlatitude, hlongitude, hrating, hreviews, hsource⟩

theorem check_assembled (h : Validation.Passes r)
    (hid : (r.field "place_id").isTruthy = true) {latitude longitude rating reviewCount : Value}
    {source : Source} (hlatitude : numberOf (r.field "latitude") = .ok latitude)
    (hlongitude : numberOf (r.field "longitude") = .ok longitude) :
    (assembled r latitude longitude rating reviewCount source).check = .ok () := by
  refine check_of_text rfl (isBlank_textOf.mpr ⟨hid, (Validation.missingText_eq_nil.mp h.id).2⟩) ?_
  exact coordinateErrors_of_reads (numberOf_reads hlatitude) (numberOf_reads hlongitude) h.coordinates

/-- A record that passes the checks is carried exactly if its fields hold what they have to. -/
theorem exists_carries_iff (h : Validation.Passes (normalized record)) :
    (∃ p, Carries record p) ↔ Carriable record := by
  constructor
  · rintro ⟨p, hdecoded, hpasses, hwire⟩
    obtain ⟨_, _, _, _, source, hlatitude, hlongitude, hrating, hreviews, hsource, rfl, _⟩ :=
      ofRecord_eq_ok.mp hdecoded
    obtain ⟨v, hv, hvalid⟩ := hpasses
    obtain ⟨hid, hname⟩ := (passes_assembled_iff hlatitude hlongitude hrating hreviews h).mp
      (Validation.passes_of_valid hv hvalid)
    obtain ⟨hprice, hopen⟩ :=
      (exists_wire_assembled_iff hlatitude hlongitude hrating hreviews).mp hwire
    exact ⟨hid, hname, exists_sourceOf_iff.mp ⟨source, hsource⟩, hprice, hopen⟩
  · rintro ⟨hid, hname, hsource, hprice, hopen⟩
    obtain ⟨latitude, longitude, rating, reviewCount, source, hlatitude, hlongitude, hrating, hreviews,
      hsource⟩ := exists_assembled h (exists_sourceOf_iff.mpr hsource)
    let p := assembled (normalized record) latitude longitude rating reviewCount source
    have hcheck : p.check = .ok () := check_assembled h hid hlatitude hlongitude
    have hpasses : Validation.Passes p.toRecord :=
      (passes_assembled_iff hlatitude hlongitude hrating hreviews h).mpr ⟨hid, hname⟩
    refine ⟨p, ofRecord_eq_ok.mpr ⟨_, _, _, _, _, hlatitude, hlongitude, hrating, hreviews, hsource, rfl,
      hcheck⟩, ⟨_, hpasses.place_eq, rfl⟩, ?_⟩
    exact (exists_wire_assembled_iff hlatitude hlongitude hrating hreviews).mpr ⟨hprice, hopen⟩

/-! ## Intake -/

/-- The place of a record, unless the checks refuse the record. -/
theorem toPlace_record {v : Verdict} (hv : Validation.place (normalized record) = .ok v)
    (h : v.valid = true → Carriable record) :
    (∃ p, (Selection.value (.record record)).toPlace = .ok p ∧ Carries record p) ∨
      ∃ code, (Selection.value (.record record)).toPlace = .error (.rejected code v.errors) := by
  rw [Selection.toPlace, hv, Result.ok_bind]
  by_cases hvalid : v.valid = true
  · obtain ⟨p, hp⟩ := (exists_carries_iff (Validation.passes_of_valid hv hvalid)).mpr (h hvalid)
    rw [Verdict.require_eq_ok.mpr hvalid]
    exact .inl ⟨p, hp.decoded, hp⟩
  · obtain ⟨code, hcode⟩ := Verdict.require_of_not_valid hvalid none
    rw [hcode]
    exact .inr ⟨code, rfl⟩

theorem toPlace_records {records : List Fields}
    (h : ∀ record ∈ records, ∃ v, Validation.place (normalized record) = .ok v ∧
      (v.valid = true → Carriable record)) :
    (∃ ps, (records.map fun record => Selection.value (.record record)).mapM Selection.toPlace =
        .ok ps ∧ List.Forall₂ Carries records ps) ∨
      ∃ code errors, (records.map fun record => Selection.value (.record record)).mapM
        Selection.toPlace = .error (.rejected code errors) := by
  induction records with
  | nil => exact .inl ⟨[], rfl, .nil⟩
  | cons record rest ih =>
      obtain ⟨⟨v, hv, hfirst⟩, hrest⟩ := List.forall_mem_cons.mp h
      rw [List.map_cons, List.mapM_cons]
      rcases toPlace_record hv hfirst with ⟨p, hp, hcarries⟩ | ⟨code, hcode⟩
      · rw [hp, Result.ok_bind]
        rcases ih hrest with ⟨ps, hps, hall⟩ | ⟨code, errors, hcode⟩
        · rw [hps]
          exact .inl ⟨p :: ps, rfl, .cons hcarries hall⟩
        · rw [hcode]
          exact .inr ⟨code, errors, rfl⟩
      · rw [hcode]
        exact .inr ⟨code, v.errors, rfl⟩

/-- What becomes of records that are handed over and whose values can be written: one that passes the
checks is carried exactly if its fields hold what they have to, one without a number beyond all range gets
a verdict, and if every record gets one and can be carried once it has passed, then they become one place
for each record or are rejected. -/
theorem carries_accepted_records (records : List Fields)
    (_ : ∀ record ∈ records, ∀ f ∈ record, f.2.Writable) :
    (∀ record ∈ records, ∀ v, Validation.place (normalized record) = .ok v → v.valid = true →
      ((∃ p, Carries record p) ↔ Carriable record)) ∧
    (∀ record ∈ records, Validation.InRange (normalized record) →
      ∃ v, Validation.place (normalized record) = .ok v) ∧
    ((∀ record ∈ records, ∃ v, Validation.place (normalized record) = .ok v ∧
        (v.valid = true → Carriable record)) →
      (∃ ps, (records.map fun record => Selection.value (.record record)).mapM Selection.toPlace =
          .ok ps ∧ List.Forall₂ Carries records ps) ∨
        ∃ code errors, (records.map fun record => Selection.value (.record record)).mapM
          Selection.toPlace = .error (.rejected code errors)) :=
  ⟨fun _ _ _ hv hvalid => exists_carries_iff (Validation.passes_of_valid hv hvalid),
    fun _ _ h => h.exists_place, toPlace_records⟩

/-- A record in the words of another program, with numbers in texts, and one without a name. -/
theorem carries_accepted_records_texts :
    let record : Fields :=
      [("id", .int 7), ("name", .text "tower"), ("lat", .text "48.86"), ("lng", .real 2.25),
        ("reviewCount", .text " 12 "), ("priceLevel", .text "3"), ("open_now", .text "yes"),
        ("source", .text "user_selected")]
    let nameless : Fields := [("place_id", .text "b"), ("rating", .int 9)]
    (∃ v, Validation.place (normalized record) = .ok v ∧ v.valid = true ∧ ∃ p, Carries record p) ∧
      ((∃ ps, ([record, nameless].map fun record => Selection.value (.record record)).mapM
          Selection.toPlace = .ok ps ∧ List.Forall₂ Carries [record, nameless] ps) ∨
        ∃ code errors, ([record, nameless].map fun record => Selection.value (.record record)).mapM
          Selection.toPlace = .error (.rejected code errors)) := by
  intro record nameless
  have hcarriable : Carriable record :=
    ⟨by decide +kernel, by decide +kernel, .inr ⟨.userSelected, rfl⟩, ⟨.int 3, rfl⟩, ⟨.bool true, rfl⟩⟩
  have hvalid : Validation.place (normalized record) = .ok { valid := true } := by decide +kernel
  have hnameless : Validation.place (normalized nameless) =
      .ok { valid := false
            errors := ["name must not be empty or NULL", "rating=9.0 is outside valid range [0, 5]"]
            code := "ERROR_MISSING_PLACE_NAME" } := by decide +kernel
  have hwritable : ∀ f ∈ record, f.2.Writable := by
    simp only [record, List.forall_mem_cons]
    exact ⟨.of_lt (by decide), .text _, .text _, .real _, .text _, .text _, .text _, .text _,
      List.forall_mem_nil _⟩
  have hwritable' : ∀ f ∈ nameless, f.2.Writable := by
    simp only [nameless, List.forall_mem_cons]
    exact ⟨.text _, .of_lt (by decide), List.forall_mem_nil _⟩
  obtain ⟨hiff, _, hlist⟩ := carries_accepted_records [record, nameless] <| by
    simp only [List.forall_mem_cons]
    exact ⟨hwritable, hwritable', List.forall_mem_nil _⟩
  refine ⟨⟨_, hvalid, rfl, (hiff record List.mem_cons_self _ hvalid rfl).mpr hcarriable⟩, hlist ?_⟩
  simp only [List.forall_mem_cons]
  exact ⟨⟨_, hvalid, fun _ => hcarriable⟩, ⟨_, hnameless, nofun⟩, nofun⟩

/-- A record whose identifier is the number zero passes the checks and is refused all the same. -/
theorem accepted_record_refused :
    let record : Fields := [("place_id", .int 0), ("name", .text "a")]
    Validation.place (normalized record) = .ok { valid := true } ∧
      ofRecord record =
        .error (.rejected "ERROR_MISSING_PLACE_ID" ["place 'a' has no place_id"]) := by
  intro record
  have hcheck : (assembled (normalized record) .null .null .null .null .candidate).check =
      .error (.rejected "ERROR_MISSING_PLACE_ID" ["place 'a' has no place_id"]) := by
    decide +kernel
  refine ⟨by decide +kernel, ?_⟩
  change (assembled (normalized record) .null .null .null .null .candidate).checked = _
  rw [checked, hcheck]
  rfl

end

end Place

end Wayfare
