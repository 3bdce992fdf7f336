import Mathlib
import Wayfare.Proofs.Place.Construction
import Wayfare.Proofs.Place.FieldValues

/-! # Decoding undoes encoding

A place that is written as a record, or carried over the wire under either kind
of names, is decoded as an equal place. Its numbers come back as real ones and
its counts as whole ones, which stand for the same.
-/

namespace Wayfare

namespace Place

open Value

/-- A place whose fields hold what they are for. -/
structure WellTyped (p : Place) : Prop where
  id : p.id.IsTextField
  name : p.name.IsTextField
  category : p.category.IsTextField
  latitude : p.latitude.IsNumberField
  longitude : p.longitude.IsNumberField
  address : p.address.IsTextField
  rating : p.rating.IsNumberField
  reviewCount : p.reviewCount.IsCountField
  priceLevel : p.priceLevel.IsCountField
  openNow : p.openNow.IsTruthField
  region : p.region.IsTextField
  fixedTime : p.fixedTime.IsTimeField

/-- A place as decoding leaves it. -/
def decoded (p : Place) : Place :=
  { p with
    latitude := p.latitude.decodedNumber
    longitude := p.longitude.decodedNumber
    rating := p.rating.decodedNumber
    reviewCount := p.reviewCount.decodedCount }

/-- A place as the wire leaves it. -/
def carried (p : Place) : Place :=
  { p.decoded with priceLevel := p.priceLevel.decodedCount }

theorem textOf_eq {v : Value} (h : v.IsTextField) : textOf v = v := by
  obtain ⟨s⟩ := h
  by_cases hempty : s = ""
  · subst hempty
    rfl
  · simp [textOf, isTruthy, display, hempty]

theorem sourceOf_name (source : Source) : sourceOf (.text source.name) = .ok source := by
  cases source <;> rfl

/-- Decoding reads a record with the fields of a place under their own names as that place. -/
theorem ofRecord_eq {record : Fields} {p : Place} (hp : p.WellTyped)
    (h : normalized record = p.toRecord) : ofRecord record = p.decoded.checked := by
  have hlatitude : numberOf (p.toRecord.field "latitude") = .ok _ := hp.latitude.numberOf_eq
  have hlongitude : numberOf (p.toRecord.field "longitude") = .ok _ := hp.longitude.numberOf_eq
  have hrating : numberOf (p.toRecord.field "rating") = .ok _ := hp.rating.numberOf_eq
  have hreviews : countOf (p.toRecord.field "review_count") = .ok _ := hp.reviewCount.countOf_eq
  have hsource : sourceOf (p.toRecord.field "source") = .ok p.source := sourceOf_name p.source
  have hid : textOf (p.toRecord.field "place_id") = p.id := textOf_eq hp.id
  have hname : textOf (p.toRecord.field "name") = p.name := textOf_eq hp.name
  have hcategory : textOf (p.toRecord.field "category") = p.category := textOf_eq hp.category
  have haddress : textOf (p.toRecord.field "address") = p.address := textOf_eq hp.address
  have hregion : textOf (p.toRecord.field "region") = p.region := textOf_eq hp.region
  rw [ofRecord, h, hlatitude, hlongitude, hrating, hreviews, hsource, hid, hname, hcategory,
    haddress, hregion]
  rfl

/-! ## Picking fields -/

theorem field_eq_null {record : Fields} {name : String} (h : name ∉ record.map (·.1)) :
    record.field name = .null := by
  have hnone : record.lookup name = none := by
    rw [List.lookup_eq_none_iff]
    intro e he
    exact bne_iff_ne.mpr fun heq => h (List.mem_map.mpr ⟨e, he, heq.symm⟩)
  rw [Fields.field, hnone]
  rfl

/-- What is picked is the field of one of the names when there is none of the others. -/
theorem pick_eq {record : Fields} {names : List String} {name : String} (hmem : name ∈ names)
    (hothers : ∀ other ∈ names, other ≠ name → record.field other = .null) :
    pick record names = record.field name := by
  cases hfind : (names.map record.field).find? (!·.isNull) with
  | none =>
      have hnull := List.find?_eq_none.mp hfind _ (List.mem_map_of_mem hmem)
      rw [pick, hfind]
      cases hv : record.field name <;> simp_all [Value.isNull]
  | some v =>
      obtain ⟨other, hother, rfl⟩ := List.mem_map.mp (List.mem_of_find?_eq_some hfind)
      have hgiven := List.find?_some hfind
      rw [pick, hfind]
      by_cases heq : other = name
      · rw [heq]
        rfl
      · rw [hothers other hother heq] at hgiven
        cases hgiven

/-- A record that has each field of a place under one of its names has it under its own name once it is
normalized. -/
theorem normalized_eq {record : Fields} {p : Place} (nameOf : String → String)
    (hfields : ∀ e ∈ recordNames, record.field (nameOf e.1) = p.toRecord.field e.1)
    (hnames : ∀ e ∈ recordNames, nameOf e.1 ∈ e.2 ∧
      ∀ other ∈ e.2, other ≠ nameOf e.1 → other ∉ record.map (·.1)) :
    normalized record = p.toRecord := by
  have hpick : ∀ e ∈ recordNames, (e.1, pick record e.2) = (e.1, p.toRecord.field e.1) := by
    intro e he
    obtain ⟨hmem, hothers⟩ := hnames e he
    rw [pick_eq hmem fun other hother hne => field_eq_null (hothers other hother hne), hfields e he]
  exact List.map_congr_left hpick

theorem normalized_toRecord (p : Place) : normalized p.toRecord = p.toRecord := by
  refine normalized_eq (fun name => name) (fun _ _ => rfl) ?_
  change ∀ e ∈ recordNames, e.1 ∈ e.2 ∧ ∀ other ∈ e.2, other ≠ e.1 → other ∉ fieldNames
  decide

/-! ## The wire -/

/-- The fields of a place on the wire. -/
def wireFields (naming : Wire.Naming) (p : Place) : Fields :=
  [(naming.choose "placeId" "place_id", p.id), ("name", p.name), ("category", p.category),
   ("latitude", p.latitude), ("longitude", p.longitude), ("address", p.address),
   ("rating", p.rating), (naming.choose "reviewCount" "review_count", p.reviewCount),
   (naming.choose "priceLevel" "price_level", p.priceLevel),
   (naming.choose "openNow" "open_now", p.openNow), ("source", .text p.source.name),
   ("region", p.region)]

theorem plainText_eq {v : Value} (h : v.IsTextField) : Wire.plainText v = .ok v := by
  cases h
  rfl

theorem placeAs_eq {p : Place} (hp : p.WellTyped) (naming : Wire.Naming) :
    Wire.placeAs naming p = .ok (.record (wireFields naming p.carried)) := by
  simp only [Wire.placeAs, plainText_eq hp.id, plainText_eq hp.name, plainText_eq hp.category,
    plainText_eq hp.address, plainText_eq hp.region, hp.latitude.lenientReal_eq,
    hp.longitude.lenientReal_eq, hp.rating.lenientReal_eq, hp.reviewCount.lenientInt_eq,
    hp.priceLevel.lenientInt_eq, hp.openNow.lenientBool_eq]
  cases naming <;> rfl

/-- The name of a field in camel case. -/
def camelName : String → String
  | "place_id" => "placeId"
  | "review_count" => "reviewCount"
  | "price_level" => "priceLevel"
  | "open_now" => "openNow"
  | name => name

theorem normalized_wireFields {p : Place} (hp : p.fixedTime = .null) (naming : Wire.Naming) :
    normalized (wireFields naming p) = p.toRecord := by
  refine normalized_eq (fun name => naming.choose (camelName name) name) ?_ ?_
  · cases naming <;> simp only [recordNames, List.forall_mem_cons]
    · exact ⟨rfl, rfl, rfl, rfl, rfl, rfl, rfl, rfl, rfl, rfl, rfl, rfl, hp.symm, nofun⟩
    · exact ⟨rfl, rfl, rfl, rfl, rfl, rfl, rfl, rfl, rfl, rfl, rfl, rfl, hp.symm, nofun⟩
  · have hnames : (wireFields naming p).map (·.1) =
        (fieldNames.take 12).map fun name => naming.choose (camelName name) name := by
      cases naming <;> rfl
    rw [hnames]
    cases naming <;> decide

/-! ## Equality -/

theorem WellTyped.carried {p : Place} (hp : p.WellTyped) : p.carried.WellTyped :=
  { hp with
    latitude := hp.latitude.decoded
    longitude := hp.longitude.decoded
    rating := hp.rating.decoded
    reviewCount := hp.reviewCount.decoded
    priceLevel := hp.priceLevel.decoded }

theorem decoded_carried (p : Place) : p.carried.decoded = p.carried := by
  simp only [carried, decoded, decodedNumber_decodedNumber, decodedCount_decodedCount]

/-- Decoding leaves a place equal, whatever equal price level it ends up with. -/
theorem WellTyped.decoded_same {p : Place} (hp : p.WellTyped) {priceLevel : Value}
    (hprice : (priceLevel == p.priceLevel) = true) :
    ({ p.decoded with priceLevel := priceLevel } == p) = true := by
  simp only [decoded, BEq.beq, instBEqPlace.beq, Bool.and_eq_true]
  exact ⟨hp.id.same_self, hp.name.same_self, hp.category.same_self, hp.latitude.decoded_same,
    hp.longitude.decoded_same, hp.address.same_self, hp.rating.decoded_same,
    hp.reviewCount.decoded_same, hprice, hp.openNow.same_self, decide_eq_true trivial,
    hp.region.same_self, hp.fixedTime.same_self⟩

theorem check_decoded {p : Place} (hp : p.WellTyped) (h : p.check = .ok ()) :
    p.decoded.check = .ok () := by
  obtain ⟨hid, hcoordinates⟩ := check_eq_ok.mp h
  refine check_eq_ok.mpr ⟨hid, ?_⟩
  exact coordinateErrors_of_reads hp.latitude.decoded_reads hp.longitude.decoded_reads hcoordinates

/-- Decoding the record of a place gives an equal place, and if it has no fixed time, so does decoding
what the wire carries of it, under either kind of names. -/
theorem decoding_undoes_encoding {p : Place} (hp : p.WellTyped) (hcheck : p.check = .ok ()) :
    (∃ q, ofRecord p.toRecord = .ok q ∧ (q == p) = true) ∧
      (p.fixedTime = .null → ∀ naming, ∃ fields q,
        Wire.placeAs naming p = .ok (.record fields) ∧ ofRecord fields = .ok q ∧ (q == p) = true) := by
  constructor
  · refine ⟨p.decoded, ?_, hp.decoded_same hp.priceLevel.same_self⟩
    rw [ofRecord_eq hp (normalized_toRecord p), checked_of_check (check_decoded hp hcheck)]
  · intro hfixed naming
    -- The price level, which alone differs from what decoding leaves, is not checked.
    have hcarried : p.carried.check = .ok () := check_decoded hp hcheck
    refine ⟨wireFields naming p.carried, p.carried, placeAs_eq hp naming, ?_,
      hp.decoded_same hp.priceLevel.decoded_same⟩
    rw [ofRecord_eq hp.carried (normalized_wireFields (p := p.carried) hfixed naming),
      decoded_carried, checked_of_check hcarried]

/-- What is given but counts as not given survives: a rating and a count of zero, a position on the
equator, an empty name. -/
theorem decoding_undoes_encoding_zeros :
    let p : Place :=
      { id := .text "a", name := .text "", latitude := .int 0, longitude := .real 0.0,
        rating := .int 0, reviewCount := .int 0, priceLevel := .int 0, openNow := .bool false }
    (p.WellTyped ∧ p.check = .ok () ∧ p.fixedTime = .null) ∧
      (∃ q, ofRecord p.toRecord = .ok q ∧ (q == p) = true) ∧
        (p.fixedTime = .null → ∀ naming, ∃ fields q,
          Wire.placeAs naming p = .ok (.record fields) ∧ ofRecord fields = .ok q ∧
            (q == p) = true) := by
  intro p
  have hzero : IsNumberField (.int 0) := .whole ⟨0, 0, by decide, by decide, rfl⟩
  have hp : p.WellTyped :=
    ⟨.text _, .text _, .text _, hzero, .real (by decide +kernel), .text _, hzero, .whole 0, .whole 0,
      .truth _, .text _, .absent⟩
  have hcheck : p.check = .ok () := by decide +kernel
  exact ⟨⟨hp, hcheck, rfl⟩, decoding_undoes_encoding hp hcheck⟩

/-- A place whose rating is a whole number beyond the range of the real ones is not decoded. -/
theorem ofRecord_of_isInf {p : Place} {n : Int} (hrating : p.rating = .int n)
    (hunlocated : p.latitude = .null ∧ p.longitude = .null) (hinf : (Float.ofInt n).isInf = true) :
    ofRecord p.toRecord = .error .tooLarge := by
  have hlatitude : numberOf (p.toRecord.field "latitude") = .ok .null :=
    congrArg numberOf hunlocated.1
  have hlongitude : numberOf (p.toRecord.field "longitude") = .ok .null :=
    congrArg numberOf hunlocated.2
  have htooLarge : numberOf (p.toRecord.field "rating") = .error .tooLarge := by
    refine (congrArg numberOf hrating).trans ?_
    simp [numberOf, isNull, toReal, realOfInt, hinf]
  rw [ofRecord, normalized_toRecord, hlatitude, hlongitude, htooLarge]
  rfl

/-- Such a rating can be given all the same. -/
theorem decoding_fails_beyond_range :
    let p : Place := { id := .text "a", name := .text "a", rating := .int (10 ^ 400) }
    p.check = .ok () ∧ ofRecord p.toRecord = .error .tooLarge :=
  ⟨by decide +kernel, ofRecord_of_isInf rfl ⟨rfl, rfl⟩ (by decide +kernel)⟩

end Place

end Wayfare
