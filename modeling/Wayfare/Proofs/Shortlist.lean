import Mathlib
import Wayfare.Proofs.Grid.Outcome
import Wayfare.Proofs.Pool
import Wayfare.Proofs.Popularity
import Wayfare.Proofs.Validation.Terms

/-! # What a shortlist holds

Of the places that are fetched for a category, those that keep the contract,
belong to the category and suit the traveller are eligible. The shortlist is the
most popular of them, as many as are kept, and every region of a request has one
for every category.
-/

namespace Wayfare

open Wayfare.Category

/-- A place as a pool holds it: it was made, its fields are those that a query reads, its rating and its
number of reviews are finite numbers or absent, and its values can be written. A rating is near some real
number. -/
structure Place.Pooled (p : Place) : Prop extends p.Rated where
  made : p.check = .ok ()
  searchable : Pool.Searchable p
  inRange : ¬p.rating.IsBeyondReals
  writable : ∀ f ∈ p.toRecord, f.2.Writable

/-- A place that may stand on the shortlist of a category: it keeps the contract, belongs to the category,
and suits one of the known styles, if any is known. -/
structure Eligible (category : String) (styles : List String) (p : Place) : Prop where
  keeps : ∀ t ∈ RecordKind.place.terms p.toRecord, t.2
  belongs : placeMatches p category = true
  suits : knownStyles styles ≠ [] → ∃ style ∈ knownStyles styles, style.suits p = true

/-- The places that are fetched for a category: the first of those that a query asks for. -/
def fetched (places : List Place) (region category : String) (kept : Nat) (multiplier : Int) :
    List Place :=
  (places.filter (Pool.asks region (keywordsOf category))).take (kept * max 1 multiplier).toNat

open Classical in
/-- The most popular of the eligible places among those that are fetched for a category. -/
def IsShortlist (places : List Place) (region category : String) (styles : List String) (kept : Nat)
    (multiplier : Int) (best : List Place) : Prop :=
  MostPopular kept
    ((fetched places region category kept multiplier).filter fun p => Eligible category styles p) best

namespace Selector

/-! ## Eligible places -/

theorem knownStyles_givenOnes (styles : List String) :
    knownStyles (styles.filter (!·.isEmpty)) = knownStyles styles := by
  rw [knownStyles, knownStyles, List.filterMap_filter]
  congr 1
  funext name
  cases hempty : name.isEmpty with
  | false => rfl
  | true =>
      obtain rfl : name = "" := by simpa using hempty
      decide +kernel

/-- Rated places can be told by any styles and ranked. The styles are read if a place belongs to the
category. -/
theorem exists_checkMatched {valid : List Place} (h : ∀ p ∈ valid, p.Rated) (category : String)
    (styles : List String) : ∃ known, checkMatched category (styles.map .text) valid = .ok known ∧
      ((∃ p ∈ valid, placeMatches p category = true) → known = knownStyles styles) := by
  rw [checkMatched]
  dsimp only
  split
  next hnone =>
    refine ⟨[], rfl, fun ⟨p, hp, hmatches⟩ => ?_⟩
    rw [List.isEmpty_iff, List.filter_eq_nil_iff] at hnone
    exact absurd hmatches (hnone p hp)
  next =>
    refine ⟨knownStyles styles, ?_, fun _ => rfl⟩
    have hstyles : (valid.filter fun p => placeMatches p category).forM
        (fun p => checkStyles p (knownStyles styles)) = .ok () :=
      Result.forM_eq_ok.mpr fun p hp => checkStyles_of_rated (h p (List.mem_of_mem_filter hp)) _
    have hrankable : areRankable ((valid.filter fun p => placeMatches p category).filter
        fun p => suitsAny p (knownStyles styles)) = true :=
      areRankable_of_rated fun p hp => h p (List.mem_of_mem_filter (List.mem_of_mem_filter hp))
    rw [Value.givenTexts_texts, Result.ok_bind, knownStyles_givenOnes, hstyles, Result.ok_bind, hrankable,
      Bool.not_true, Bool.and_false]
    rfl

end Selector

theorem Place.Pooled.judgeable {p : Place} (h : p.Pooled) : RecordKind.place.Judgeable p.toRecord := by
  refine ⟨RecordKind.pairJudgeable_iff.mp ⟨[], (Place.check_eq_ok.mp h.made).2⟩, h.inRange, ?_⟩
  rintro ⟨x, hx, hinf⟩
  have hx : p.reviewCount = .real x := hx
  obtain hnull | ⟨a, ha, hfinite⟩ := h.reviews
  · rw [hx] at hnull
    cases hnull
  · rw [hx] at ha
    cases ha
    rw [hfinite.2] at hinf
    cases hinf

theorem suitsAny_iff {p : Place} {styles : List Style} :
    suitsAny p styles = true ↔ (styles ≠ [] → ∃ style ∈ styles, style.suits p = true) := by
  rw [suitsAny, Bool.or_eq_true, List.isEmpty_iff, List.any_eq_true, or_iff_not_imp_left]

namespace Selector

/-- The selector of given categories that keeps so many places of each. -/
def ofCounts (kept : Nat) (multiplier : Int) (names : List String) : Selector :=
  ⟨.int kept, .int (max 1 multiplier), names.map .text⟩

theorem make_eq (kept : Nat) (multiplier : Int) (names : List String) :
    make (.int kept) (.int multiplier) (names.map .text) = .ok (ofCounts kept multiplier names) := by
  refine Result.bind_eq_ok.mpr ⟨.int multiplier, rfl, ?_⟩
  rw [Number.atLeast_int]
  rfl

variable {places : List Place}

/-- The shortlist of a category in a region is the most popular of the eligible places. -/
theorem exists_selectCategory (hpool : ∀ p ∈ places, p.Pooled) (kept : Nat) (multiplier : Int)
    (names : List String) (region category : String) (styles : List String) :
    ∃ best warnings,
      (ofCounts kept multiplier names).selectCategory (places.map some) (.text region) category
          (.list (styles.map .text)) = .ok (best, warnings) ∧
        IsShortlist places region category styles kept multiplier best := by
  classical
  have hfetched : ∀ p ∈ fetched places region category kept multiplier, p.Pooled := fun p hp =>
    hpool p (List.mem_of_mem_filter (List.mem_of_mem_take hp))
  obtain ⟨⟨valid, warnings⟩, hvalid⟩ := Validation.exists_filter_iff.mpr fun p hp =>
    RecordKind.judgeable_iff.mpr (hfetched p hp).judgeable
  obtain ⟨keeps, hkeeps⟩ : ∃ keeps : Place → Bool,
      ∀ p, keeps p = true ↔ ∀ t ∈ RecordKind.place.terms p.toRecord, t.2 :=
    ⟨fun p => decide (∀ t ∈ RecordKind.place.terms p.toRecord, t.2), fun p => decide_eq_true_iff⟩
  have hfilter : valid = (fetched places region category kept multiplier).filter keeps := by
    refine Validation.kept_of_filter hvalid fun p _ v hv => ?_
    rw [Bool.eq_iff_iff, hkeeps]
    exact (RecordKind.judges hv).valid_iff_kept
  have hrated : ∀ p ∈ valid, p.Rated := by
    rw [hfilter]
    exact fun p hp => (hfetched p (List.mem_of_mem_filter hp)).toRated
  obtain ⟨known, hknown, hstyles⟩ := exists_checkMatched hrated category styles
  refine ⟨shorten kept category known valid, warnings, ?_, ?_⟩
  · refine Result.bind_eq_ok.mpr ⟨.int (kept * max 1 multiplier), rfl, ?_⟩
    refine Result.bind_eq_ok.mpr ⟨_, Pool.queryWith_eq (fun p hp => (hpool p hp).searchable) _, ?_⟩
    refine Result.bind_eq_ok.mpr ⟨_, hvalid, ?_⟩
    refine Result.bind_eq_ok.mpr ⟨_, rfl, ?_⟩
    refine Result.bind_eq_ok.mpr ⟨known, hknown, ?_⟩
    rfl
  · rw [IsShortlist, shorten]
    have heligible : (fetched places region category kept multiplier).filter
        (fun p => Eligible category styles p) =
          valid.filter fun p => placeMatches p category && suitsAny p known := by
      rw [hfilter, List.filter_filter]
      apply List.filter_congr
      intro p hp
      rw [Bool.eq_iff_iff, decide_eq_true_iff, Bool.and_eq_true, Bool.and_eq_true, hkeeps]
      have hknown (hkept : keeps p = true) (hbelongs : placeMatches p category = true) :
          known = knownStyles styles :=
        hstyles ⟨p, hfilter ▸ List.mem_filter.mpr ⟨hp, hkept⟩, hbelongs⟩
      constructor
      · rintro ⟨hkept, hbelongs, hsuits⟩
        rw [hknown ((hkeeps p).mpr hkept) hbelongs]
        exact ⟨⟨hbelongs, suitsAny_iff.mpr hsuits⟩, hkept⟩
      · rintro ⟨⟨hbelongs, hsuits⟩, hkept⟩
        rw [hknown ((hkeeps p).mpr hkept) hbelongs] at hsuits
        exact ⟨hkept, hbelongs, suitsAny_iff.mp hsuits⟩
    rw [heligible]
    exact mostPopular_take (fun p hp => hrated p (List.mem_of_mem_filter hp)) kept

/-! ## Requests -/

theorem lookup_filter_ne {α : Type} {name other : String} (h : other ≠ name)
    (entries : List (String × α)) :
    (entries.filter fun e => !(name == e.1)).lookup other = entries.lookup other := by
  induction entries with
  | nil => rfl
  | cons e rest ih =>
      rw [List.filter_cons, List.lookup_cons]
      split
      next => rw [List.lookup_cons, ih]
      next hown =>
        have hname : name = e.1 := by simpa using hown
        rw [ih, ← hname, beq_false_of_ne h]

variable {s : Selector} {pool : Pool} {region : String} {styles : List Value}

/-- If every category has its shortlist, just these are found under the names of the categories. -/
theorem exists_selectAll {best : String → List Place} (names : List String)
    (h : ∀ name ∈ names, ∃ warnings,
      s.selectCategory pool (.text region) name (.list styles) = .ok (best name, warnings)) :
    ∃ entries warnings, s.selectAll pool region styles (names.map .text) = .ok (entries, warnings) ∧
      ∀ name, entries.lookup name = if name ∈ names then some (best name) else none := by
  induction names with
  | nil => exact ⟨[], [], rfl, fun _ => rfl⟩
  | cons name rest ih =>
      obtain ⟨⟨warnings, hname⟩, hrest⟩ := List.forall_mem_cons.mp h
      obtain ⟨entries, more, hentries, hlookup⟩ := ih hrest
      rw [List.map_cons, selectAll, selectNamed, hname, Result.ok_bind]
      refine ⟨_, _, Result.bind_eq_ok.mpr ⟨_, rfl, Result.bind_eq_ok.mpr ⟨_, hentries, rfl⟩⟩,
        fun other => ?_⟩
      have hkept : (entries.lookup name).getD (best name) = best name := by
        rw [hlookup]
        split <;> rfl
      simp only [List.map_cons, List.map_nil, List.singleton_append, List.any_cons, List.any_nil,
        Bool.or_false, hkept]
      by_cases hown : other = name
      · subst hown
        rw [List.lookup_cons_self, if_pos List.mem_cons_self]
      · rw [List.lookup_cons, beq_false_of_ne hown, lookup_filter_ne hown, hlookup]
        simp only [List.mem_cons, hown, false_or]

theorem sumNat_eq_sum (ns : List Nat) : sumNat ns = ns.sum :=
  rfl

/-- The shortlists of a request count as many places as they hold. -/
theorem total_eq_length_all {s : Selector} {pool : Pool} {request : TripRequest} {shortlist : Shortlist}
    {warnings : List String} (h : s.select pool request = .ok (shortlist, warnings)) :
    shortlist.total = shortlist.all.length := by
  obtain ⟨_, _, h⟩ := Result.bind_eq_ok.mp h
  obtain ⟨_, _, h⟩ := Result.bind_eq_ok.mp h
  obtain ⟨_, _, h⟩ := Result.bind_eq_ok.mp h
  obtain ⟨_, _, h⟩ := Result.bind_eq_ok.mp h
  obtain ⟨rfl, -⟩ := Prod.mk.inj (Result.pure_eq_ok.mp h)
  simp only [Shortlist.all, List.length_flatMap, sumNat_eq_sum]

/-- A request has a shortlist for every category in each of its regions. -/
theorem exists_select (hpool : ∀ p ∈ places, p.Pooled) (kept : Nat) (multiplier : Int)
    (names : List String) {request : TripRequest} {destinations styles : List String}
    (hcheck : request.check = .ok ())
    (hdestinations : request.destinations = .list (destinations.map .text))
    (hstyles : request.styles = .list (styles.map .text)) :
    ∃ regions shortlist warnings, request.regions = .ok regions ∧
      (ofCounts kept multiplier names).select (places.map some) request = .ok (shortlist, warnings) ∧
      shortlist.regions.map (·.1) = regions ∧
      ∀ entry ∈ shortlist.regions, ∀ name ∈ names, ∃ best, entry.2.lookup name = some best ∧
        IsShortlist places entry.1 name styles kept multiplier best := by
  obtain ⟨regions, hregions⟩ : ∃ regions, request.regions = .ok regions := by
    refine Result.exists_bind_eq_ok (TripRequest.exists_destinationNames_iff.mpr ?_) fun _ _ => ⟨_, rfl⟩
    refine ⟨_, by rw [hdestinations]; rfl, fun v hv _ => ?_⟩
    obtain ⟨t, -, rfl⟩ := List.mem_map.mp hv
    exact ⟨t, rfl⟩
  have hregion (region : String) : ∃ entries warnings,
      (ofCounts kept multiplier names).selectRegion (places.map some) region (styles.map .text) =
        .ok (entries, warnings) ∧
      ∀ name ∈ names, ∃ best, entries.lookup name = some best ∧
        IsShortlist places region name styles kept multiplier best := by
    choose best warnings hbest hshortlist using fun name =>
      exists_selectCategory hpool kept multiplier names region name styles
    obtain ⟨entries, more, hentries, hlookup⟩ := exists_selectAll names fun name _ => ⟨_, hbest name⟩
    refine ⟨entries, more, Result.bind_eq_ok.mpr ⟨_, Value.givenTexts_texts styles, hentries⟩, ?_⟩
    intro name hname
    exact ⟨best name, by rw [hlookup, if_pos hname], hshortlist name⟩
  choose entries warnings hselect hlookup using hregion
  have hlists : regions.mapM (fun region => do
      let found ←
        (ofCounts kept multiplier names).selectRegion (places.map some) region (styles.map .text)
      return ((region, found.1), found.2)) =
        .ok (regions.map fun region => ((region, entries region), warnings region)) := by
    rw [Result.mapM_eq_ok, List.forall₂_map_right_iff, List.forall₂_same]
    intro region _
    rw [hselect, Result.ok_bind]
    rfl
  obtain ⟨shortlist, more, hshortlist, hentries⟩ : ∃ shortlist more,
      (ofCounts kept multiplier names).select (places.map some) request = .ok (shortlist, more) ∧
        shortlist.regions = regions.map fun region => (region, entries region) := by
    refine ⟨_, _, Result.bind_eq_ok.mpr ⟨_, hcheck, Result.bind_eq_ok.mpr ⟨_, hregions,
      Result.bind_eq_ok.mpr ⟨styles.map .text, by rw [hstyles]; rfl,
        Result.bind_eq_ok.mpr ⟨_, hlists, rfl⟩⟩⟩⟩, ?_⟩
    rw [List.map_map]
    rfl
  refine ⟨regions, shortlist, more, hregions, hshortlist, ?_, ?_⟩
  · rw [hentries, List.map_map]
    exact List.map_id _
  · rw [hentries]
    intro entry hentry
    obtain ⟨region, _, rfl⟩ := List.mem_map.mp hentry
    exact hlookup region

/-- A selector of so many places is made, and whatever it is asked for, it gives the most popular of the
eligible places that are fetched. A request has such a shortlist for every category in each of its regions,
and they count as many places as they hold. -/
theorem shortlists_most_popular (hpool : ∀ p ∈ places, p.Pooled) (kept : Nat) (multiplier : Int)
    (names : List String) :
    ∃ s, make (.int kept) (.int multiplier) (names.map .text) = .ok s ∧
      (∀ region category styles, ∃ best warnings,
        s.selectCategory (places.map some) (.text region) category (.list (styles.map .text)) =
            .ok (best, warnings) ∧
          IsShortlist places region category styles kept multiplier best) ∧
      ∀ (request : TripRequest) (destinations styles : List String), request.check = .ok () →
        request.destinations = .list (destinations.map .text) →
        request.styles = .list (styles.map .text) →
        ∃ regions shortlist warnings, request.regions = .ok regions ∧
          s.select (places.map some) request = .ok (shortlist, warnings) ∧
          shortlist.regions.map (·.1) = regions ∧
          (∀ entry ∈ shortlist.regions, ∀ name ∈ names, ∃ best, entry.2.lookup name = some best ∧
            IsShortlist places entry.1 name styles kept multiplier best) ∧
          shortlist.total = shortlist.all.length := by
  refine ⟨_, make_eq kept multiplier names, exists_selectCategory hpool kept multiplier names,
    fun request destinations styles hcheck hdestinations hstyles => ?_⟩
  obtain ⟨regions, shortlist, warnings, hregions, hselect, hnames, hentries⟩ :=
    exists_select hpool kept multiplier names hcheck hdestinations hstyles
  exact ⟨regions, shortlist, warnings, hregions, hselect, hnames, hentries, total_eq_length_all hselect⟩

/-- Of two cafes the one with reviews is kept. -/
theorem shortlists_most_popular_cafes :
    let cafe (id : String) (reviews : Value) : Place :=
      { id := .text id, name := .text "cafe", category := .text "cafe", region := .text "Seoul",
        reviewCount := reviews }
    let pool : Pool := [some (cafe "a" .null), some (cafe "b" (.int 3))]
    let request : TripRequest := { threadId := .text "t", destinations := .list [.text "Seoul "] }
    ∃ s, make (.int 1) (.int 2) [.text "cafe"] = .ok s ∧
      (∃ warnings, s.selectCategory pool (.text "Seoul") "cafe" (.list []) =
        .ok ([cafe "b" (.int 3)], warnings)) ∧
      ∃ shortlist warnings, s.select pool request = .ok (shortlist, warnings) ∧
        shortlist.total = shortlist.all.length := by
  intro cafe pool request
  have hpooled {id : String} {reviews : Value} (hid : Text.isBlank id = false)
      (hreviews : reviews = .null ∨ reviews.IsFinite) (hwritable : reviews.Writable) :
      (cafe id reviews).Pooled := by
    refine ⟨⟨.inl rfl, hreviews⟩, Place.check_of_text rfl hid rfl, .of_texts rfl rfl rfl, ?_, ?_⟩
    · rintro ⟨n, h, -⟩
      cases h
    · simp only [Place.toRecord, List.forall_mem_cons]
      exact ⟨.text _, .text _, .text _, .null, .null, .text _, .null, hwritable, .null, .null, .text _,
        .text _, .null, List.forall_mem_nil _⟩
  have heligible {id : String} {reviews : Value} (hid : Text.isBlank id = false)
      (hreviews : reviews.isNull = true ∨ ∃ n, reviews.toInt = .ok n ∧ 0 ≤ n) :
      Eligible "cafe" [] (cafe id reviews) := by
    have hheads : Heads "cafe" "cafe" :=
      ⟨by decide, by decide +kernel, by decide +kernel, by decide +kernel⟩
    have hblank : Text.isBlank "cafe" = false := by decide +kernel
    refine ⟨?_, ?_, fun h => absurd rfl h⟩
    · simp only [RecordKind.terms, List.forall_mem_cons]
      exact ⟨⟨rfl, hid⟩, ⟨rfl, hblank⟩, .inl ⟨rfl, rfl⟩, .inl rfl, hreviews, List.forall_mem_nil _⟩
    · exact hheads.placeMatches (by decide) hblank
  have hpool : ∀ p ∈ [cafe "a" .null, cafe "b" (.int 3)], p.Pooled := by
    simp only [List.forall_mem_cons]
    exact ⟨hpooled (by decide) (.inl rfl) .null,
      hpooled (by decide) (.inr ⟨_, rfl, trivial⟩) (.of_lt (by decide)), List.forall_mem_nil _⟩
  obtain ⟨s, hmake, hcategory, hrequest⟩ := shortlists_most_popular hpool 1 2 ["cafe"]
  obtain ⟨best, warnings, hbest, hshortlist⟩ := hcategory "Seoul" "cafe" []
  obtain ⟨_, shortlist, more, _, hselect, _, _, htotal⟩ :=
    hrequest request ["Seoul "] [] (by decide +kernel) rfl rfl
  refine ⟨s, hmake, ⟨warnings, ?_⟩, shortlist, more, hselect, htotal⟩
  suffices hbusy : best = [cafe "b" (.int 3)] by
    rw [← hbusy]
    exact hbest
  have hfetched : fetched [cafe "a" .null, cafe "b" (.int 3)] "Seoul" "cafe" 1 2 =
      [cafe "a" .null, cafe "b" (.int 3)] := by
    rw [fetched, List.filter_cons_of_pos (by decide +kernel), List.filter_cons_of_pos (by decide +kernel)]
    rfl
  rw [IsShortlist, hfetched, List.filter_eq_self.mpr] at hshortlist
  · obtain ⟨hlength, -, -, left, hperm, hoptimal⟩ := hshortlist
    obtain ⟨p, rfl⟩ := List.length_eq_one_iff.mp hlength
    have hp : p ∈ [cafe "a" .null, cafe "b" (.int 3)] := hperm.mem_iff.mp List.mem_cons_self
    obtain rfl | hp := List.mem_cons.mp hp
    · -- If the other were kept, this one would be left out, and has the higher rank.
      have hleft : cafe "b" (.int 3) ∈ left := by
        have hmem : cafe "b" (.int 3) ∈ [cafe "a" .null] ++ left := hperm.mem_iff.mpr (by simp)
        refine (List.mem_append.mp hmem).resolve_left fun h => ?_
        exact absurd (Value.text.inj (congrArg Place.id (List.mem_singleton.mp h))) (by decide)
      exact absurd (hoptimal _ List.mem_cons_self _ hleft) (by decide +kernel)
    · rw [List.mem_singleton.mp hp]
  · simp only [List.forall_mem_cons, decide_eq_true_iff]
    exact ⟨heligible (by decide) (.inl rfl), heligible (by decide) (.inr ⟨3, rfl, by decide⟩),
      List.forall_mem_nil _⟩

/-- A rating is a finite number and not near any real one: its place is not dropped, and no shortlist is
given. -/
theorem shortlist_fails_beyond_range :
    let cafe (id : String) (rating : Value) : Place :=
      { id := .text id, name := .text id, category := .text "cafe", region := .text "Seoul",
        rating := rating }
    (∀ p ∈ [cafe "a" (.real 4.5), cafe "b" (.int (10 ^ 309))],
      p.check = .ok () ∧ Pool.LiesIn "Seoul" p ∧ p.rating.IsFinite) ∧
      ∃ s, make (.int 10) (.int 3) [.text "cafe"] = .ok s ∧
        ¬∃ found, s.selectCategory [some (cafe "a" (.real 4.5)), some (cafe "b" (.int (10 ^ 309)))]
          (.text "Seoul") "cafe" (.list []) = .ok found := by
  intro cafe
  have hsearchable : ∀ p ∈ [cafe "a" (.real 4.5), cafe "b" (.int (10 ^ 309))], Pool.Searchable p := by
    simp only [List.forall_mem_cons]
    exact ⟨.of_texts rfl rfl rfl, .of_texts rfl rfl rfl, List.forall_mem_nil _⟩
  refine ⟨?_, _, make_eq 10 3 ["cafe"], ?_⟩
  · simp only [List.forall_mem_cons]
    exact ⟨⟨by decide +kernel, by decide +kernel, _, rfl, by decide +kernel, by decide +kernel⟩,
      ⟨by decide +kernel, by decide +kernel, _, rfl, trivial⟩, List.forall_mem_nil _⟩
  · rintro ⟨found, hfound⟩
    obtain ⟨_, hlimit, hfound⟩ := Result.bind_eq_ok.mp hfound
    obtain rfl := Except.ok.inj hlimit
    obtain ⟨_, hquery, hfound⟩ := Result.bind_eq_ok.mp hfound
    rw [← Except.ok.inj ((Pool.queryWith_eq hsearchable _).symm.trans hquery)] at hfound
    obtain ⟨sifted, hsifted, -⟩ := Result.bind_eq_ok.mp hfound
    obtain ⟨v, hv⟩ := Validation.exists_filter_iff.mp ⟨sifted, hsifted⟩ (cafe "b" (.int (10 ^ 309))) <| by
      rw [List.filter_cons_of_pos (by decide +kernel), List.filter_cons_of_pos (by decide +kernel)]
      exact List.mem_cons_of_mem _ List.mem_cons_self
    have hjudgeable : RecordKind.place.Judgeable (cafe "b" (.int (10 ^ 309))).toRecord :=
      RecordKind.judgeable_iff.mp ⟨v, hv⟩
    exact hjudgeable.2.1 ⟨_, rfl, by decide +kernel⟩

end Selector

end Wayfare
