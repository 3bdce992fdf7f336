import Mathlib
import Wayfare.Pool
import Wayfare.Proofs.Category.WholeWords
import Wayfare.Proofs.Number
import Wayfare.Proofs.Success

/-! # What a query finds

A query gives the first places of the region with a keyword in the category, as
many as it is allowed. It looks for keywords in the lower-case text, while a
category is told by letters whatever their case, and a few letters are forms of
others without being their capitals. A place of the category is found unless its
text spells the keyword with such a letter.
-/

namespace Wayfare

open Wayfare.Category Wayfare.Text

theorem Value.textOrEmpty_of_givenText? {v : Value} {given : Option String}
    (h : v.givenText? = .ok given) : v.textOrEmpty = given.getD "" := by
  unfold givenText? at h
  split at h
  next hfalsy =>
    cases h
    cases v with
    | text s => simpa [isTruthy, textOrEmpty] using hfalsy
    | _ => rfl
  next =>
    cases v with
    | text s =>
        cases h
        rfl
    | _ => cases h

theorem Place.categoryText_of_readCategory {p : Place} {text : String} (h : p.readCategory = .ok text) :
    p.categoryText = text := by
  obtain ⟨given, hgiven, h⟩ := Result.bind_eq_ok.mp h
  rw [categoryText, Value.textOrEmpty_of_givenText? hgiven]
  exact Result.pure_eq_ok.mp h

theorem Value.givenTexts_texts (texts : List String) :
    Value.givenTexts (texts.map .text) = .ok (texts.filter (!·.isEmpty)) := by
  rw [givenTexts, List.filter_map, Result.mapM_eq_ok, List.forall₂_map_left_iff]
  change List.Forall₂ _ (texts.filter (!·.isEmpty)) (texts.filter (!·.isEmpty))
  exact List.forall₂_same.mpr fun _ _ => rfl

namespace Pool

/-- The fields of a place by which a query chooses can be read. -/
structure Searchable (p : Place) : Prop where
  region : ∃ own, p.region.givenText? = .ok own
  address : ∃ address, p.address.givenText? = .ok address
  category : ∃ text, p.readCategory = .ok text

/-- A place lies in a region; none lies in a blank one. -/
def LiesIn (region : String) (p : Place) : Prop :=
  (folded region).isEmpty = false ∧ inRegion region p = .ok true

instance (region : String) (p : Place) : Decidable (LiesIn region p) :=
  inferInstanceAs (Decidable (_ ∧ _))

/-- Whether a place is one that a query asks for. -/
def asks (region : String) (keywords : List String) (p : Place) : Bool :=
  decide (LiesIn region p) && hasKeyword keywords p.categoryText

variable {region : String} {keywords : List String} {places : List Place}

theorem Searchable.of_texts {p : Place} {region address category : String}
    (hregion : p.region = .text region) (haddress : p.address = .text address)
    (hcategory : p.category = .text category) : Searchable p := by
  have hgiven (s : String) : ∃ given, (Value.text s).givenText? = .ok given := by
    rw [Value.givenText?]
    split <;> exact ⟨_, rfl⟩
  exact ⟨hregion ▸ hgiven region, haddress ▸ hgiven address,
    Result.exists_bind_eq_ok (hcategory ▸ hgiven category) fun _ _ => ⟨_, rfl⟩⟩

theorem Searchable.exists_inRegion {p : Place} (h : Searchable p) (region : String) :
    ∃ inside, inRegion region p = .ok inside := by
  refine Result.exists_bind_eq_ok h.region fun own _ => ?_
  cases own with
  | some own => exact ⟨_, rfl⟩
  | none => exact Result.exists_bind_eq_ok h.address fun _ _ => ⟨_, rfl⟩

theorem Searchable.answers_eq {p : Place} (h : Searchable p) (hregion : (folded region).isEmpty = false) :
    answers region keywords p = .ok (asks region keywords p) := by
  obtain ⟨inside, hinside⟩ := h.exists_inRegion region
  obtain ⟨text, htext⟩ := h.category
  rw [answers, hinside, Result.ok_bind, asks, Place.categoryText_of_readCategory htext]
  cases inside with
  | false => simp [LiesIn, hinside, pure, Except.pure]
  | true => simp [LiesIn, hinside, hregion, htext, Result.ok_bind, pure, Except.pure]

/-- A search ends when there are enough places, and has found the first ones that are asked for. -/
theorem search_eq (hplaces : ∀ p ∈ places, Searchable p) (hregion : (folded region).isEmpty = false)
    (room : Nat) : search region keywords room (places.map some) =
      .ok ((places.filter (asks region keywords)).take room) := by
  induction places generalizing room with
  | nil => cases room <;> rfl
  | cons p rest ih =>
      cases room with
      | zero => rfl
      | succ room =>
          obtain ⟨hp, hrest⟩ := List.forall_mem_cons.mp hplaces
          rw [List.map_cons, search, hp.answers_eq hregion, Result.ok_bind, List.filter_cons]
          cases asks region keywords p with
          | false => exact ih hrest (room + 1)
          | true =>
              rw [if_pos rfl, if_pos rfl, ih hrest room]
              rfl

theorem query_eq (hplaces : ∀ p ∈ places, Searchable p) (limit : Nat) :
    query (places.map some) region keywords limit =
      .ok ((places.filter (asks region keywords)).take limit) := by
  rw [query]
  split
  next hblank =>
    have hnone : places.filter (asks region keywords) = [] := by
      refine List.filter_eq_nil_iff.mpr fun p _ => ?_
      simp [asks, LiesIn, hblank]
    rw [hnone, List.take_nil]
  next hregion => exact search_eq hplaces (by simpa using hregion) limit

/-! ## Keywords in lower case -/

/-- Keywords are looked for in the lower-case text as they are in lower case, and empty ones ask for
nothing. -/
theorem hasKeyword_iff {text : String} : hasKeyword keywords text = true ↔
    (∀ k ∈ keywords, k = "") ∨
      ∃ k ∈ keywords, k ≠ "" ∧ (lower k).toList <:+: (lower text).toList := by
  rw [hasKeyword, Bool.or_eq_true, List.isEmpty_iff, List.map_eq_nil_iff, List.filter_eq_nil_iff,
    List.any_eq_true]
  refine or_congr (by simp) ?_
  simp only [List.mem_map, List.mem_filter, occursIn_iff]
  constructor
  · rintro ⟨_, ⟨k, ⟨hk, hne⟩, rfl⟩, hin⟩
    exact ⟨k, hk, by simpa using hne, hin⟩
  · rintro ⟨k, hk, hne, hin⟩
    exact ⟨_, ⟨k, ⟨hk, by simpa using hne⟩, rfl⟩, hin⟩

theorem hasKeyword_givenOnes {text : String} :
    hasKeyword (keywords.filter (!·.isEmpty)) text = hasKeyword keywords text := by
  rw [hasKeyword, hasKeyword, List.filter_filter]
  simp only [Bool.and_self]

theorem asks_givenOnes : asks region (keywords.filter (!·.isEmpty)) = asks region keywords := by
  funext p
  rw [asks, asks, hasKeyword_givenOnes]

/-- The answer to a query is the first places that it asks for. -/
theorem queryWith_eq (hplaces : ∀ p ∈ places, Searchable p) (limit : Int) :
    queryWith (places.map some) (.text region) (.list (keywords.map .text)) (.int limit) =
      .ok ((places.filter (asks region keywords)).take limit.toNat) := by
  rw [queryWith]
  split
  next hnone =>
    rw [Int.toNat_of_nonpos (Number.int_le_int.mp hnone), List.take_zero]
  next =>
    rw [show Validation.entries (.list (keywords.map .text)) = .ok (keywords.map .text) from rfl,
      Result.ok_bind, Value.givenTexts_texts, Result.ok_bind]
    cases places with
    | nil => simp [pure, Except.pure]
    | cons p rest =>
        change query ((p :: rest).map some) region _ limit.toNat = _
        rw [query_eq hplaces, asks_givenOnes]

/-! ## Matching places -/

/-- A text holds the letters of some words in no other form than those letters and their capitals. -/
def ReadsAlike (words : List String) (text : String) : Prop :=
  ∀ word ∈ words, ∀ letter ∈ (lower word).toList, ∀ c ∈ text.toList,
    sameLetter letter c = true → IsPlain c ∧ lowerChar c = letter

/-- Where a word stands in a text that reads alike, the lower-case text holds it. -/
theorem infix_lower_of_standsAt {word : List Char} {text : String} {i : Nat}
    (hreads : ∀ letter ∈ word, ∀ c ∈ text.toList, sameLetter letter c = true →
      IsPlain c ∧ lowerChar c = letter)
    (h : StandsAt word text.toList i) : word <:+: (lower text).toList := by
  obtain ⟨stretch, hstretch⟩ : ∃ stretch, stretch = (text.toList.drop i).take word.length := ⟨_, rfl⟩
  have htext : text.toList =
      text.toList.take i ++ stretch ++ (text.toList.drop i).drop word.length := by
    rw [hstretch, List.append_assoc, List.take_append_drop, List.take_append_drop]
  rw [StandsAt, ← hstretch] at h
  have hletters : List.Forall₂ (fun letter c => IsPlain c ∧ letter = lowerChar c) word stretch := by
    refine List.forall₂_iff_get.mpr ⟨h.length_eq, fun n hn hn' => ?_⟩
    have hmem : stretch.get ⟨n, hn'⟩ ∈ text.toList := by
      rw [htext]
      exact List.mem_append_left _ (List.mem_append_right _ (List.get_mem _ _))
    obtain ⟨hplain, hlow⟩ := hreads _ (List.get_mem _ _) _ hmem (h.get hn hn')
    exact ⟨hplain, hlow.symm⟩
  have hplain : ∀ c ∈ stretch, IsPlain c := by
    intro c hc
    obtain ⟨_, _, hc, _⟩ := Result.exists_of_mem_forall₂ hletters hc
    exact hc
  have hlower : stretch.map lowerChar = word.map id :=
    Result.map_eq_map_of_forall₂ (hletters.imp fun _ _ h => h.2.symm)
  obtain ⟨front, rest, hlow⟩ := exists_lower_of_plain htext hplain
  exact ⟨front, rest, by rw [hlow, hlower, List.map_id]⟩

/-- Whatever occurs in a text that reads alike is found in its lower-case form. -/
theorem hasKeyword_of_occursIn {text : String} (hreads : ReadsAlike keywords text)
    (h : (Keywords.ofList keywords).occursIn text = true) : hasKeyword keywords text = true := by
  obtain ⟨i, j, hoccurs⟩ := occursIn_ofList.mp h
  obtain ⟨word, hword, hne, hstands⟩ := hoccurs.exists_standsAt
  exact hasKeyword_iff.mpr (.inr ⟨word, hword, hne, infix_lower_of_standsAt (hreads word hword) hstands⟩)

/-- Of the letters that are forms of others only the long s and the dotless i and the dotted I come up in
the keywords of the known categories. -/
theorem readsAlike_of_category {category text : String} (hcategory : category ∈ categories)
    (hlong : 'ſ' ∉ text.toList) (hdotless : 'ı' ∉ text.toList) (hdotted : 'İ' ∉ text.toList) :
    ReadsAlike (keywordsOf category) text := by
  have hall : ∀ category ∈ categories, ∀ word ∈ keywordsOf category,
      ((lowerFrom [] word.toList).all fun letter => lowerChar letter == letter && letter != 'σ' &&
        (letterVariants.find? fun row => row.1 == letter.toNat).all fun row =>
          row.2.all fun n => n == 'ſ'.toNat || n == 'ı'.toNat) = true := by decide +kernel
  intro word hword letter hletter c hc hsame
  rw [lower, String.toList_ofList] at hletter
  have hform := List.all_eq_true.mp (hall category hcategory word hword) letter hletter
  simp only [Bool.and_eq_true, beq_iff_eq, bne_iff_ne, Option.all_eq_true, List.all_eq_true,
    Bool.or_eq_true] at hform
  obtain ⟨⟨hlow, hsigma⟩, hvariants⟩ := hform
  have hlower : lowerChar c = letter := by
    obtain heq | ⟨row, hrow, hmem⟩ := sameLetter_iff.mp hsame
    · rw [heq, hlow]
    · rw [hlow] at hrow
      obtain h | h := hvariants row hrow _ hmem
      · exact absurd (eq_of_lowerChar (by simp) (Char.toNat_inj.mp h) ▸ hc) hlong
      · exact absurd (eq_of_lowerChar (by simp) (Char.toNat_inj.mp h) ▸ hc) hdotless
  refine ⟨⟨?_, fun h => hdotted (h ▸ hc)⟩, hlower⟩
  rintro rfl
  exact hsigma (hlower.symm.trans (by decide +kernel))

/-- A query for a category that may give as many places as there are finds a place of the region that
matches the category exactly if the lower-case text of the place holds a keyword. That is so if the text
reads alike, and for a known category if the text has neither a long s nor an i that is without its dot or
keeps it as a capital. -/
theorem query_finds_matching (hplaces : ∀ p ∈ places, Searchable p) (region category : String)
    (limit : Int) (hlimit : places.length ≤ limit) :
    ∃ found, queryWith (places.map some) (.text region) (.list ((keywordsOf category).map .text))
        (.int limit) = .ok found ∧
      ∀ p ∈ places, LiesIn region p → placeMatches p category = true →
        (p ∈ found ↔ ∃ k ∈ keywordsOf category, k ≠ "" ∧
          (lower k).toList <:+: (lower p.categoryText).toList) ∧
        (ReadsAlike (keywordsOf category) p.categoryText → p ∈ found) ∧
        (category ∈ categories → 'ſ' ∉ p.categoryText.toList → 'ı' ∉ p.categoryText.toList →
          'İ' ∉ p.categoryText.toList → p ∈ found) := by
  refine ⟨_, queryWith_eq hplaces limit, fun p hp hregion hmatches => ?_⟩
  have hoccurs : (Keywords.ofList (keywordsOf category)).occursIn p.categoryText = true :=
    (Bool.and_eq_true .. ▸ hmatches).2
  have hfound : p ∈ (places.filter (asks region (keywordsOf category))).take limit.toNat ↔
      hasKeyword (keywordsOf category) p.categoryText = true := by
    have hlength := List.length_filter_le (asks region (keywordsOf category)) places
    rw [List.take_of_length_le (by omega), List.mem_filter, and_iff_right hp, asks,
      decide_eq_true hregion, Bool.true_and]
  refine ⟨?_, fun hreads => ?_, fun hcategory hlong hdotless hdotted => ?_⟩
  · rw [hfound, hasKeyword_iff, or_iff_right]
    intro hempty
    obtain ⟨_, _, hoccurs⟩ := occursIn_ofList.mp hoccurs
    obtain ⟨word, hword, hne, -⟩ := hoccurs.exists_standsAt
    exact hne (hempty word hword)
  · exact hfound.mpr (hasKeyword_of_occursIn hreads hoccurs)
  · have hreads := readsAlike_of_category hcategory hlong hdotless hdotted
    exact hfound.mpr (hasKeyword_of_occursIn hreads hoccurs)

/-- A mall is found by the words for shopping, in capitals and next to a name in another script, and a
mountain is not asked for. -/
theorem query_finds_matching_mall :
    let mountain : Place :=
      { id := .text "m", name := .text "M", category := .text "mountain", region := .text "Seoul" }
    let mall : Place :=
      { id := .text "a", name := .text "A", category := .text "MALL 명동", address := .text "1 Seoul-ro" }
    placeMatches mall "shopping" = true ∧
      ∃ found, queryWith [some mountain, some mall] (.text "seoul ")
        (.list ((keywordsOf "shopping").map .text)) (.int 2) = .ok found ∧ mall ∈ found := by
  intro mountain mall
  have hheads : Heads "mall" mall.categoryText :=
    ⟨by decide, by decide +kernel, by decide +kernel, by decide +kernel⟩
  have hmatches : placeMatches mall "shopping" = true :=
    hheads.placeMatches (by decide) (by decide +kernel)
  have hsearchable : ∀ p ∈ [mountain, mall], Searchable p := by
    simp only [List.forall_mem_cons]
    exact ⟨.of_texts rfl rfl rfl, .of_texts rfl rfl rfl, List.forall_mem_nil _⟩
  obtain ⟨found, hquery, hfinds⟩ :=
    query_finds_matching hsearchable "seoul " "shopping" 2 (by decide)
  obtain ⟨-, -, hknown⟩ := hfinds mall (by simp) (by decide +kernel) hmatches
  exact ⟨hmatches, found, hquery,
    hknown (by decide) (by decide +kernel) (by decide +kernel) (by decide +kernel)⟩

/-- A long s is an s when case is ignored, and no s in lower case: the place matches, and is not found. -/
theorem query_misses_long_s :
    let p : Place :=
      { id := .text "a", name := .text "A", category := .text "ſhopping", region := .text "Seoul" }
    p.check = .ok () ∧ LiesIn "Seoul" p ∧ placeMatches p "shopping" = true ∧
      queryWith [some p] (.text "Seoul") (.list ((keywordsOf "shopping").map .text)) (.int 1) =
        .ok [] := by
  intro p
  have hheads : Heads "shopping" p.categoryText :=
    ⟨by decide, by decide +kernel, by decide +kernel, by decide +kernel⟩
  have hmatches : placeMatches p "shopping" = true :=
    hheads.placeMatches (by decide) (by decide +kernel)
  have hsearchable : ∀ q ∈ [p], Searchable q :=
    List.forall_mem_singleton.mpr (.of_texts rfl rfl rfl)
  refine ⟨by decide +kernel, by decide +kernel, hmatches, ?_⟩
  refine (queryWith_eq hsearchable 1).trans ?_
  rw [List.filter_cons_of_neg (by decide +kernel)]
  rfl

end Pool

end Wayfare
