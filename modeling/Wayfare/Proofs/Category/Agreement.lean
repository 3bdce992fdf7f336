import Mathlib
import Wayfare.Grid.Selected
import Wayfare.Proofs.Category.WholeWords

/-! # One place, one category

A free text is resolved to a category on its trimmed lower-case form, while a place
is matched with a category on the text as it was given. For a text with case in
ASCII only the two agree, and the block that a category prefers takes places of
that category, so that a selection and a suggestion of one kind meet.
-/

namespace Wayfare.Category

open Wayfare.Text

/-! ## Trimming -/

/-- A text is its trimmed part with blanks around it. -/
theorem exists_trimChars (cs : List Char) : ∃ front back, cs = front ++ trimChars cs ++ back ∧
    (∀ c ∈ front, isBlankChar c = true) ∧ ∀ c ∈ back, isBlankChar c = true := by
  refine ⟨cs.takeWhile isBlankChar,
    ((cs.dropWhile isBlankChar).reverse.takeWhile isBlankChar).reverse, ?_, ?_, ?_⟩
  · rw [trimChars, List.append_assoc, ← List.reverse_append, List.takeWhile_append_dropWhile,
      List.reverse_reverse, List.takeWhile_append_dropWhile]
  · exact fun c hc => List.mem_takeWhile_imp hc
  · exact fun c hc => List.mem_takeWhile_imp (List.mem_reverse.mp hc)

/-- Blanks belong to no word. -/
theorem isWordChar_of_isBlankChar {c : Char} (h : isBlankChar c = true) : isWordChar c = false := by
  have hall : ∀ n ∈ blankRanges.flatMap fun r => List.range' r.1 (r.2 + 1 - r.1),
      isWordChar (Char.ofNat n) = false := by decide +kernel
  rw [isBlankChar, Ranges.has, List.any_eq_true] at h
  obtain ⟨r, hr, hc⟩ := h
  rw [Bool.and_eq_true, decide_eq_true_eq, decide_eq_true_eq] at hc
  rw [← Char.ofNat_toNat c]
  exact hall _ (List.mem_flatMap.mpr ⟨r, hr, List.mem_range'_1.mpr (by omega)⟩)

/-! ## Lower case -/

theorem isWordChar_toLower (c : Char) : isWordChar c.toLower = isWordChar c :=
  forall_ascii (p := fun c => isWordChar c.toLower = isWordChar c) (by decide +kernel)
    fun hc => by rw [toLower_eq_self hc]

theorem sameLetter_toLower (letter c : Char) : sameLetter letter c.toLower = sameLetter letter c := by
  rw [sameLetter, sameLetter, lowerChar_toLower]

variable {text : String} {words : List String}

/-- What occurs in the trimmed lower-case form of a text with case in ASCII only occurs in the text. -/
theorem occursIn_of_folded (h : LowersInAscii text)
    (hoccurs : (Keywords.ofList words).occursIn (lower (trim text)) = true) :
    (Keywords.ofList words).occursIn text = true := by
  obtain ⟨front, back, htext, hfront, hback⟩ := exists_trimChars text.toList
  have htrimmed : ∀ c ∈ (trim text).toList, IsAsciiCased c := by
    intro c hc
    rw [trim, String.toList_ofList] at hc
    refine h.isAsciiCased c ?_
    rw [htext]
    exact List.mem_append_left _ (List.mem_append_right _ hc)
  obtain ⟨i, j, hij⟩ := occursIn_ofList.mp hoccurs
  rw [lower_of_isAsciiCased htrimmed] at hij
  have hraw : Occurs words (trim text).toList i j :=
    hij.of_map (fun c _ => isWordChar_toLower c) fun c _ letter hletter => by
      rwa [sameLetter_toLower] at hletter
  rw [trim, String.toList_ofList] at hraw
  have hpadded := hraw.padded (fun c hc => isWordChar_of_isBlankChar (hfront c hc))
    fun c hc => isWordChar_of_isBlankChar (hback c hc)
  rw [← htext] at hpadded
  exact occursIn_ofList.mpr ⟨_, _, hpadded⟩

/-! ## Categories -/

/-- Every category is one of its own keywords. -/
theorem occursIn_self {category : String} (h : category ∈ categories) :
    (Keywords.ofList (keywordsOf category)).occursIn category = true := by
  have hheads : ∀ category ∈ categories, category ∈ keywordsOf category ∧ category.isEmpty = false ∧
      ((lower category).toList.all fun c => decide (c.toNat < 128)) = true ∧
      isBoundary none category.toList = true ∧
      startsWithWhole (lower category).toList category.toList = true := by decide +kernel
  obtain ⟨hown, hnonempty, hlatin, hboundary, hwhole⟩ := hheads category h
  exact (Heads.mk hnonempty hlatin hboundary hwhole).occursIn hown

/-- The category of a text is one of the known ones, and one of its keywords occurs in the text's trimmed
lower-case form. -/
theorem ofText?_eq_some {key : String} (h : ofText? text = some key) :
    key ∈ categories ∧ lower (trim text) ≠ "" ∧
      (Keywords.ofList (keywordsOf key)).occursIn (lower (trim text)) = true := by
  simp only [ofText?] at h
  split at h
  next => cases h
  next hnonempty =>
    have hne : lower (trim text) ≠ "" := by simpa using hnonempty
    split at h
    next hown =>
      obtain rfl := Option.some.inj h
      have hmem := List.contains_iff_mem.mp hown
      exact ⟨hmem, hne, occursIn_self hmem⟩
    next =>
      have hsubset : ∀ c ∈ matchOrder, c ∈ categories := by decide
      have hfound := List.find?_some h
      exact ⟨hsubset key (List.mem_of_find?_eq_some h), hne, hfound⟩

theorem textMatches_of_ofText? {key : String} (hascii : LowersInAscii text)
    (h : ofText? text = some key) : textMatches text key = true := by
  obtain ⟨-, hne, hoccurs⟩ := ofText?_eq_some h
  have hblank : isBlank text = false := by
    rw [Bool.eq_false_iff]
    intro hblank
    -- Nothing is left of a blank text when it is trimmed.
    have hnil : text.toList.dropWhile isBlankChar = [] := by
      rw [List.dropWhile_eq_nil_iff]
      exact List.all_eq_true.mp hblank
    rw [trim, trimChars, hnil] at hne
    exact hne (by decide)
  rw [textMatches, hblank, occursIn_of_folded hascii hoccurs]
  rfl

/-- The block that a category prefers takes places of that category, except for accommodation, which goes
into no block. -/
theorem mem_blockCategories_preferred : ∀ key ∈ categories, key ≠ "accommodation" →
    key ∈ blockCategories ((preferredBlocks.lookup key).getD .afternoon) := by
  decide

/-- A place whose category text has case in ASCII only matches the category that its text is resolved to.
Unless that is accommodation, the block that the text prefers takes the place, and while the block has
room, it is where a selection of the place goes. -/
theorem resolved_category_fits (p : Place) (key : String) (hascii : LowersInAscii p.categoryText)
    (hkey : ofText? p.categoryText = some key) :
    placeMatches p key = true ∧
    (key ≠ "accommodation" → fits p (preferredBlock p.categoryText) = true ∧
      ∀ (capacity : Int) (slots : PerBlock Slot),
        (slots.get (preferredBlock p.categoryText)).isFull capacity = false →
          fits p (Grid.bestBlock capacity p.categoryText slots) = true) := by
  have hmatches : placeMatches p key = true := textMatches_of_ofText? hascii hkey
  refine ⟨hmatches, fun hne => ?_⟩
  have hfits : fits p (preferredBlock p.categoryText) = true := by
    have hmem := mem_blockCategories_preferred key (ofText?_eq_some hkey).1 hne
    rw [preferredBlock, hkey, Option.bind_some]
    exact List.any_eq_true.mpr ⟨key, hmem, hmatches⟩
  refine ⟨hfits, fun capacity slots hroom => ?_⟩
  rw [Grid.bestBlock, if_pos (by rw [hroom]; rfl)]
  exact hfits

/-- A text in capitals, in the plural, with blanks around it and a name in another script. -/
theorem resolved_category_fits_amusement_parks :
    let p : Place := { id := .text "e", name := .text "E", category := .text "\tAmusement PARKS 용인 " }
    LowersInAscii p.categoryText ∧ ofText? p.categoryText = some "theme_park" ∧
      placeMatches p "theme_park" = true ∧
      fits p (Grid.bestBlock 2 p.categoryText (PerBlock.ofFn fun _ => {})) = true := by
  intro p
  have hascii : LowersInAscii p.categoryText := by
    rw [LowersInAscii]
    decide +kernel
  have hfolded : lower (trim p.categoryText) = "amusement parks 용인" := by decide +kernel
  have hheads : Heads "amusement" "amusement parks 용인" :=
    ⟨by decide, by decide +kernel, by decide +kernel, by decide +kernel⟩
  have hkey : ofText? p.categoryText = some "theme_park" := by
    rw [ofText?, hfolded, if_neg (by decide), if_neg (by decide)]
    exact List.find?_cons_of_pos (hheads.occursIn (by decide))
  obtain ⟨hmatches, hfits⟩ := resolved_category_fits p "theme_park" hascii hkey
  refine ⟨hascii, hkey, hmatches, (hfits (by decide)).2 2 _ ?_⟩
  rw [PerBlock.get_ofFn]
  rfl

end Wayfare.Category
