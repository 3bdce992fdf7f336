import Wayfare.Category.Affinity

/-! # Keywords at the front of a text

A keyword that is a whole word at the front of a text is found there, so that a
place whose category text begins with such a word suits the blocks of its
category.
-/

namespace Wayfare.Category

open Wayfare.Text

/-- The keywords that match as whole words are the given ones in lower case, as far as they are Latin. -/
theorem Keywords.mem_latin_ofList {words : List String} {word : List Char} :
    word ∈ (ofList words).latin ↔
      (∃ w ∈ words, w.isEmpty = false ∧ (lower w).toList = word) ∧
        (word.all fun c => decide (c.toNat < 128)) = true := by
  simp [ofList, List.mem_filter, List.mem_mergeSort, List.mem_eraseDups, and_assoc]

/-- A keyword is a form of itself. -/
theorem Keywords.mem_forms {k : Keywords} {word : List Char} (h : word ∈ k.latin) :
    word ∈ k.forms := by
  rw [forms, List.mem_flatMap]
  refine ⟨word, h, List.mem_map.mpr ⟨[], by decide, ?_⟩⟩
  exact List.append_nil word

/-- A word begins a text as a whole word. -/
structure Heads (word text : String) : Prop where
  nonempty : word.isEmpty = false
  latin : ((lower word).toList.all fun c => decide (c.toNat < 128)) = true
  boundary : isBoundary none text.toList = true
  whole : startsWithWhole (lower word).toList text.toList = true

theorem Heads.occursIn {words : List String} {word text : String} (h : Heads word text)
    (hword : word ∈ words) : (Keywords.ofList words).occursIn text = true := by
  have hform : (lower word).toList ∈ (Keywords.ofList words).forms :=
    Keywords.mem_forms (Keywords.mem_latin_ofList.mpr ⟨⟨word, hword, h.nonempty, rfl⟩, h.latin⟩)
  have hmatch : ((Keywords.ofList words).matchAt none text.toList).isSome = true := by
    have hwhole : ((Keywords.ofList words).forms.find? fun w =>
        startsWithWhole w text.toList).isSome = true :=
      List.find?_isSome.mpr ⟨_, hform, h.whole⟩
    obtain ⟨form, hfound⟩ := Option.isSome_iff_exists.mp hwhole
    rw [Keywords.matchAt, if_pos h.boundary, hfound]
    rfl
  rw [Keywords.occursIn, Keywords.find?]
  cases htext : text.toList with
  | nil =>
      -- An empty text has no boundary at its front.
      have hboundary := h.boundary
      rw [htext] at hboundary
      exact absurd hboundary (by decide)
  | cons c cs =>
      rw [htext] at hmatch
      obtain ⟨n, hn⟩ := Option.isSome_iff_exists.mp hmatch
      rw [Keywords.findFrom, hn]
      rfl

/-- A place belongs to a category if its category text begins with a keyword of that category. -/
theorem Heads.placeMatches {p : Place} {category word : String} (h : Heads word p.categoryText)
    (hword : word ∈ keywordsOf category) (hblank : isBlank p.categoryText = false) :
    Category.placeMatches p category = true := by
  rw [Category.placeMatches, textMatches, hblank, h.occursIn hword]
  rfl

/-- A place suits a block if its category text begins with a keyword of a category of that block. -/
theorem Heads.fits {p : Place} {b : Block} {word : String} (h : Heads word p.categoryText)
    (category : String) (hcategory : category ∈ blockCategories b) (hword : word ∈ keywordsOf category)
    (hblank : isBlank p.categoryText = false) : fits p b = true :=
  List.any_eq_true.mpr ⟨category, hcategory, h.placeMatches hword hblank⟩

end Wayfare.Category
