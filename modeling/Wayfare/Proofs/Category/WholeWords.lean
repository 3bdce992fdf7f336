import Mathlib
import Wayfare.Proofs.Category.Keyword
import Wayfare.Proofs.Text.Case

/-! # Where keywords occur

A keyword in the Latin alphabet occurs in a text where it stands between two word
boundaries, by itself or in the plural; any other keyword occurs wherever it
stands. The search for keywords finds an occurrence if there is one, and it finds
the leftmost.
-/

namespace Wayfare.Category

open Wayfare.Text

/-- A word stands in a text from a position on, whatever the case of its letters. -/
def StandsAt (word text : List Char) (i : Nat) : Prop :=
  List.Forall₂ (fun letter c => sameLetter letter c = true) word ((text.drop i).take word.length)

def WordBefore (text : List Char) (i : Nat) : Prop :=
  ∃ j c, i = j + 1 ∧ text[j]? = some c ∧ isWordChar c = true

def WordAfter (text : List Char) (i : Nat) : Prop :=
  ∃ c, text[i]? = some c ∧ isWordChar c = true

/-- At a word boundary exactly one of the neighbours is a word character. -/
def BoundaryAt (text : List Char) (i : Nat) : Prop :=
  Xor (WordBefore text i) (WordAfter text i)

def IsLatin (word : String) : Prop :=
  ∀ c ∈ word.toList, c.toNat < 128

/-- The stretch of a text between two positions is an occurrence of one of some keywords. -/
inductive Occurs (words : List String) (text : List Char) (i j : Nat) : Prop
  /-- A keyword in the Latin alphabet, perhaps in the plural, between word boundaries. -/
  | whole {word : String} {ending : List Char} (hword : word ∈ words) (hne : word ≠ "")
      (hlatin : IsLatin (lower word)) (hending : ending ∈ [['e', 's'], ['s'], []])
      (hstands : StandsAt ((lower word).toList ++ ending) text i)
      (hend : j = i + ((lower word).toList ++ ending).length)
      (hopens : BoundaryAt text i) (hcloses : BoundaryAt text j)
  /-- A keyword in another script, anywhere. -/
  | anywhere {word : String} (hword : word ∈ words) (hne : word ≠ "") (hother : ¬IsLatin (lower word))
      (hstands : StandsAt (lower word).toList text i) (hend : j = i + (lower word).toList.length)

/-! ## Words and boundaries -/

theorem startsWith_iff {word text : List Char} : startsWith word text = true ↔
    List.Forall₂ (fun letter c => sameLetter letter c = true) word (text.take word.length) := by
  induction word generalizing text with
  | nil => simp [startsWith]
  | cons letter word ih =>
      cases text with
      | nil => simp [startsWith]
      | cons c text => simp [startsWith, ih]

theorem startsWith_iff_standsAt {word seen rest : List Char} :
    startsWith word rest = true ↔ StandsAt word (seen ++ rest) seen.length := by
  rw [startsWith_iff, StandsAt, List.drop_left]

theorem StandsAt.le_length {word text : List Char} {i : Nat} (h : StandsAt word text i)
    (hne : word ≠ []) : i + word.length ≤ text.length := by
  have hlength := h.length_eq
  rw [List.length_take, List.length_drop] at hlength
  have hpos := List.length_pos_of_ne_nil hne
  omega

theorem StandsAt.of_append {word ending text : List Char} {i : Nat}
    (h : StandsAt (word ++ ending) text i) : StandsAt word text i := by
  have hword := List.forall₂_take word.length h
  rwa [List.take_left, List.take_take, List.length_append, Nat.min_eq_left (Nat.le_add_right _ _)]
    at hword

theorem wordBefore_iff {seen rest : List Char} :
    WordBefore (seen ++ rest) seen.length ↔ (seen.getLast?.map isWordChar).getD false = true := by
  rw [WordBefore]
  cases seen using List.reverseRecOn with
  | nil => simp
  | append_singleton front c => simp

theorem wordAfter_iff {seen rest : List Char} :
    WordAfter (seen ++ rest) seen.length ↔ (rest.head?.map isWordChar).getD false = true := by
  rw [WordAfter]
  cases rest with
  | nil => simp
  | cons c rest => simp

theorem isBoundary_iff {seen rest : List Char} :
    isBoundary seen.getLast? rest = true ↔ BoundaryAt (seen ++ rest) seen.length := by
  rw [isBoundary, BoundaryAt, wordBefore_iff, wordAfter_iff, bne_iff_ne, Ne, Bool.eq_iff_iff,
    xor_iff_not_iff]

/-- A word that is not empty ends at a boundary within a text if it does so in the rest of the text. -/
theorem startsWithWhole_iff {word seen rest : List Char} (hne : word ≠ []) :
    startsWithWhole word rest = true ↔ StandsAt word (seen ++ rest) seen.length ∧
      BoundaryAt (seen ++ rest) (seen.length + word.length) := by
  rw [startsWithWhole, Bool.and_eq_true, @startsWith_iff_standsAt word seen rest]
  refine and_congr_right fun hstands => ?_
  have hlength := hstands.le_length hne
  rw [List.length_append] at hlength
  have htake : (rest.take word.length).length = word.length := List.length_take_of_le (by omega)
  have hpos := List.length_pos_of_ne_nil hne
  -- What stands before the end of the word is its last character.
  have hlast : (rest.take word.length).getLast? = (seen ++ rest.take word.length).getLast? := by
    rw [List.getLast?_append_of_ne_nil _ (List.ne_nil_of_length_pos (by omega))]
  rw [hlast, isBoundary_iff, List.append_assoc, List.take_append_drop, List.length_append, htake]

/-! ## Matches at one position -/

theorem Keywords.mem_forms_iff {k : Keywords} {form : List Char} :
    form ∈ k.forms ↔ ∃ word ∈ k.latin, ∃ ending ∈ endings, form = word ++ ending := by
  simp only [forms, List.mem_flatMap, List.mem_map, eq_comm]

theorem Keywords.mem_other_ofList {words : List String} {word : List Char} :
    word ∈ (ofList words).other ↔
      (∃ w ∈ words, w.isEmpty = false ∧ (lower w).toList = word) ∧
        ¬(word.all fun c => decide (c.toNat < 128)) = true := by
  simp [ofList, List.mem_filter, List.mem_mergeSort, List.mem_eraseDups, and_assoc]

theorem isLatin_iff {word : String} :
    IsLatin word ↔ (word.toList.all fun c => decide (c.toNat < 128)) = true := by
  simp [IsLatin]

variable {words : List String} {text seen rest : List Char} {i j : Nat}

theorem Occurs.lt (h : Occurs words text i j) : i < j := by
  cases h with
  | whole _ hne _ _ _ hend _ _ =>
      have hpos := List.length_pos_of_ne_nil (lower_ne_nil hne)
      rw [List.length_append] at hend
      omega
  | anywhere _ hne _ _ hend =>
      have hpos := List.length_pos_of_ne_nil (lower_ne_nil hne)
      omega

theorem Occurs.le_length (h : Occurs words text i j) : j ≤ text.length := by
  cases h with
  | whole _ hne _ _ hstands hend _ _ =>
      rw [hend]
      exact hstands.le_length (List.append_ne_nil_of_left_ne_nil (lower_ne_nil hne) _)
  | anywhere _ hne _ hstands hend =>
      rw [hend]
      exact hstands.le_length (lower_ne_nil hne)

/-- Whatever occurs begins with a keyword that is not empty. -/
theorem Occurs.exists_standsAt (h : Occurs words text i j) :
    ∃ word ∈ words, word ≠ "" ∧ StandsAt (lower word).toList text i := by
  cases h with
  | whole hword hne _ _ hstands _ _ _ => exact ⟨_, hword, hne, hstands.of_append⟩
  | anywhere hword hne _ hstands _ => exact ⟨_, hword, hne, hstands⟩

theorem occurs_of_matchAt {n : Nat} (h : (Keywords.ofList words).matchAt seen.getLast? rest = some n) :
    Occurs words (seen ++ rest) seen.length (seen.length + n) := by
  rw [Keywords.matchAt, Option.map_eq_some_iff] at h
  obtain ⟨form, hform, rfl⟩ := h
  rw [Option.orElse_eq_orElse, Option.orElse_eq_or, Option.or_eq_some_iff] at hform
  rcases hform with hwhole | ⟨-, hother⟩
  · split at hwhole
    next hopens =>
      obtain ⟨_, hmem, ending, hending, rfl⟩ :=
        Keywords.mem_forms_iff.mp (List.mem_of_find?_eq_some hwhole)
      obtain ⟨⟨word, hword, hne, rfl⟩, hlatin⟩ := Keywords.mem_latin_ofList.mp hmem
      have hne : word ≠ "" := by simpa using hne
      have hform : (lower word).toList ++ ending ≠ [] :=
        List.append_ne_nil_of_left_ne_nil (lower_ne_nil hne) _
      have hfound := List.find?_some hwhole
      obtain ⟨hstands, hcloses⟩ := (startsWithWhole_iff hform).mp hfound
      exact .whole hword hne (isLatin_iff.mpr hlatin) hending hstands rfl (isBoundary_iff.mp hopens)
        hcloses
    next => cases hwhole
  · obtain ⟨⟨word, hword, hne, rfl⟩, hscript⟩ :=
      Keywords.mem_other_ofList.mp (List.mem_of_find?_eq_some hother)
    have hfound := List.find?_some hother
    exact .anywhere hword (by simpa using hne) (isLatin_iff.not.mpr hscript)
      (startsWith_iff_standsAt.mp hfound) rfl

theorem exists_matchAt (h : Occurs words (seen ++ rest) seen.length j) :
    ∃ n, (Keywords.ofList words).matchAt seen.getLast? rest = some n := by
  rw [← Option.isSome_iff_exists, Keywords.matchAt, Option.isSome_map, Option.orElse_eq_orElse,
    Option.orElse_eq_or, Option.isSome_or, Bool.or_eq_true]
  cases h with
  | @whole word ending hword hne hlatin hending hstands hend hopens hcloses =>
      left
      rw [if_pos (isBoundary_iff.mpr hopens), List.find?_isSome]
      refine ⟨(lower word).toList ++ ending, Keywords.mem_forms_iff.mpr ⟨_, ?_, ending, hending, rfl⟩, ?_⟩
      · exact Keywords.mem_latin_ofList.mpr ⟨⟨word, hword, by simpa using hne, rfl⟩, isLatin_iff.mp hlatin⟩
      · subst hend
        exact (startsWithWhole_iff (List.append_ne_nil_of_left_ne_nil (lower_ne_nil hne) _)).mpr
          ⟨hstands, hcloses⟩
  | @anywhere word hword hne hother hstands hend =>
      right
      rw [List.find?_isSome]
      exact ⟨_, Keywords.mem_other_ofList.mpr ⟨⟨word, hword, by simpa using hne, rfl⟩,
        isLatin_iff.not.mp hother⟩, startsWith_iff_standsAt.mpr hstands⟩

/-! ## The search -/

/-- What a search from a position on tells: the leftmost occurrence that begins there or later, or that
there is none. -/
def Finds (words : List String) (text : List Char) (start : Nat) : Option (Nat × Nat) → Prop
  | some (i, j) => start ≤ i ∧ Occurs words text i j ∧
      ∀ i', start ≤ i' → i' < i → ∀ j', ¬Occurs words text i' j'
  | none => ∀ i, start ≤ i → ∀ j, ¬Occurs words text i j

theorem finds_findFrom (words : List String) (seen rest : List Char) :
    Finds words (seen ++ rest) seen.length
      ((Keywords.ofList words).findFrom seen.length seen.getLast? rest) := by
  induction rest generalizing seen with
  | nil =>
      intro i hi j h
      have := h.lt
      have := h.le_length
      rw [List.append_nil] at this
      omega
  | cons c rest ih =>
      rw [Keywords.findFrom]
      split
      next n hmatch =>
        refine ⟨Nat.le_refl _, occurs_of_matchAt hmatch, fun i' hi' hlt => ?_⟩
        omega
      next hnone =>
        have hhere (j : Nat) : ¬Occurs words (seen ++ c :: rest) seen.length j := by
          intro h
          obtain ⟨n, hn⟩ := exists_matchAt h
          rw [hnone] at hn
          cases hn
        have hrest := ih (seen ++ [c])
        rw [List.append_assoc, List.singleton_append, List.length_append, List.length_singleton,
          List.getLast?_append_of_ne_nil _ (List.cons_ne_nil c []), List.getLast?_singleton] at hrest
        have hstart {i : Nat} (hi : seen.length ≤ i) : i = seen.length ∨ seen.length + 1 ≤ i := by omega
        generalize (Keywords.ofList words).findFrom (seen.length + 1) (some c) rest = found at hrest
        cases found with
        | none =>
            intro i hi
            obtain rfl | hlater := hstart hi
            · exact hhere
            · exact hrest i hlater
        | some stretch =>
            obtain ⟨i, j⟩ := stretch
            obtain ⟨hi, hoccurs, hfirst⟩ := hrest
            refine ⟨by omega, hoccurs, fun i' hi' hlt => ?_⟩
            obtain rfl | hlater := hstart hi'
            · exact hhere
            · exact hfirst i' hlater hlt

theorem finds_find? (words : List String) (text : String) :
    Finds words text.toList 0 ((Keywords.ofList words).find? text) :=
  finds_findFrom words [] text.toList

/-- Keywords are found in a text exactly if one of them occurs there. -/
theorem occursIn_ofList {words : List String} {text : String} :
    (Keywords.ofList words).occursIn text = true ↔ ∃ i j, Occurs words text.toList i j := by
  have hfinds := finds_find? words text
  rw [Keywords.occursIn]
  cases hfound : (Keywords.ofList words).find? text with
  | none =>
      rw [hfound] at hfinds
      simpa using fun i => hfinds i (Nat.zero_le i)
  | some found =>
      rw [hfound] at hfinds
      simpa using ⟨_, _, hfinds.2.1⟩

/-- Keywords are found in a text exactly if one of them occurs there, and what is found is an occurrence
that no other precedes. Keywords that are all empty are never found. -/
theorem find?_leftmost_occurrence (words : List String) (text : String) :
    ((∃ stretch, (Keywords.ofList words).find? text = some stretch) ↔
      ∃ i j, Occurs words text.toList i j) ∧
    (∀ i j, (Keywords.ofList words).find? text = some (i, j) →
      Occurs words text.toList i j ∧ ∀ i' < i, ∀ j', ¬Occurs words text.toList i' j') ∧
    ((∀ word ∈ words, word = "") → (Keywords.ofList words).find? text = none) := by
  have hfinds := finds_find? words text
  refine ⟨?_, fun i j hfound => ?_, fun hempty => ?_⟩
  · rw [← occursIn_ofList, Keywords.occursIn, Option.isSome_iff_exists]
  · rw [hfound] at hfinds
    obtain ⟨-, hoccurs, hfirst⟩ := hfinds
    exact ⟨hoccurs, fun i' hlt => hfirst i' (Nat.zero_le i') hlt⟩
  · cases hfound : (Keywords.ofList words).find? text with
    | none => rfl
    | some stretch =>
        rw [hfound] at hfinds
        obtain ⟨word, hword, hne, -⟩ := hfinds.2.1.exists_standsAt
        exact absurd (hempty word hword) hne

/-- A spa is found neither at the beginning of another word nor inside one, and its plural is found in
capitals. -/
theorem find?_leftmost_occurrence_spas :
    let words := ["spa", "", "맛집"]
    let text := "Spaceport, aspas, Day SPAS"
    (Keywords.ofList words).find? text = some (22, 26) ∧ Occurs words text.toList 22 26 ∧
      (∀ i < 22, ∀ j, ¬Occurs words text.toList i j) ∧ (Keywords.ofList [""]).find? text = none := by
  intro words text
  have hfound : (Keywords.ofList words).find? text = some (22, 26) := by cbv
  obtain ⟨-, hleftmost, -⟩ := find?_leftmost_occurrence words text
  obtain ⟨hoccurs, hfirst⟩ := hleftmost 22 26 hfound
  exact ⟨hfound, hoccurs, hfirst, (find?_leftmost_occurrence [""] text).2.2 (by simp)⟩

/-! ## Occurrences in other texts -/

/-- Changing characters so that no word character comes or goes and none stands for a letter that it did
not stand for before makes no new occurrences. -/
theorem Occurs.of_map {f : Char → Char} (hword : ∀ c ∈ text, isWordChar (f c) = isWordChar c)
    (hletter : ∀ c ∈ text, ∀ letter, sameLetter letter (f c) = true → sameLetter letter c = true)
    (h : Occurs words (text.map f) i j) : Occurs words text i j := by
  have hstands {word : List Char} (hstands : StandsAt word (text.map f) i) : StandsAt word text i := by
    rw [StandsAt, ← List.map_drop, ← List.map_take, List.forall₂_map_right_iff] at hstands
    refine List.forall₂_iff_get.mpr ⟨hstands.length_eq, fun n hn hn' => ?_⟩
    exact hletter _ (List.mem_of_mem_drop (List.mem_of_mem_take (List.get_mem _ _))) _ (hstands.get hn hn')
  have hneighbour (n : Nat) : (∃ c, (text.map f)[n]? = some c ∧ isWordChar c = true) ↔
      ∃ c, text[n]? = some c ∧ isWordChar c = true := by
    rw [List.getElem?_map]
    cases hn : text[n]? with
    | none => simp
    | some c => simp [hword c (List.mem_of_getElem? hn)]
  have hboundary (n : Nat) : BoundaryAt (text.map f) n ↔ BoundaryAt text n := by
    have hbefore : WordBefore (text.map f) n ↔ WordBefore text n := by
      simp only [WordBefore, exists_and_left]
      exact exists_congr fun m => and_congr_right fun _ => hneighbour m
    rw [BoundaryAt, BoundaryAt, hbefore, WordAfter, WordAfter, hneighbour]
  cases h with
  | whole hmem hne hlatin hending hat hend hopens hcloses =>
      exact .whole hmem hne hlatin hending (hstands hat) hend ((hboundary i).mp hopens)
        ((hboundary j).mp hcloses)
  | anywhere hmem hne hother hat hend => exact .anywhere hmem hne hother (hstands hat) hend

section

variable {front back : List Char}

theorem StandsAt.padded {word : List Char} (h : StandsAt word text i)
    (hle : i + word.length ≤ text.length) : StandsAt word (front ++ text ++ back) (front.length + i) := by
  rw [StandsAt, List.append_assoc, List.drop_length_add_append, List.drop_append_of_le_length (by omega),
    List.take_append_of_le_length (by rw [List.length_drop]; omega)]
  exact h

theorem wordBefore_padded (hfront : ∀ c ∈ front, isWordChar c = false) (hle : i ≤ text.length) :
    WordBefore (front ++ text ++ back) (front.length + i) ↔ WordBefore text i := by
  have hcut : front ++ text ++ back = (front ++ text.take i) ++ (text.drop i ++ back) := by
    rw [List.append_assoc, List.append_assoc, ← List.append_assoc (text.take i),
      List.take_append_drop]
  have hlength : front.length + i = (front ++ text.take i).length := by
    rw [List.length_append, List.length_take_of_le hle]
  have htext : WordBefore text i ↔ ((text.take i).getLast?.map isWordChar).getD false = true := by
    rw [← @wordBefore_iff (text.take i) (text.drop i), List.take_append_drop, List.length_take_of_le hle]
  rw [hcut, hlength, wordBefore_iff, htext, List.getLast?_append]
  cases (text.take i).getLast? with
  | some c => rfl
  | none =>
      cases hlast : front.getLast? with
      | none => rfl
      | some c => simp [hfront c (List.mem_of_getLast? hlast)]

theorem wordAfter_padded (hback : ∀ c ∈ back, isWordChar c = false) (hle : i ≤ text.length) :
    WordAfter (front ++ text ++ back) (front.length + i) ↔ WordAfter text i := by
  rw [WordAfter, List.append_assoc, List.getElem?_append_right (Nat.le_add_right _ _),
    Nat.add_sub_cancel_left]
  obtain hlt | rfl := Nat.lt_or_eq_of_le hle
  · rw [List.getElem?_append_left hlt, WordAfter]
  · rw [List.getElem?_append_right (Nat.le_refl _), Nat.sub_self, WordAfter,
      List.getElem?_eq_none (Nat.le_refl _)]
    simp only [reduceCtorEq, false_and, exists_false, iff_false, not_exists, not_and]
    intro c hc
    simp [hback c (List.mem_of_getElem? hc)]

/-- An occurrence stays one when characters that belong to no word are put around the text. -/
theorem Occurs.padded (hfront : ∀ c ∈ front, isWordChar c = false)
    (hback : ∀ c ∈ back, isWordChar c = false) (h : Occurs words text i j) :
    Occurs words (front ++ text ++ back) (front.length + i) (front.length + j) := by
  have hlt := h.lt
  have hle := h.le_length
  have hboundary {n : Nat} (hn : n ≤ text.length) :
      BoundaryAt (front ++ text ++ back) (front.length + n) ↔ BoundaryAt text n := by
    rw [BoundaryAt, BoundaryAt, wordBefore_padded hfront hn, wordAfter_padded hback hn]
  cases h with
  | whole hmem hne hlatin hending hstands hend hopens hcloses =>
      exact .whole hmem hne hlatin hending (hstands.padded (by omega)) (by omega)
        ((hboundary (by omega)).mpr hopens) ((hboundary hle).mpr hcloses)
  | anywhere hmem hne hother hstands hend =>
      exact .anywhere hmem hne hother (hstands.padded (by omega)) (by omega)

end

end Wayfare.Category
