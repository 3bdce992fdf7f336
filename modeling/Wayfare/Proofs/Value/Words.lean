import Wayfare.Proofs.Value.Numbers

/-! # Words and numbers read back

A number is told from the words by its first digit. A real number is written by
its sign and the shortest decimal of its size, or by a word if it is none or
beyond all others, and reads back with the same bits.
-/

namespace Wayfare.Value

open Wayfare.Decimal

/-- The sign of a number, `true` for minus. -/
def signChars (negative : Bool) : List Char :=
  if negative then ['-'] else []

theorem find?_words_of_isDigit {cs : List Char} {d : Char} (hd : d.isDigit = true)
    (hcs : cs.head? = some d) (negative : Bool) :
    words.find? (fun w => w.1.isPrefixOf (signChars negative ++ cs)) = none := by
  obtain ⟨tail, rfl⟩ := List.head?_eq_some_iff.mp hcs
  rw [List.find?_eq_none]
  intro w hw hprefix
  obtain ⟨after, hafter⟩ := List.isPrefixOf_iff_prefix.mp hprefix
  simp only [words, List.mem_cons, List.not_mem_nil, or_false] at hw
  have hne (c : Char) (hc : c.isDigit = false) : c ≠ d := by
    rintro rfl
    rw [hd] at hc
    contradiction
  obtain rfl | rfl | rfl | rfl | rfl | rfl := hw <;> cases negative <;>
    simp [signChars, hne] at hafter

theorem readPlain_of_isDigit {cs : List Char} {d : Char} (hd : d.isDigit = true)
    (hcs : cs.head? = some d) (negative : Bool) :
    readPlain (signChars negative ++ cs) = readNumber negative cs := by
  have hwords := find?_words_of_isDigit hd hcs negative
  obtain ⟨tail, rfl⟩ := List.head?_eq_some_iff.mp hcs
  unfold readPlain
  rw [hwords]
  cases negative with
  | true => rfl
  | false =>
      have hminus : d ≠ '-' := by
        rintro rfl
        exact absurd hd (by decide)
      dsimp only
      split
      next heq => exact absurd (List.cons.inj heq).1 hminus
      next => rfl

theorem toList_toString_int (n : Int) : (toString n).toList =
    signChars (decide (n < 0)) ++ (toString n.natAbs).toList := by
  cases n with
  | ofNat k => rfl
  | negSucc k =>
      change ("-" ++ _).toList = _
      rw [String.toList_append, decide_eq_true (Int.negSucc_lt_zero k)]
      rfl

theorem readPlain_int {rest : List Char} (hrest : Delimited rest) (n : Int) :
    readPlain ((toString n).toList ++ rest) = some (int n, rest) := by
  obtain ⟨d, hhead, hd⟩ := (isDigits_toString n.natAbs).isDigit_head rest
  have hsign : (if decide (n < 0) then -(n.natAbs : Int) else n.natAbs) = n := by
    split_ifs with hnegative
    · have := of_decide_eq_true hnegative
      omega
    · have := of_decide_eq_false (Bool.eq_false_iff.mpr hnegative)
      omega
  rw [toList_toString_int, List.append_assoc, readPlain_of_isDigit hd hhead,
    readNumber_toString hrest, hsign]

/-- The text of a finite real number without its sign. -/
def sizeText (m : Nat) (e : Int) : List Char :=
  if m = 0 then "0.0".toList else ((shortestDigits m e).trimmed 20).text.toList

theorem toList_shortest {negative : Bool} {m : Nat} {e : Int} {x : Float}
    (hx : Binary.ofFloat x = .finite negative m e) :
    (shortest x).toList = signChars negative ++ sizeText m e := by
  rw [shortest, hx, sizeText]
  cases negative <;> simp [signChars, apply_ite String.toList]

theorem canonical_of_ofFloat {negative : Bool} {m : Nat} {e : Int} {x : Float}
    (hx : Binary.ofFloat x = .finite negative m e) : Canonical m e := by
  have h := isCanonical_ofFloat x
  rwa [hx] at h

theorem digits_shortest_pos {m : Nat} {e : Int} (hcanonical : Canonical m e) (hm : 0 < m) :
    0 < ((shortestDigits m e).trimmed 20).digits :=
  digits_trimmed_pos (digits_pos_of_readsBack hm (readsBack_shortestDigits hcanonical hm)) 20

/-- The size of a real number is read as digits to which no real number is nearer. -/
theorem readNumber_sizeText {m : Nat} {e : Int} (hcanonical : Canonical m e) {rest : List Char}
    (hrest : Delimited rest) : ∃ (n : Nat) (k : Int), Nearest m e (n * 10 ^ k) ∧
      ∀ negative, readNumber negative (sizeText m e ++ rest) =
        some (real (if negative then -realOf n k else realOf n k), rest) := by
  unfold sizeText
  split_ifs with hm
  · obtain rfl := hm
    have hzero : NumberText.IsWellFormed ⟨['0'], ['0'], none⟩ :=
      ⟨⟨List.cons_ne_nil _ _, by simp⟩, fun _ => rfl, by simp, nofun⟩
    have hnear : Nearest 0 e ((0 : Nat) * 10 ^ (-1 : Int)) := by
      simpa using Nearest.exact 0 e
    exact ⟨0, -1, hnear, NumberText.readNumber_chars hzero hrest⟩
  · have hpos := Nat.pos_of_ne_zero hm
    have hback := readsBack_shortestDigits hcanonical hpos
    have hdigits := digits_shortest_pos hcanonical hpos
    have hnear := nearest_of_readsBack hpos hback
    obtain ⟨n, k, hvalue, hnumber⟩ := readNumber_text hdigits hrest
    rw [← value_trimmed _ 20, ← hvalue] at hnear
    exact ⟨n, k, hnear, hnumber⟩

theorem isDigit_head_sizeText {m : Nat} {e : Int} (hcanonical : Canonical m e) (rest : List Char) :
    ∃ c, (sizeText m e ++ rest).head? = some c ∧ c.isDigit = true := by
  unfold sizeText
  split_ifs with hm
  · exact ⟨'0', rfl, rfl⟩
  · have hdigits := digits_shortest_pos hcanonical (Nat.pos_of_ne_zero hm)
    rw [toList_text, NumberText.chars, List.append_assoc]
    exact (wellFormed_numberText hdigits).whole.isDigit_head _

theorem readPlain_finite {negative : Bool} {m : Nat} {e : Int} {x : Float}
    (hx : Binary.ofFloat x = .finite negative m e) {rest : List Char} (hrest : Delimited rest) :
    readPlain ((shortest x).toList ++ rest) = some (real x, rest) := by
  have hcanonical := canonical_of_ofFloat hx
  obtain ⟨n, k, hnear, hread⟩ := readNumber_sizeText hcanonical hrest
  obtain ⟨d, hhead, hd⟩ := isDigit_head_sizeText hcanonical rest
  have hsize := ofFloat_realOf hcanonical hnear
  have hvalue : (if negative then -realOf n k else realOf n k) = x := by
    apply ofFloat_injective
    cases negative with
    | true =>
        rw [if_pos rfl, ofFloat_neg, hsize, hx]
        rfl
    | false => rw [if_neg Bool.false_ne_true, hsize, hx]
  rw [toList_shortest hx, List.append_assoc, readPlain_of_isDigit hd hhead, hread, hvalue]

theorem readPlain_jsonReal {rest : List Char} (hrest : Delimited rest) (x : Float) :
    readPlain (jsonReal x ++ rest) = some (real x, rest) := by
  have hnan : Binary.ofFloat (0.0 / 0.0) = .notANumber := by decide +kernel
  have hinfinite : Binary.ofFloat (1.0 / 0.0) = .infinite false := by decide +kernel
  have hnegative : Binary.ofFloat (-1.0 / 0.0) = .infinite true := by decide +kernel
  unfold jsonReal
  cases hx : Binary.ofFloat x with
  | notANumber =>
      rw [← ofFloat_injective (hnan.trans hx.symm)]
      rfl
  | infinite negative =>
      cases negative with
      | true =>
        rw [← ofFloat_injective (hnegative.trans hx.symm)]
        rfl
      | false =>
        rw [← ofFloat_injective (hinfinite.trans hx.symm)]
        rfl
  | finite negative m e => exact readPlain_finite hx hrest

/-! ## The characters of words and numbers -/

/-- A character of a word or a number. -/
def IsWordChar (c : Char) : Prop :=
  c.isAlphanum = true ∨ c = '-' ∨ c = '+' ∨ c = '.'

instance (c : Char) : Decidable (IsWordChar c) :=
  inferInstanceAs (Decidable (_ ∨ _))

theorem IsWordChar.ne {c d : Char} (hc : IsWordChar c) (hd : ¬IsWordChar d) : c ≠ d := by
  rintro rfl
  exact hd hc

theorem isWordChar_of_isDigit {c : Char} (hc : c.isDigit = true) : IsWordChar c :=
  .inl (by rw [Char.isAlphanum, hc, Bool.or_true])

/-- The text of a word or a number. -/
structure IsWord (cs : List Char) : Prop where
  ne_nil : cs ≠ []
  isWordChar : ∀ c ∈ cs, IsWordChar c

instance (cs : List Char) : Decidable (IsWord cs) :=
  decidable_of_iff (cs ≠ [] ∧ cs.all (fun c => IsWordChar c) = true)
    ⟨fun h => ⟨h.1, by simpa using h.2⟩, fun h => ⟨h.ne_nil, by simpa using h.isWordChar⟩⟩

theorem IsWord.signed {cs : List Char} (h : IsWord cs) (negative : Bool) :
    IsWord (signChars negative ++ cs) := by
  refine ⟨List.append_ne_nil_of_right_ne_nil _ h.ne_nil, fun c hc => ?_⟩
  obtain hc | hc := List.mem_append.mp hc
  · cases negative with
    | true =>
        rw [List.mem_singleton.mp hc]
        decide
    | false => contradiction
  · exact h.isWordChar c hc

theorem isWord_null : IsWord "null".toList :=
  (by decide : IsWord ['n', 'u', 'l', 'l'])

theorem isWord_bool (b : Bool) : IsWord (if b then "true" else "false").toList := by
  cases b with
  | true => exact (by decide : IsWord ['t', 'r', 'u', 'e'])
  | false => exact (by decide : IsWord ['f', 'a', 'l', 's', 'e'])

theorem isWord_int (n : Int) : IsWord (toString n).toList := by
  have hdigits := isDigits_toString n.natAbs
  have hword : IsWord (toString n.natAbs).toList :=
    ⟨hdigits.ne_nil, fun c hc => isWordChar_of_isDigit (hdigits.isDigit c hc)⟩
  rw [toList_toString_int]
  exact hword.signed _

theorem isWordChar_of_mem_powerChars {t : NumberText} (h : t.IsWellFormed) :
    ∀ c ∈ t.powerChars, IsWordChar c := by
  unfold NumberText.powerChars
  split
  · simp
  next negative ds hpower =>
    have hds := h.power _ hpower
    refine List.forall_mem_cons.mpr ⟨by decide, List.forall_mem_cons.mpr ⟨?_, fun c hc => ?_⟩⟩
    · cases negative <;> decide
    · exact isWordChar_of_isDigit (hds.isDigit c hc)

theorem isWord_chars {t : NumberText} (h : t.IsWellFormed) : IsWord t.chars := by
  refine ⟨List.append_ne_nil_of_left_ne_nil h.whole.ne_nil _, ?_⟩
  intro c hc
  obtain hc | hc := List.mem_append.mp hc
  · exact isWordChar_of_isDigit (h.whole.isDigit c hc)
  obtain hc | hc := List.mem_append.mp hc
  · split_ifs at hc
    · contradiction
    · obtain rfl | hc := List.mem_cons.mp hc
      · decide
      · exact isWordChar_of_isDigit (h.places c hc)
  · exact isWordChar_of_mem_powerChars h c hc

theorem isWord_real (x : Float) : IsWord (jsonReal x) := by
  unfold jsonReal
  cases hx : Binary.ofFloat x with
  | notANumber => exact (by decide : IsWord ['N', 'a', 'N'])
  | infinite negative =>
      cases negative with
      | true => exact (by decide : IsWord ['I', 'n', 'f', 'i', 'n', 'i', 't', 'y']).signed true
      | false => exact (by decide : IsWord ['I', 'n', 'f', 'i', 'n', 'i', 't', 'y'])
  | finite negative m e =>
      have hsize : IsWord (sizeText m e) := by
        unfold sizeText
        split_ifs with hm
        · exact (by decide : IsWord ['0', '.', '0'])
        · rw [toList_text]
          exact isWord_chars (wellFormed_numberText (digits_shortest_pos (canonical_of_ofFloat hx)
            (Nat.pos_of_ne_zero hm)))
      dsimp only
      rw [toList_shortest hx]
      exact hsize.signed negative

end Wayfare.Value
