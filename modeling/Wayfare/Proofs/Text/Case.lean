import Mathlib
import Wayfare.Text.Case

/-! # Texts in lower case

Two capitals are not simply replaced by their small letters: a sigma takes a form
that depends on where it stands, and an I with a dot becomes two characters. A
stretch of a text without them is lower-cased letter by letter, whatever stands
around it.
-/

namespace Wayfare.Text

/-- A character that has one lower-case form, wherever it stands. -/
def IsPlain (c : Char) : Prop :=
  c ≠ 'Σ' ∧ c ≠ 'İ'

instance (c : Char) : Decidable (IsPlain c) :=
  inferInstanceAs (Decidable (c ≠ 'Σ' ∧ c ≠ 'İ'))

/-- What a character becomes between what is before it, given in reverse, and what is after it. -/
theorem lowerFrom_cons (seen rest : List Char) (c : Char) :
    ∃ low, lowerFrom seen (c :: rest) = low ++ lowerFrom (c :: seen) rest ∧ low ≠ [] ∧
      (IsPlain c → low = [lowerChar c]) ∧ (c = 'Σ' → low = ['ς'] ∨ low = ['σ']) ∧
      (c = 'İ' → low = ['i', '\u0307']) := by
  refine ⟨_, rfl, ?_⟩
  by_cases hsigma : c = 'Σ'
  · subst hsigma
    cases meetsCased seen && !meetsCased rest <;> simp [IsPlain]
  by_cases hdotted : c = 'İ'
  · subst hdotted
    simp [IsPlain]
  · simp [hsigma, hdotted]

theorem lowerFrom_ne_nil {seen cs : List Char} (h : cs ≠ []) : lowerFrom seen cs ≠ [] := by
  obtain ⟨c, rest, rfl⟩ := List.exists_cons_of_ne_nil h
  obtain ⟨low, hlow, hne, -⟩ := lowerFrom_cons seen rest c
  rw [hlow]
  exact List.append_ne_nil_of_left_ne_nil hne _

theorem lower_ne_nil {s : String} (h : s ≠ "") : (lower s).toList ≠ [] := by
  rw [lower, String.toList_ofList]
  exact lowerFrom_ne_nil (by simpa using h)

/-- The end of a text is lower-cased after its beginning. -/
theorem exists_lowerFrom_append (seen cs rest : List Char) :
    ∃ front, lowerFrom seen (cs ++ rest) = front ++ lowerFrom (cs.reverse ++ seen) rest := by
  induction cs generalizing seen with
  | nil => exact ⟨[], rfl⟩
  | cons c cs ih =>
      obtain ⟨low, hlow, -⟩ := lowerFrom_cons seen (cs ++ rest) c
      obtain ⟨front, hfront⟩ := ih (c :: seen)
      refine ⟨low ++ front, ?_⟩
      rw [List.cons_append, hlow, hfront, List.append_assoc, List.reverse_cons, List.append_assoc]
      rfl

theorem lowerFrom_append_of_plain {seen cs : List Char} (h : ∀ c ∈ cs, IsPlain c) (rest : List Char) :
    lowerFrom seen (cs ++ rest) = cs.map lowerChar ++ lowerFrom (cs.reverse ++ seen) rest := by
  induction cs generalizing seen with
  | nil => rfl
  | cons c cs ih =>
      obtain ⟨hc, hcs⟩ := List.forall_mem_cons.mp h
      obtain ⟨low, hlow, -, hplain, -⟩ := lowerFrom_cons seen (cs ++ rest) c
      rw [List.cons_append, hlow, hplain hc, ih hcs, List.map_cons, List.reverse_cons,
        List.append_assoc]
      rfl

/-- A stretch of plain characters is found in the lower-case text with each of them in lower case. -/
theorem exists_lower_of_plain {text : String} {front stretch rest : List Char}
    (htext : text.toList = front ++ stretch ++ rest) (h : ∀ c ∈ stretch, IsPlain c) :
    ∃ front' rest', (lower text).toList = front' ++ stretch.map lowerChar ++ rest' := by
  obtain ⟨front', hfront⟩ := exists_lowerFrom_append [] front (stretch ++ rest)
  rw [lowerFrom_append_of_plain h] at hfront
  refine ⟨front', lowerFrom (stretch.reverse ++ (front.reverse ++ [])) rest, ?_⟩
  rw [lower, String.toList_ofList, htext, List.append_assoc, hfront, List.append_assoc]

/-! ## Texts with case in ASCII only -/

/-- Lower-casing changes nothing but the ASCII letters of a text. -/
def LowersInAscii (text : String) : Prop :=
  (lower text).toList = text.toList.map Char.toLower

/-- A character that becomes what it becomes in ASCII, wherever it stands. -/
def IsAsciiCased (c : Char) : Prop :=
  IsPlain c ∧ lowerChar c = c.toLower

theorem toLower_eq_self {c : Char} (h : 128 ≤ c.toNat) : c.toLower = c := by
  unfold Char.toLower
  split
  next hcapital =>
    have hlast : c.toNat ≤ 90 := UInt32.le_iff_toNat_le.mp hcapital.2
    omega
  next => rfl

/-- What holds of each ASCII character holds of a character if it holds of all others. -/
theorem forall_ascii {p : Char → Prop} (hascii : ∀ n < 128, p (Char.ofNat n)) {c : Char}
    (hother : 128 ≤ c.toNat → p c) : p c := by
  obtain h | h := Nat.lt_or_ge c.toNat 128
  · rw [← Char.ofNat_toNat c]
    exact hascii _ h
  · exact hother h

theorem lowerChar_toLower (c : Char) : lowerChar c.toLower = lowerChar c :=
  forall_ascii (p := fun c => lowerChar c.toLower = lowerChar c) (by decide +kernel)
    fun hc => by rw [toLower_eq_self hc]

theorem isAsciiCased_of_lowerFrom {seen cs : List Char} (h : lowerFrom seen cs = cs.map Char.toLower) :
    ∀ c ∈ cs, IsAsciiCased c := by
  induction cs generalizing seen with
  | nil => exact List.forall_mem_nil _
  | cons c cs ih =>
      obtain ⟨low, hlow, hne, hplain, hsigma, hdotted⟩ := lowerFrom_cons seen cs c
      rw [hlow, List.map_cons] at h
      -- The first character tells that neither of the two special capitals stands here.
      have hc : IsPlain c := by
        constructor
        · rintro rfl
          rcases hsigma rfl with rfl | rfl <;> exact absurd (List.cons.inj h).1 (by decide)
        · rintro rfl
          obtain rfl := hdotted rfl
          exact absurd (List.cons.inj h).1 (by decide)
      rw [hplain hc] at h
      obtain ⟨hhead, htail⟩ := List.cons.inj h
      exact List.forall_mem_cons.mpr ⟨⟨hc, hhead⟩, ih htail⟩

theorem LowersInAscii.isAsciiCased {text : String} (h : LowersInAscii text) :
    ∀ c ∈ text.toList, IsAsciiCased c := by
  rw [LowersInAscii, lower, String.toList_ofList] at h
  exact isAsciiCased_of_lowerFrom h

theorem lower_of_isAsciiCased {text : String} (h : ∀ c ∈ text.toList, IsAsciiCased c) :
    (lower text).toList = text.toList.map Char.toLower := by
  have hplain := @lowerFrom_append_of_plain [] _ (fun c hc => (h c hc).1) []
  rw [List.append_nil] at hplain
  rw [lower, String.toList_ofList, hplain, lowerFrom, List.append_nil]
  exact List.map_congr_left fun c hc => (h c hc).2

/-! ## Letters in several forms -/

theorem sameLetter_iff {letter c : Char} : sameLetter letter c = true ↔
    lowerChar c = lowerChar letter ∨
      ∃ row, letterVariants.find? (fun row => row.1 == (lowerChar letter).toNat) = some row ∧
        (lowerChar c).toNat ∈ row.2 := by
  rw [sameLetter, Bool.or_eq_true, beq_iff_eq]
  refine or_congr_right ?_
  cases letterVariants.find? fun row => row.1 == (lowerChar letter).toNat with
  | none => simp
  | some row => simp

/-- The small letters of a run lie between those of its first and its last capital. -/
theorem lowerInRun_eq_some {n m first last step : Nat} {delta : Int}
    (h : lowerInRun n (first, last, step, delta) = some m) :
    (first + delta).toNat ≤ m ∧ m ≤ (last + delta).toNat := by
  rw [lowerInRun] at h
  split at h
  next hin =>
    simp only [Bool.and_eq_true, decide_eq_true_eq] at hin
    rw [Option.some.injEq, Int.ofNat_eq_natCast] at h
    omega
  next => cases h

theorem toNat_ofNat_of_ne {n : Nat} (h : (Char.ofNat n).toNat ≠ 0) : (Char.ofNat n).toNat = n := by
  unfold Char.ofNat at h ⊢
  split
  next => rfl
  next hinvalid =>
    rw [dif_neg hinvalid] at h
    exact absurd rfl h

/-- The long s and the i without a dot are the small letters of no capital. -/
theorem eq_of_lowerChar {c small : Char} (hsmall : small ∈ ['ſ', 'ı']) (h : lowerChar c = small) :
    c = small := by
  have hascii : ∀ n < 128, (Char.ofNat n).toLower ∉ ['ſ', 'ı'] := by decide +kernel
  have hruns : ∀ code ∈ ['ſ', 'ı'].map Char.toNat, code ≠ 0 ∧ ∀ run ∈ lowerRuns,
      ¬((run.1 + run.2.2.2).toNat ≤ code ∧ code ≤ (run.2.1 + run.2.2.2).toNat) := by
    decide +kernel
  rw [lowerChar] at h
  split at h
  next hlow =>
    rw [← h, ← Char.ofNat_toNat c] at hsmall
    exact absurd hsmall (hascii _ hlow)
  next =>
    cases hfound : lowerRuns.findSome? (lowerInRun c.toNat) with
    | none => simpa [hfound] using h
    | some m =>
        rw [hfound, Option.map_some, Option.getD_some] at h
        obtain ⟨run, hmem, hrun⟩ := List.exists_of_findSome?_eq_some hfound
        obtain ⟨hne, hnone⟩ := hruns small.toNat (List.mem_map_of_mem hsmall)
        have hm : small.toNat = m := by
          rw [← h]
          exact toNat_ofNat_of_ne (h ▸ hne)
        exact absurd (hm ▸ lowerInRun_eq_some hrun) (hnone run hmem)

/-! ## Occurrences -/

theorem occursIn_iff {part whole : List Char} : occursIn part whole = true ↔ part <:+: whole := by
  induction whole with
  | nil => rw [occursIn, List.isEmpty_iff, List.infix_nil]
  | cons c rest ih =>
      rw [occursIn, Bool.or_eq_true, List.isPrefixOf_iff_prefix, ih, List.infix_cons_iff]

end Wayfare.Text
