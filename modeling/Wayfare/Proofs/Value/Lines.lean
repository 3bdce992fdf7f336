import Mathlib.Tactic.SplitIfs
import Wayfare.Proofs.Value.RoundTrip
import Wayfare.Text.Blank

/-! # JSON on one line

JSON escapes the characters below the space, line feeds among them, but writes
three characters as they are that end a line of text. A value none of whose
texts has one of these is written on one line, and lines that are ended by a
line feed each are found again.
-/

namespace Wayfare.Text

/-- Text without the end of a line. -/
def OnOneLine (cs : List Char) : Prop :=
  ∀ c ∈ cs, isLineEnd c = false

instance (cs : List Char) : Decidable (OnOneLine cs) :=
  decidable_of_iff (cs.all (fun c => !isLineEnd c) = true) (by simp [OnOneLine])

theorem OnOneLine.append {cs ds : List Char} (hcs : OnOneLine cs) (hds : OnOneLine ds) :
    OnOneLine (cs ++ ds) :=
  List.forall_mem_append.mpr ⟨hcs, hds⟩

theorem OnOneLine.cons {c : Char} {cs : List Char} (hc : isLineEnd c = false) (hcs : OnOneLine cs) :
    OnOneLine (c :: cs) :=
  List.forall_mem_cons.mpr ⟨hc, hcs⟩

theorem isLineEnd_iff {c : Char} : isLineEnd c = true ↔
    (10 ≤ c.toNat ∧ c.toNat ≤ 13) ∨ (28 ≤ c.toNat ∧ c.toNat ≤ 30) ∨ c.toNat = 133 ∨
      c.toNat = 8232 ∨ c.toNat = 8233 := by
  simp [isLineEnd, Ranges.has]
  omega

/-- A line ends with its line feed. -/
theorem linesFrom_line {cs : List Char} (h : OnOneLine cs) (line rest : List Char) :
    linesFrom line (cs ++ '\n' :: rest) = (line.reverse ++ cs) :: linesFrom [] rest := by
  induction cs generalizing line with
  | nil => simp [linesFrom, isLineEnd_iff]
  | cons c cs ih =>
      obtain ⟨hc, hcs⟩ := List.forall_mem_cons.mp h
      have hreturn : c ≠ '\r' := by
        rintro rfl
        exact absurd hc (by decide)
      rw [List.cons_append, linesFrom, if_neg (by simp [hc]), ih hcs, List.reverse_cons,
        List.append_assoc]
      · rfl
      · exact fun _ heq => absurd heq hreturn

/-- Lines that are written one after another are found again. -/
theorem linesFrom_flatMap {texts : List (List Char)} (h : ∀ cs ∈ texts, OnOneLine cs) :
    linesFrom [] (texts.flatMap (· ++ ['\n'])) = texts := by
  induction texts with
  | nil => rfl
  | cons cs texts ih =>
      obtain ⟨hcs, htexts⟩ := List.forall_mem_cons.mp h
      rw [List.flatMap_cons, List.append_assoc, List.singleton_append, linesFrom_line hcs, ih htexts]
      rfl

example : lines "a\u2028b\n" = ["a", "b"] := by decide +kernel

end Wayfare.Text

namespace Wayfare.Value

open Wayfare.Text

/-- The characters that end a line of text but stand in JSON as they are. -/
def bareLineEnds : List Char :=
  ['\u0085', '\u2028', '\u2029']

/-- A text without characters that would end a line of the JSON in which it stands. -/
def IsOneLine (s : String) : Prop :=
  ∀ c ∈ s.toList, c ∉ bareLineEnds

theorem toNat_lt_of_isLineEnd {c : Char} (h : c ∉ bareLineEnds) (hend : isLineEnd c = true) :
    c.toNat < 32 := by
  have hne (d : Char) (hd : d ∈ bareLineEnds) : c.toNat ≠ d.toNat := by
    intro heq
    rw [Char.toNat_inj.mp heq] at h
    exact h hd
  have hnext : c.toNat ≠ 133 := hne '\u0085' (by decide)
  have hline : c.toNat ≠ 8232 := hne '\u2028' (by decide)
  have hparagraph : c.toNat ≠ 8233 := hne '\u2029' (by decide)
  rw [isLineEnd_iff] at hend
  omega

theorem onOneLine_jsonChar {c : Char} (h : c ∉ bareLineEnds) : OnOneLine (jsonChar c) := by
  have hhexadecimal : ∀ n < 32, OnOneLine (hexadecimal 4 n) := by decide +kernel
  unfold jsonChar
  split_ifs with hquote _ _ _ _ _ hcontrol
  · obtain rfl | rfl : c = '"' ∨ c = '\\' := by simpa using hquote
    · decide
    · decide
  any_goals decide
  · exact .cons rfl (.cons rfl (hhexadecimal _ hcontrol))
  · refine .cons (Bool.eq_false_iff.mpr fun hend => ?_) nofun
    exact hcontrol (toNat_lt_of_isLineEnd h hend)

theorem onOneLine_jsonText {s : String} (h : IsOneLine s) : OnOneLine (jsonText s) := by
  have hchars : OnOneLine (s.toList.flatMap jsonChar) := by
    intro d hd
    obtain ⟨c, hc, hd⟩ := List.mem_flatMap.mp hd
    exact onOneLine_jsonChar (h c hc) d hd
  exact .cons rfl (hchars.append (by decide))

theorem IsWordChar.not_isLineEnd {c : Char} (hc : IsWordChar c) : isLineEnd c = false := by
  rw [Bool.eq_false_iff, Ne, isLineEnd_iff]
  obtain halphanum | rfl | rfl | rfl := hc
  · simp only [Char.isAlphanum, Char.isAlpha, Char.isUpper, Char.isLower, Char.isDigit,
      Bool.or_eq_true, Bool.and_eq_true, decide_eq_true_eq, UInt32.le_iff_toNat_le,
      ge_iff_le] at halphanum
    change ((65 ≤ c.toNat ∧ c.toNat ≤ 90) ∨ (97 ≤ c.toNat ∧ c.toNat ≤ 122)) ∨
      (48 ≤ c.toNat ∧ c.toNat ≤ 57) at halphanum
    omega
  all_goals decide

theorem IsWord.onOneLine {cs : List Char} (h : IsWord cs) : OnOneLine cs :=
  fun c hc => (h.isWordChar c hc).not_isLineEnd

theorem jsonItems_eq_map (items : List Value) : jsonItems items = items.map json := by
  induction items with
  | nil => rfl
  | cons v items ih => rw [jsonItems, ih, List.map_cons]

theorem jsonFields_eq_map (fields : Fields) :
    jsonFields fields = fields.map fun f => jsonText f.1 ++ ':' :: ' ' :: f.2.json := by
  induction fields with
  | nil => rfl
  | cons f fields ih => rw [jsonFields, ih, List.map_cons]

theorem onOneLine_jsonJoin {parts : List (List Char)} (h : ∀ cs ∈ parts, OnOneLine cs) :
    OnOneLine (jsonJoin parts) := by
  induction parts with
  | nil => exact nofun
  | cons cs parts ih =>
      obtain ⟨hcs, hparts⟩ := List.forall_mem_cons.mp h
      cases parts with
      | nil => exact hcs
      | cons ds parts => exact hcs.append (.cons rfl (.cons rfl (ih hparts)))

/-- The JSON of a value stands on one line if that of its texts does. -/
theorem IsJson.onOneLine {v : Value} (h : IsJson IsOneLine v) : OnOneLine v.json := by
  induction h with
  | null => exact isWord_null.onOneLine
  | bool b => exact (isWord_bool b).onOneLine
  | @int n _ => exact (isWord_int n).onOneLine
  | real x => exact (isWord_real x).onOneLine
  | text h => exact onOneLine_jsonText h
  | list _ ih =>
      refine .cons rfl (OnOneLine.append (onOneLine_jsonJoin ?_) (by decide))
      rw [jsonItems_eq_map]
      exact List.forall_mem_map.mpr ih
  | record _ hlegible _ ih =>
      refine .cons rfl (OnOneLine.append (onOneLine_jsonJoin ?_) (by decide))
      rw [jsonFields_eq_map]
      refine List.forall_mem_map.mpr fun f hf => ?_
      exact (onOneLine_jsonText (hlegible f hf)).append (.cons rfl (.cons rfl (ih f hf)))

end Wayfare.Value
