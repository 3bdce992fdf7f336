import Mathlib.Tactic.SplitIfs
import Wayfare.Value.Read
import Wayfare.Value.Write

/-! # Texts read back

A text is written between quotes, with what cannot stand there escaped. Whatever
characters it has, it reads back as it was: no character is taken for half of a
pair, because characters that are halves do not exist.
-/

namespace Wayfare.Value

theorem hexUnit?_hexadecimal {n : Nat} (h : n < 32) :
    ∃ a b c d, Text.hexadecimal 4 n = [a, b, c, d] ∧ hexUnit? a b c d = some n := by
  have hall : ∀ n < 32,
      Text.hexadecimal 4 n = ['0', '0', Nat.digitChar (n / 16), Nat.digitChar (n % 16)] ∧
        hexUnit? '0' '0' (Nat.digitChar (n / 16)) (Nat.digitChar (n % 16)) = some n := by decide +kernel
  exact ⟨_, _, _, _, hall n h⟩

/-- A character reads back however it is written. -/
theorem readUnits_jsonChar (seen : List Nat) (c : Char) (rest : List Char) :
    readUnits seen (jsonChar c ++ rest) = readUnits (c.toNat :: seen) rest := by
  unfold jsonChar
  split_ifs with hquote hfeed hreturn htab hback hform hcontrol
  · obtain rfl | rfl : c = '"' ∨ c = '\\' := by simpa using hquote
    · rfl
    · rfl
  · obtain rfl := beq_iff_eq.mp hfeed
    rfl
  · obtain rfl := beq_iff_eq.mp hreturn
    rfl
  · obtain rfl := beq_iff_eq.mp htab
    rfl
  · obtain rfl := beq_iff_eq.mp hback
    rfl
  · obtain rfl := beq_iff_eq.mp hform
    rfl
  · obtain ⟨a, b, c', d, hdigits, hunit⟩ := hexUnit?_hexadecimal hcontrol
    rw [hdigits]
    simp [readUnits, hunit]
  · obtain ⟨hclose, hslash⟩ : c ≠ '"' ∧ c ≠ '\\' := by simpa using hquote
    simp [readUnits, hslash, hcontrol]

theorem readUnits_chars (seen : List Nat) (cs rest : List Char) :
    readUnits seen (cs.flatMap jsonChar ++ '"' :: rest) =
      some ((cs.map Char.toNat).reverse ++ seen, rest) := by
  induction cs generalizing seen with
  | nil => rfl
  | cons c cs ih =>
      rw [List.flatMap_cons, List.append_assoc, readUnits_jsonChar, ih, List.map_cons,
        List.reverse_cons, List.append_assoc]
      rfl

/-- No character is half of a pair. -/
theorem not_half (c : Char) : ¬(0xD800 ≤ c.toNat ∧ c.toNat < 0xE000) := by
  have hvalid : c.toNat < 0xD800 ∨ 0xDFFF < c.toNat ∧ c.toNat < 0x110000 := c.valid
  omega

theorem textOfUnits_toNat (done : List Char) (c : Char) (units : List Nat) :
    textOfUnits done (c.toNat :: units) = textOfUnits (c :: done) units := by
  have hhalf := not_half c
  have hlow : ¬(0xDC00 ≤ c.toNat ∧ c.toNat < 0xE000) := by omega
  cases units with
  | nil => simp [textOfUnits, hhalf]
  | cons m units => simp [textOfUnits, hhalf, hlow]

theorem textOfUnits_chars (done cs : List Char) :
    textOfUnits done (cs.map Char.toNat) = cs.reverse ++ done := by
  induction cs generalizing done with
  | nil => rfl
  | cons c cs ih => rw [List.map_cons, textOfUnits_toNat, ih, List.reverse_cons, List.append_assoc]; rfl

theorem readText_jsonText (s : String) (rest : List Char) :
    readText (s.toList.flatMap jsonChar ++ '"' :: rest) = some (s, rest) := by
  simp [readText, readUnits_chars, ← List.map_reverse, textOfUnits_chars]

end Wayfare.Value
