import Mathlib.Data.Nat.Notation
import Mathlib.Tactic.Ring
import Wayfare.Decimal.Fixed
import Wayfare.Decimal.Numeral

/-! # Numbers as digits

A number that is written in digits is read back from them, with zeros before
them or not. At the end of its digits a text can be taken apart in one way only.
-/

namespace Wayfare.Decimal

theorem isDigit_of_mem_toString {n : Nat} : ∀ c ∈ (toString n).toList, c.isDigit = true := by
  rw [Nat.toString_eq_repr, Nat.toList_repr]
  exact fun c hc => Nat.isDigit_of_mem_toDigits (by decide) (by decide) hc

theorem natOfDigits_toString (n : Nat) : natOfDigits (toString n).toList = n := by
  rw [Nat.toString_eq_repr, Nat.toList_repr]
  exact Nat.ofDigitChars_ten_toDigits

theorem natOfDigits_append (ds es : List Char) :
    natOfDigits (ds ++ es) = natOfDigits ds * 10 ^ es.length + natOfDigits es := by
  change Nat.ofDigitChars 10 (ds ++ es) 0 = Nat.ofDigitChars 10 ds 0 * _ + Nat.ofDigitChars 10 es 0
  rw [Nat.ofDigitChars_append, Nat.ofDigitChars_eq_ofDigitChars_zero, mul_comm]

theorem natOfDigits_zeros (k : Nat) : natOfDigits (List.replicate k '0') = 0 :=
  Nat.ofDigitChars_replicate_zero.trans (mul_zero _)

theorem toList_padded (width n : Nat) :
    (padded width n).toList =
      List.replicate (width - (toString n).length) '0' ++ (toString n).toList := by
  rw [padded, String.toList_append, String.toList_ofList]

theorem natOfDigits_padded (width n : Nat) : natOfDigits (padded width n).toList = n := by
  rw [toList_padded, natOfDigits_append, natOfDigits_zeros, natOfDigits_toString, zero_mul, zero_add]

theorem isDigit_of_mem_padded {width n : Nat} :
    ∀ c ∈ (padded width n).toList, c.isDigit = true := by
  intro c hc
  rw [toList_padded] at hc
  rcases List.mem_append.mp hc with hc | hc
  · rw [List.eq_of_mem_replicate hc]
    rfl
  · exact isDigit_of_mem_toString c hc

/-- What a predicate takes from the front of a list ends where the predicate first fails. -/
theorem takeWhile_append_of_head {α : Type} {p : α → Bool} {front rest : List α}
    (hfront : ∀ x ∈ front, p x = true) (hrest : ∀ x ∈ rest.head?, p x = false) :
    (front ++ rest).takeWhile p = front := by
  rw [List.takeWhile_append_of_pos hfront]
  cases rest with
  | nil => rw [List.takeWhile_nil, List.append_nil]
  | cons x rest =>
      rw [List.takeWhile_cons_of_neg (Bool.eq_false_iff.mp (hrest x rfl)), List.append_nil]

/-- What can follow a number in a text: nothing that begins with a digit. -/
def AfterDigits (rest : List Char) : Prop :=
  ∀ c ∈ rest.head?, c.isDigit = false

theorem AfterDigits.nil : AfterDigits [] :=
  fun c hc => by cases hc

theorem AfterDigits.cons {c : Char} (h : c.isDigit = false) (rest : List Char) :
    AfterDigits (c :: rest) := by
  rintro _ ⟨rfl⟩
  exact h

/-- A number and what follows its digits are told by the text of the two. -/
theorem padded_append_inj {width m n : Nat} {rest rest' : List Char} (hrest : AfterDigits rest)
    (hrest' : AfterDigits rest')
    (h : (padded width m).toList ++ rest = (padded width n).toList ++ rest') : m = n ∧ rest = rest' := by
  have hdigits := congrArg (List.takeWhile Char.isDigit) h
  rw [takeWhile_append_of_head isDigit_of_mem_padded hrest,
    takeWhile_append_of_head isDigit_of_mem_padded hrest'] at hdigits
  have hvalue := congrArg natOfDigits hdigits
  rw [natOfDigits_padded, natOfDigits_padded] at hvalue
  subst hvalue
  exact ⟨rfl, List.append_cancel_left h⟩

end Wayfare.Decimal
