import Mathlib
import Wayfare.Proofs.Decimal.Digits
import Wayfare.Proofs.Decimal.Shortest
import Wayfare.Value.Read
import Wayfare.Value.Write

/-! # Numbers read back

A number is written as digits, perhaps with a point and digits after it, perhaps
with an exponent. Up to a character that ends a value it is read as just these
parts, so that a whole number reads back as itself and the shortest decimal of a
real number as that real number.
-/

namespace Wayfare.Value

open Wayfare.Decimal

/-- What follows a value in a text: nothing, or one of the characters between values. -/
def Delimited (rest : List Char) : Prop :=
  ∀ c ∈ rest.head?, c = ',' ∨ c = ']' ∨ c = '\x7d'

/-! ## Digits -/

/-- Digits, at least one. -/
structure IsDigits (ds : List Char) : Prop where
  ne_nil : ds ≠ []
  isDigit : ∀ c ∈ ds, c.isDigit = true

theorem isDigits_toString (n : Nat) : IsDigits (toString n).toList := by
  refine ⟨?_, isDigit_of_mem_toString⟩
  rw [Nat.toString_eq_repr, Nat.toList_repr]
  exact Nat.toDigits_ne_nil

theorem IsDigits.append_zeros {ds : List Char} (h : IsDigits ds) (k : Nat) :
    IsDigits (ds ++ List.replicate k '0') := by
  refine ⟨List.append_ne_nil_of_left_ne_nil h.ne_nil _, fun c hc => ?_⟩
  obtain hc | hc := List.mem_append.mp hc
  · exact h.isDigit c hc
  · rw [List.eq_of_mem_replicate hc]
    rfl

theorem IsDigits.take {ds : List Char} (h : IsDigits ds) {k : Nat} (hk : 0 < k) :
    IsDigits (ds.take k) :=
  ⟨by simp [h.ne_nil, hk.ne'], fun c hc => h.isDigit c (List.mem_of_mem_take hc)⟩

theorem IsDigits.isDigit_head {ds : List Char} (h : IsDigits ds) (rest : List Char) :
    ∃ d, (ds ++ rest).head? = some d ∧ d.isDigit = true := by
  rw [List.head?_append_of_ne_nil _ h.ne_nil]
  exact ⟨_, List.head?_eq_some_head h.ne_nil, h.isDigit _ (List.head_mem _)⟩

/-- Digits are taken up to the first character that is none. -/
theorem takeDigits?_append {ds rest : List Char} (h : IsDigits ds)
    (hrest : ∀ c ∈ rest.head?, c.isDigit = false) : takeDigits? (ds ++ rest) = some (ds, rest) := by
  rw [takeDigits?, takeWhile_append_of_head h.isDigit hrest, if_neg (by simp [h.ne_nil]),
    List.drop_left]

/-! ## The parts of a number -/

/-- The parts of a number without its sign: the digits before the point and those after it, and perhaps
an exponent, whose sign is `true` for minus. -/
structure NumberText where
  whole : List Char
  places : List Char := []
  power : Option (Bool × List Char) := none

namespace NumberText

def powerChars (t : NumberText) : List Char :=
  match t.power with
  | none => []
  | some (negative, ds) => 'e' :: (if negative then '-' else '+') :: ds

def chars (t : NumberText) : List Char :=
  t.whole ++ ((if t.places = [] then [] else '.' :: t.places) ++ t.powerChars)

/-- A number has digits in all its parts and no zero in front of others. -/
structure IsWellFormed (t : NumberText) : Prop where
  whole : IsDigits t.whole
  leading : t.whole.head? = some '0' → t.whole = ['0']
  places : ∀ c ∈ t.places, c.isDigit = true
  power : ∀ p ∈ t.power, IsDigits p.2

/-- The exponent as a number, zero when there is none. -/
def powerValue (t : NumberText) : Int :=
  match t.power with
  | none => 0
  | some (negative, ds) => if negative then -natOfDigits ds else natOfDigits ds

/-- The value that a number is read as. -/
def read (negative : Bool) (t : NumberText) : Value :=
  if t.places = [] ∧ t.power = none then
    int (if negative then -natOfDigits t.whole else natOfDigits t.whole)
  else
    let size := realOf (natOfDigits (t.whole ++ t.places)) (t.powerValue - t.places.length)
    real (if negative then -size else size)

variable {t : NumberText} {rest : List Char}

theorem readPlaces_delimited (hrest : Delimited rest) : readPlaces rest = none := by
  cases rest with
  | nil => rfl
  | cons c rest =>
      obtain rfl | rfl | rfl := hrest c rfl <;> rfl

theorem readPower_delimited (hrest : Delimited rest) : readPower rest = none := by
  cases rest with
  | nil => rfl
  | cons c rest =>
      obtain rfl | rfl | rfl := hrest c rfl <;> rfl

theorem readPower_powerChars {negative : Bool} {ds : List Char} (hds : IsDigits ds)
    (hrest : ∀ c ∈ rest.head?, c.isDigit = false) :
    readPower ('e' :: (if negative then '-' else '+') :: (ds ++ rest)) =
      some (if negative then -(natOfDigits ds : Int) else natOfDigits ds, rest) := by
  have htake := takeDigits?_append hds hrest
  cases negative <;> simp [readPower, splitSign, htake]

theorem isDigit_of_delimited (hrest : Delimited rest) : ∀ c ∈ rest.head?, c.isDigit = false := by
  intro c hc
  obtain rfl | rfl | rfl := hrest c hc <;> rfl

/-- What follows the digits of a number is read as its exponent, if it has one. -/
theorem readPower_eq (h : t.IsWellFormed) (hrest : Delimited rest) :
    readPower (t.powerChars ++ rest) = t.power.map fun _ => (t.powerValue, rest) := by
  cases hpower : t.power with
  | none =>
      rw [powerChars, hpower]
      exact readPower_delimited hrest
  | some p =>
      obtain ⟨negative, ds⟩ := p
      rw [powerChars, powerValue, hpower]
      exact readPower_powerChars (h.power _ hpower) (isDigit_of_delimited hrest)

theorem isDigit_of_powerChars (hrest : Delimited rest) :
    ∀ c ∈ (t.powerChars ++ rest).head?, c.isDigit = false := by
  unfold powerChars
  split
  · exact isDigit_of_delimited hrest
  · rintro c ⟨⟩
    rfl

/-- What follows the whole part of a number is read as its places, if it has some. -/
theorem readPlaces_eq (h : t.IsWellFormed) (hrest : Delimited rest) :
    readPlaces ((if t.places = [] then [] else '.' :: t.places) ++ (t.powerChars ++ rest)) =
      if t.places = [] then none else some (t.places, t.powerChars ++ rest) := by
  split_ifs with hplaces
  · rw [powerChars]
    split
    · exact readPlaces_delimited hrest
    · rfl
  · exact takeDigits?_append ⟨hplaces, h.places⟩ (isDigit_of_powerChars hrest)

/-- A number is read as its parts. -/
theorem readNumber_chars (h : t.IsWellFormed) (hrest : Delimited rest) (negative : Bool) :
    readNumber negative (t.chars ++ rest) = some (t.read negative, rest) := by
  have hwhole : (if t.whole.head? == some '0' then ['0'] else t.whole) = t.whole := by
    split
    next hzero => exact (h.leading (beq_iff_eq.mp hzero)).symm
    next => rfl
  have htail : ∀ c ∈ ((if t.places = [] then [] else '.' :: t.places) ++
      (t.powerChars ++ rest)).head?, c.isDigit = false := by
    split_ifs
    · exact isDigit_of_powerChars hrest
    · rintro c ⟨⟩
      rfl
  have htake := takeDigits?_append h.whole htail
  have hplaces : (if t.places = [] then none else some (t.places, t.powerChars ++ rest)).getD
      ([], (if t.places = [] then [] else '.' :: t.places) ++ (t.powerChars ++ rest)) =
        (t.places, t.powerChars ++ rest) := by
    split_ifs with hnil
    · rw [hnil]
      rfl
    · rfl
  have hnone : (if t.places = [] then none else some (t.places, t.powerChars ++ rest)).isNone =
      decide (t.places = []) := by
    split_ifs with hnil <;> simp [hnil]
  have hpower : (t.power.map fun _ => (t.powerValue, rest)).getD (0, t.powerChars ++ rest) =
      (t.powerValue, rest) := by
    rw [powerValue, powerChars]
    cases t.power <;> rfl
  rw [chars, List.append_assoc, List.append_assoc, readNumber, htake]
  simp only [Option.bind_eq_bind, Option.bind_some, hwhole, List.drop_left, readPlaces_eq h hrest,
    hplaces, hnone, readPower_eq h hrest, hpower, Option.isNone_map, read]
  cases hnopower : t.power with
  | none =>
      by_cases hnil : t.places = []
      · simp [hnil]
      · simp [hnil]
  | some p => simp

end NumberText

/-! ## Whole numbers -/

theorem head?_toString_ne_zero {n : Nat} (hn : 0 < n) : (toString n).toList.head? ≠ some '0' := by
  rw [Nat.toString_eq_repr, Nat.toList_repr]
  induction n using Nat.strongRecOn with
  | _ n ih =>
      obtain hlt | hge := lt_or_ge n 10
      · rw [Nat.toDigits_of_lt_base hlt]
        interval_cases n <;> decide
      · rw [Nat.toDigits_of_base_le (by norm_num) hge, List.head?_append_of_ne_nil _ Nat.toDigits_ne_nil]
        exact ih (n / 10) (by omega) (by omega)

theorem head?_toString {n : Nat} (h : (toString n).toList.head? = some '0') :
    (toString n).toList = ['0'] := by
  obtain rfl | hn := Nat.eq_zero_or_pos n
  · rfl
  · exact absurd h (head?_toString_ne_zero hn)

theorem readNumber_toString {rest : List Char} (hrest : Delimited rest) (negative : Bool) (n : Nat) :
    readNumber negative ((toString n).toList ++ rest) =
      some (int (if negative then -n else n), rest) := by
  have h : NumberText.IsWellFormed ⟨(toString n).toList, [], none⟩ :=
    ⟨isDigits_toString n, head?_toString, nofun, nofun⟩
  have hread := NumberText.readNumber_chars h hrest negative
  have hvalue := natOfDigits_toString n
  generalize (toString n).toList = ds at *
  simpa [NumberText.chars, NumberText.powerChars, NumberText.read, hvalue] using hread

/-! ## Real numbers -/

/-- The digits of an exponent, of which there are at least two. -/
def exponentDigits (n : Nat) : List Char :=
  if (toString n).length < 2 then '0' :: (toString n).toList else (toString n).toList

theorem isDigits_exponentDigits (n : Nat) : IsDigits (exponentDigits n) := by
  have h := isDigits_toString n
  unfold exponentDigits
  split_ifs
  · exact ⟨List.cons_ne_nil _ _, List.forall_mem_cons.mpr ⟨rfl, h.isDigit⟩⟩
  · exact h

theorem natOfDigits_exponentDigits (n : Nat) : natOfDigits (exponentDigits n) = n := by
  unfold exponentDigits
  split_ifs
  · exact natOfDigits_toString n
  · exact natOfDigits_toString n

/-- The parts of a decimal as it is written. -/
def numberText (d : Scientific) : NumberText :=
  let ds := (toString d.digits).toList
  let lead : Int := ds.length + d.exponent
  if -4 < lead ∧ lead ≤ 16 then
    if 0 ≤ d.exponent then ⟨ds ++ List.replicate d.exponent.toNat '0', ['0'], none⟩
    else if 0 < lead then ⟨ds.take lead.toNat, ds.drop lead.toNat, none⟩
    else ⟨['0'], List.replicate (-lead).toNat '0' ++ ds, none⟩
  else
    ⟨ds.take 1, ds.drop 1, some (decide (lead - 1 < 0), exponentDigits (lead - 1).natAbs)⟩

theorem toList_text (d : Scientific) : d.text.toList = (numberText d).chars := by
  have hpos : 0 < (toString d.digits).length := by
    rw [Nat.toString_eq_repr]
    exact Nat.length_repr_pos
  simp only [Scientific.text, numberText, exponentDigits, Int.ofNat_eq_natCast, Bool.and_eq_true,
    decide_eq_true_eq, String.length_toList]
  generalize toString d.digits = ds at *
  have hds : ds.toList ≠ [] := by
    rw [Ne, ← List.length_eq_zero_iff, String.length_toList]
    omega
  by_cases hpositional : -4 < (ds.length + d.exponent : Int) ∧ (ds.length + d.exponent : Int) ≤ 16
  · rw [if_pos hpositional, if_pos hpositional]
    split_ifs with hwhole hpoint
    · simp [NumberText.chars, NumberText.powerChars]
    · have hdrop : ds.toList.drop (ds.length + d.exponent : Int).toNat ≠ [] := by
        rw [Ne, List.drop_eq_nil_iff, String.length_toList]
        omega
      simp only [NumberText.chars, NumberText.powerChars, if_neg hdrop, String.toList_append,
        String.toList_ofList]
      simp
    · have hne := List.append_ne_nil_of_right_ne_nil
        (List.replicate (-(ds.length + d.exponent : Int)).toNat '0') hds
      simp only [NumberText.chars, NumberText.powerChars, if_neg hne, String.toList_append,
        String.toList_ofList]
      simp
  · rw [if_neg hpositional, if_neg hpositional]
    have hdrop : ds.toList.drop 1 = [] ↔ ds.length ≤ 1 := by
      rw [List.drop_eq_nil_iff, String.length_toList]
    simp only [NumberText.chars, NumberText.powerChars, hdrop, String.toList_append,
      String.toList_ofList, apply_ite String.toList, decide_eq_true_eq]
    split_ifs <;> simp

theorem wellFormed_numberText {d : Scientific} (h : 0 < d.digits) : (numberText d).IsWellFormed := by
  have hds := isDigits_toString d.digits
  have hhead := head?_toString_ne_zero h
  unfold numberText
  generalize (toString d.digits).toList = ds at *
  dsimp only
  split_ifs with hpositional hwhole hpoint
  · refine ⟨hds.append_zeros _, fun hzero => ?_, by simp, nofun⟩
    rw [List.head?_append_of_ne_nil _ hds.ne_nil] at hzero
    exact absurd hzero hhead
  · refine ⟨hds.take (by omega), fun hzero => ?_, fun c hc => hds.isDigit c (List.mem_of_mem_drop hc),
      nofun⟩
    rw [List.head?_take, if_neg (by omega)] at hzero
    exact absurd hzero hhead
  · refine ⟨⟨List.cons_ne_nil _ _, by simp⟩, fun _ => rfl, fun c hc => ?_, nofun⟩
    obtain hc | hc := List.mem_append.mp hc
    · rw [List.eq_of_mem_replicate hc]
      rfl
    · exact hds.isDigit c hc
  · refine ⟨hds.take one_pos, fun hzero => ?_, fun c hc => hds.isDigit c (List.mem_of_mem_drop hc), ?_⟩
    · rw [List.head?_take, if_neg one_ne_zero] at hzero
      exact absurd hzero hhead
    · rintro p ⟨⟩
      exact isDigits_exponentDigits _

/-- A decimal is always written with a point or an exponent. -/
theorem numberText_isReal (d : Scientific) :
    ¬((numberText d).places = [] ∧ (numberText d).power = none) := by
  have hds := (isDigits_toString d.digits).ne_nil
  unfold numberText
  generalize (toString d.digits).toList = ds at *
  dsimp only
  split_ifs with hpositional hwhole hpoint
  · exact fun h => h.1
  · rw [List.drop_eq_nil_iff]
    omega
  · exact fun h => hds (List.append_eq_nil_iff.mp h.1).2
  · exact fun h => h.2

/-- The digits of a decimal stand for it wherever the point is put. -/
theorem value_numberText (d : Scientific) :
    (natOfDigits ((numberText d).whole ++ (numberText d).places) *
      10 ^ ((numberText d).powerValue - (numberText d).places.length) : ℚ) = d.value := by
  have hvalue := natOfDigits_toString d.digits
  have hlength := List.length_pos_iff.mpr (isDigits_toString d.digits).ne_nil
  unfold numberText Scientific.value
  generalize (toString d.digits).toList = ds at *
  dsimp only
  split_ifs with hpositional hwhole hpoint
  · have hzeros : List.replicate d.exponent.toNat '0' ++ ['0'] =
        List.replicate (d.exponent.toNat + 1) '0' := List.replicate_succ'.symm
    rw [List.append_assoc, hzeros, natOfDigits_append, natOfDigits_zeros, hvalue]
    push_cast
    rw [add_zero, List.length_replicate, mul_assoc, ← zpow_natCast, ← zpow_add₀ (by norm_num)]
    congr 2
    change ((d.exponent.toNat + 1 : Nat) : Int) + (0 - (1 : Nat)) = _
    omega
  · rw [List.take_append_drop, hvalue, List.length_drop]
    congr 2
    change 0 - _ = _
    omega
  · have hdigits : natOfDigits
        (['0'] ++ (List.replicate (-(ds.length + d.exponent : Int)).toNat '0' ++ ds)) = d.digits := by
      rw [natOfDigits_append, natOfDigits_append, natOfDigits_zeros, hvalue]
      change 0 * _ + _ = _
      omega
    rw [hdigits, List.length_append, List.length_replicate]
    congr 2
    change 0 - _ = _
    omega
  · rw [List.take_append_drop, hvalue, List.length_drop]
    congr 2
    simp only [NumberText.powerValue, natOfDigits_exponentDigits, decide_eq_true_eq]
    split_ifs <;> omega

/-- The real number as which a decimal is read, whatever its sign. -/
theorem readNumber_text {d : Scientific} (h : 0 < d.digits) {rest : List Char}
    (hrest : Delimited rest) : ∃ (n : Nat) (x : Int), (n * 10 ^ x : ℚ) = d.value ∧
      ∀ negative, readNumber negative (d.text.toList ++ rest) =
        some (real (if negative then -realOf n x else realOf n x), rest) := by
  refine ⟨_, _, value_numberText d, fun negative => ?_⟩
  rw [toList_text, NumberText.readNumber_chars (wellFormed_numberText h) hrest, NumberText.read,
    if_neg (numberText_isReal d)]

end Wayfare.Value
