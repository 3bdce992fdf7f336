import Mathlib.Tactic.Ring
import Wayfare.Calendar.Moment
import Wayfare.Proofs.Decimal.Digits

/-! # The text of a moment

No two moments have the same text. The year, the month and the day of the month
tell a date, and the digits up to each mark tell the numbers of the clock and of
the offset.
-/

namespace Wayfare.Calendar

open Wayfare.Decimal

/-! ## Dates -/

/-- The days of the months that are counted off, and the day of the month that is left. -/
theorem monthAndDay_spec (month rest : Nat) (lengths : List Nat) :
    month ≤ (monthAndDay month rest lengths).1 ∧
      rest + 1 = (lengths.take ((monthAndDay month rest lengths).1 - month)).sum +
        (monthAndDay month rest lengths).2 := by
  induction lengths generalizing month rest with
  | nil => exact ⟨le_rfl, by simp [monthAndDay]⟩
  | cons length lengths ih =>
      rw [monthAndDay]
      split
      next => exact ⟨le_rfl, by simp⟩
      next hlater =>
        obtain ⟨hmonth, hday⟩ := ih (month + 1) (rest - length)
        generalize monthAndDay (month + 1) (rest - length) lengths = found at hmonth hday
        obtain ⟨k, hk⟩ : ∃ k, found.1 - month = k + 1 := ⟨found.1 - (month + 1), by omega⟩
        have hk' : found.1 - (month + 1) = k := by omega
        rw [hk'] at hday
        rw [hk, List.take_succ_cons, List.sum_cons]
        omega

/-- The days before a year are those of the spans of 400, 100, 4 and 1 years before it. -/
theorem daysBeforeYear_of_spans {a b c d : Nat} (hb : b ≤ 3) (hc : c ≤ 24) (hd : d ≤ 3) :
    daysBeforeYear (400 * a + 100 * b + 4 * c + d + 1) =
      146097 * a + 36524 * b + 1461 * c + 365 * d := by
  rw [daysBeforeYear]
  omega

theorem Date.ordinal_eq_civil (d : Date) :
    d.ordinal = daysBeforeYear d.civil.1 +
      ((monthLengths d.civil.1).take (d.civil.2.1 - 1)).sum + d.civil.2.2 := by
  have hpositive := d.one_le_ordinal
  have hday := fun rest lengths => (monthAndDay_spec 1 rest lengths).2
  rw [Date.civil]
  dsimp only
  rw [daysBeforeYear_of_spans (by omega) (by omega) (by omega), add_assoc, ← hday]
  omega

theorem Date.civil_injective {d e : Date} (h : d.civil = e.civil) : d = e := by
  have hordinal : d.ordinal = e.ordinal := by
    rw [d.ordinal_eq_civil, e.ordinal_eq_civil, h]
  cases d
  cases e
  congr

/-- A date and what follows it are told by the text of the two. -/
theorem Date.text_append_inj {d e : Date} {rest rest' : List Char} (hrest : AfterDigits rest)
    (hrest' : AfterDigits rest') (h : d.text.toList ++ rest = e.text.toList ++ rest') :
    d = e ∧ rest = rest' := by
  simp only [Date.text, String.toList_append, List.append_assoc] at h
  have hdash : ∀ rest : List Char, AfterDigits ("-".toList ++ rest) := AfterDigits.cons rfl
  obtain ⟨hyear, h⟩ := padded_append_inj (hdash _) (hdash _) h
  obtain ⟨hmonth, h⟩ := padded_append_inj (hdash _) (hdash _) (List.append_cancel_left h)
  obtain ⟨hday, h⟩ := padded_append_inj hrest hrest' (List.append_cancel_left h)
  exact ⟨Date.civil_injective (Prod.ext hyear (Prod.ext hmonth hday)), h⟩

/-! ## Clocks -/

/-- What can follow a clock: nothing, or the sign of an offset. -/
def IsZone (rest : List Char) : Prop :=
  ∀ c ∈ rest.head?, c = '+' ∨ c = '-'

theorem IsZone.nil : IsZone [] :=
  fun c hc => by cases hc

theorem IsZone.afterDigits {rest : List Char} (h : IsZone rest) : AfterDigits rest := by
  intro c hc
  rcases h c hc with rfl | rfl <;> rfl

/-- A zone does not begin with a point, so it is not taken for a fraction. -/
theorem not_isZone_point (rest : List Char) : ¬ IsZone ('.' :: rest) := by
  intro h
  rcases h '.' rfl with h | h <;> exact absurd h (by decide)

theorem toList_fractionText {micros : Nat} (h : 0 < micros) :
    (fractionText micros).toList = '.' :: (padded 6 micros).toList := by
  rw [fractionText, if_neg (by rw [beq_iff_eq]; omega), String.toList_append]
  rfl

theorem afterDigits_fraction (micros : Nat) {rest : List Char} (hrest : IsZone rest) :
    AfterDigits ((fractionText micros).toList ++ rest) := by
  rcases Nat.eq_zero_or_pos micros with rfl | hpos
  · exact hrest.afterDigits
  · rw [toList_fractionText hpos]
    exact .cons rfl _

theorem fractionText_append_inj {m n : Nat} {rest rest' : List Char} (hrest : IsZone rest)
    (hrest' : IsZone rest') (h : (fractionText m).toList ++ rest = (fractionText n).toList ++ rest') :
    m = n ∧ rest = rest' := by
  rcases Nat.eq_zero_or_pos m with rfl | hm <;> rcases Nat.eq_zero_or_pos n with rfl | hn
  · exact ⟨rfl, h⟩
  · rw [toList_fractionText hn] at h
    obtain rfl : rest = _ := h
    exact absurd hrest (not_isZone_point _)
  · rw [toList_fractionText hm] at h
    obtain rfl : _ = rest' := h
    exact absurd hrest' (not_isZone_point _)
  · rw [toList_fractionText hm, toList_fractionText hn, List.cons_append, List.cons_append,
      List.cons_inj_right] at h
    exact padded_append_inj hrest.afterDigits hrest'.afterDigits h

theorem afterDigits_colon (rest : List Char) : AfterDigits (":".toList ++ rest) :=
  .cons rfl rest

/-- A clock and the zone after it are told by the text of the two. -/
theorem clockText_append_inj {m n : Nat} {rest rest' : List Char} (hrest : IsZone rest)
    (hrest' : IsZone rest') (h : (clockText m).toList ++ rest = (clockText n).toList ++ rest') :
    m = n ∧ rest = rest' := by
  simp only [clockText, String.toList_append, List.append_assoc] at h
  obtain ⟨hhours, h⟩ := padded_append_inj (afterDigits_colon _) (afterDigits_colon _) h
  obtain ⟨hminutes, h⟩ :=
    padded_append_inj (afterDigits_colon _) (afterDigits_colon _) (List.append_cancel_left h)
  obtain ⟨hseconds, h⟩ := padded_append_inj (afterDigits_fraction _ hrest)
    (afterDigits_fraction _ hrest') (List.append_cancel_left h)
  obtain ⟨hmicros, h⟩ := fractionText_append_inj hrest hrest' h
  refine ⟨?_, h⟩
  rw [second] at *
  omega

/-! ## Offsets -/

def signText (offset : Int) : String :=
  if offset < 0 then "-" else "+"

/-- The seconds of an offset with their fraction, which are left out if there are none. -/
def secondsText (size : Nat) : String :=
  if size % (60 * second) == 0 then ""
  else ":" ++ padded 2 (size / second % 60) ++ fractionText (size % second)

theorem offsetText_eq (offset : Int) :
    offsetText offset = signText offset ++ padded 2 (offset.natAbs / second / 3600) ++ ":" ++
      padded 2 (offset.natAbs / second / 60 % 60) ++ secondsText offset.natAbs :=
  rfl

theorem toList_signText (offset : Int) :
    (signText offset).toList = [if offset < 0 then '-' else '+'] := by
  rw [signText]
  split <;> rfl

/-- The text of an offset begins with its sign. -/
theorem exists_toList_offsetText (offset : Int) :
    ∃ rest, (offsetText offset).toList = (if offset < 0 then '-' else '+') :: rest := by
  simp only [offsetText_eq, String.toList_append, List.append_assoc, toList_signText]
  exact ⟨_, rfl⟩

theorem isZone_offsetText (offset : Int) : IsZone (offsetText offset).toList := by
  obtain ⟨rest, hrest⟩ := exists_toList_offsetText offset
  rw [hrest]
  rintro _ ⟨rfl⟩
  split
  next => exact .inr rfl
  next => exact .inl rfl

theorem afterDigits_secondsText (size : Nat) : AfterDigits (secondsText size).toList := by
  rw [secondsText]
  split
  next => exact .nil
  next =>
    rw [String.toList_append, String.toList_append, List.append_assoc]
    exact afterDigits_colon _

theorem secondsText_inj {m n : Nat} (h : (secondsText m).toList = (secondsText n).toList) :
    m % (60 * second) = n % (60 * second) := by
  rw [secondsText, secondsText] at h
  split at h <;> split at h
  next hm hn => rw [eq_of_beq hm, eq_of_beq hn]
  next =>
    simp only [String.toList_append, List.append_assoc] at h
    cases h
  next =>
    simp only [String.toList_append, List.append_assoc] at h
    cases h
  next =>
    simp only [String.toList_append, List.append_assoc] at h
    have hfraction : ∀ k, AfterDigits (fractionText k).toList := by
      intro k
      rw [← List.append_nil (fractionText k).toList]
      exact afterDigits_fraction k .nil
    obtain ⟨hseconds, h⟩ :=
      padded_append_inj (hfraction _) (hfraction _) (List.append_cancel_left h)
    obtain ⟨hmicros, _⟩ := fractionText_append_inj .nil .nil (congrArg (· ++ []) h)
    rw [second] at *
    omega

/-- The sign and the size of an offset are told by its text. -/
theorem offsetText_injective {m n : Int} (h : offsetText m = offsetText n) : m = n := by
  have hlist := congrArg String.toList h
  simp only [offsetText_eq, String.toList_append, List.append_assoc, toList_signText,
    List.singleton_append] at hlist
  obtain ⟨hsign, hlist⟩ := List.cons_eq_cons.mp hlist
  obtain ⟨hhours, hlist⟩ := padded_append_inj (afterDigits_colon _) (afterDigits_colon _) hlist
  obtain ⟨hminutes, hlist⟩ := padded_append_inj (afterDigits_secondsText _)
    (afterDigits_secondsText _) (List.append_cancel_left hlist)
  have hseconds := secondsText_inj hlist
  have hsize : m.natAbs = n.natAbs := by
    rw [second] at *
    omega
  have hnegative : m < 0 ↔ n < 0 := by
    by_cases hm : m < 0 <;> by_cases hn : n < 0
    · exact iff_of_true hm hn
    · rw [if_pos hm, if_neg hn] at hsign
      exact absurd hsign (by decide)
    · rw [if_neg hm, if_pos hn] at hsign
      exact absurd hsign (by decide)
    · exact iff_of_false hm hn
  omega

/-! ## Moments -/

/-- The zone of a moment: its offset, if it has one. -/
def zoneText (offset : Option Int) : String :=
  (offset.map offsetText).getD ""

theorem isZone_zoneText (offset : Option Int) : IsZone (zoneText offset).toList := by
  cases offset with
  | none => exact .nil
  | some offset => exact isZone_offsetText offset

theorem zoneText_injective {a b : Option Int} (h : zoneText a = zoneText b) : a = b := by
  have hempty : ∀ offset, offsetText offset ≠ "" := by
    intro offset hnone
    obtain ⟨rest, hrest⟩ := exists_toList_offsetText offset
    rw [hnone] at hrest
    cases hrest
  cases a with
  | none =>
      cases b with
      | none => rfl
      | some b => exact absurd h.symm (hempty b)
  | some a =>
      cases b with
      | none => exact absurd h (hempty a)
      | some b => rw [offsetText_injective h]

theorem Moment.text_eq (m : Moment) :
    m.text = m.date.text ++ "T" ++ clockText m.clock ++ zoneText m.offset :=
  rfl

/-- A moment is told by its text. -/
theorem Moment.text_injective {m n : Moment} (h : m.text = n.text) : m = n := by
  have hlist := congrArg String.toList h
  simp only [Moment.text_eq, String.toList_append, List.append_assoc] at hlist
  have hmark : ∀ rest : List Char, AfterDigits ("T".toList ++ rest) := AfterDigits.cons rfl
  obtain ⟨hdate, hlist⟩ := Date.text_append_inj (hmark _) (hmark _) hlist
  obtain ⟨hclock, hlist⟩ := clockText_append_inj (isZone_zoneText _) (isZone_zoneText _)
    (List.append_cancel_left hlist)
  have hoffset := zoneText_injective (String.toList_inj.mp hlist)
  cases m
  cases n
  congr

end Wayfare.Calendar
