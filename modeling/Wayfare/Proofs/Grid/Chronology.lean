import Mathlib.Data.Prod.Lex
import Wayfare.Grid.Confirmed
import Wayfare.Proofs.SortByKey
import Wayfare.Proofs.Success

/-! # Bookings in the order of time

Bookings are ordered by their starts and then by how firm they are. Ordering a
list of them keeps bookings that agree in both as they stood, and so does
ordering any part of the list.
-/

namespace Wayfare

open Wayfare.Calendar

namespace Booking

/-- When a booking is over, as a position on the time line. -/
def endInstant (b : Booking) : Int :=
  (b.finish.moment?.map Moment.instant).getD 0

/-- The windows of two bookings overlap: each begins before the other is over. -/
def Overlap (a b : Booking) : Prop :=
  a.instant < b.endInstant ∧ b.instant < a.endInstant

instance instDecidableOverlap (a b : Booking) : Decidable (Overlap a b) :=
  inferInstanceAs (Decidable (_ ∧ _))

theorem Overlap.symm {a b : Booking} (h : Overlap a b) : Overlap b a :=
  And.symm h

/-- Bookings that can be compared with each other: each begins and ends at a moment, and either all
of these moments have an offset or none has. -/
def MutuallyComparable (bookings : List Booking) : Prop :=
  ∃ zoned : Bool, ∀ b ∈ bookings, ∃ start finish : Moment,
    b.start = .moment start ∧ b.finish = .moment finish ∧
      start.offset.isSome = zoned ∧ finish.offset.isSome = zoned

theorem MutuallyComparable.of_subset {some_ all : List Booking} (h : MutuallyComparable all)
    (hsub : ∀ b ∈ some_, b ∈ all) : MutuallyComparable some_ := by
  obtain ⟨zoned, hzoned⟩ := h
  exact ⟨zoned, fun b hb => hzoned b (hsub b hb)⟩

/-- A booking comes no later than another: by its start, and at the same start by its priority. -/
def NoLater (a b : Booking) : Prop :=
  a.instant < b.instant ∨ a.instant = b.instant ∧ a.priority ≤ b.priority

/-- Two bookings start together and are equally firm. -/
def Tied (a b : Booking) : Prop :=
  a.instant = b.instant ∧ a.priority = b.priority

instance instDecidableTied (a b : Booking) : Decidable (Tied a b) :=
  inferInstanceAs (Decidable (_ ∧ _))

theorem overlaps_eq_ok {zoned : Bool} {a b : Booking} {startA finishA startB finishB : Moment}
    (hsa : a.start = .moment startA) (hfa : a.finish = .moment finishA)
    (hsb : b.start = .moment startB) (hfb : b.finish = .moment finishB)
    (hza : startA.offset.isSome = zoned ∧ finishA.offset.isSome = zoned)
    (hzb : startB.offset.isSome = zoned ∧ finishB.offset.isSome = zoned) :
    a.overlaps b = .ok (decide (Overlap a b)) := by
  have hfirst : before a.start b.finish = .ok (decide (startA.instant < finishB.instant)) := by
    simp [before, hsa, hfb, Moment.before?, Moment.comparable, hza.1, hzb.2, Result.ofOption]
  have hsecond : before b.start a.finish = .ok (decide (startB.instant < finishA.instant)) := by
    simp [before, hsb, hfa, Moment.before?, Moment.comparable, hzb.1, hza.2, Result.ofOption]
  have hmeaning : Overlap a b ↔
      startA.instant < finishB.instant ∧ startB.instant < finishA.instant := by
    simp [Overlap, instant, endInstant, hsa, hfa, hsb, hfb, Value.moment?]
  rw [overlaps, hfirst, hsecond]
  by_cases h : startA.instant < finishB.instant
  · simp [bind, Except.bind, hmeaning, h]
  · simp [bind, Except.bind, pure, Except.pure, hmeaning, h]

/-- The overlap of comparable bookings is always told, and told right. -/
theorem MutuallyComparable.overlaps_eq {bookings : List Booking} (h : MutuallyComparable bookings)
    {a b : Booking} (ha : a ∈ bookings) (hb : b ∈ bookings) :
    a.overlaps b = .ok (decide (Overlap a b)) := by
  obtain ⟨zoned, hzoned⟩ := h
  obtain ⟨startA, finishA, hsa, hfa, hza⟩ := hzoned a ha
  obtain ⟨startB, finishB, hsb, hfb, hzb⟩ := hzoned b hb
  exact overlaps_eq_ok hsa hfa hsb hfb hza hzb

end Booking

namespace Grid

open Booking

/-- Bookings in the order of time: the same ones, none before an earlier or firmer one, and those that
are tied as they stood. -/
structure Chronological (given ordered : List Booking) : Prop where
  perm : ordered.Perm given
  sorted : ordered.Pairwise NoLater
  stable : ∀ b : Booking, ordered.filter (Tied b ·) = given.filter (Tied b ·)

/-- A part of the bookings is in the order of time if the whole is. -/
theorem Chronological.filter {given ordered : List Booking} (h : Chronological given ordered)
    (p : Booking → Bool) : Chronological (given.filter p) (ordered.filter p) where
  perm := h.perm.filter p
  sorted := h.sorted.filter p
  stable b := by
    have hstable := congrArg (List.filter p) (h.stable b)
    simpa only [List.filter_filter, Bool.and_comm] using hstable

theorem areComparable_of_zoned (zoned : Bool) {values : List Value}
    (h : ∀ v ∈ values, ∃ m : Moment, v = .moment m ∧ m.offset.isSome = zoned) :
    Value.areComparable values = true := by
  induction values with
  | nil => rfl
  | cons v rest ih =>
      have hrest := ih fun w hw => h w (List.mem_cons_of_mem _ hw)
      cases rest with
      | nil => rfl
      | cons w rest =>
          obtain ⟨m, rfl, hm⟩ := h v List.mem_cons_self
          obtain ⟨n, rfl, hn⟩ := h w (List.mem_cons_of_mem _ List.mem_cons_self)
          rw [Value.areComparable, hrest]
          simp [Value.comparable, Moment.comparable, hm, hn]

/-- Comparable bookings can be ordered. -/
theorem chronological_eq_ok {bookings : List Booking} (h : MutuallyComparable bookings) :
    chronological bookings = .ok (bookings.mergeSort startsBefore) := by
  obtain ⟨zoned, hzoned⟩ := h
  have hall : allComparable bookings = true := by
    apply areComparable_of_zoned zoned
    intro v hv
    obtain ⟨b, hb, rfl⟩ := List.mem_map.mp hv
    obtain ⟨start, _, hstart, _, hoffset, _⟩ := hzoned b hb
    exact ⟨start, hstart, hoffset⟩
  rw [chronological, if_pos hall]

end Grid

end Wayfare
