import Mathlib.Data.Int.Order.Basic
import Wayfare.Booking
import Wayfare.Proofs.SortByKey

/-! # Sorting by a value

Items can be sorted by a value of each if each value can be ordered with the
next one. Then all values are of one kind, and moments end up in the order of
time.
-/

namespace Wayfare.Value

variable {α : Type}

theorem sortBy_perm {key : α → Value} {items sorted : List α} (h : sortBy key items = .ok sorted) :
    sorted.Perm items := by
  rw [sortBy] at h
  split at h
  next =>
    cases h
    exact List.mergeSort_perm items _
  next => cases h

theorem sortBy_nil (key : α → Value) : sortBy key ([] : List α) = .ok [] := by
  rw [sortBy, List.mergeSort_nil]
  rfl

theorem sortBy_singleton (key : α → Value) (a : α) : sortBy key [a] = .ok [a] := by
  rw [sortBy, if_pos (by rfl), List.mergeSort_singleton]

theorem comparable_moment {a b : Value} (h : comparable a b = true) :
    (∃ m, a = .moment m) ↔ ∃ n, b = .moment n := by
  cases a <;> cases b <;> simp [comparable, number?] at h ⊢

/-- Among values that can be ordered there are only moments or none. -/
theorem forall_moment_of_areComparable {values : List Value} (h : areComparable values = true)
    {v : Value} (hv : v ∈ values) (hmoment : ∃ m, v = .moment m) :
    ∀ w ∈ values, ∃ n, w = .moment n := by
  induction values generalizing v with
  | nil => exact absurd hv List.not_mem_nil
  | cons a rest ih =>
      cases rest with
      | nil =>
          intro w hw
          rw [List.mem_singleton] at hv hw
          rwa [hw, ← hv]
      | cons b rest =>
          rw [areComparable, Bool.and_eq_true] at h
          have hhead := comparable_moment h.1
          -- Neighbours can be ordered, so being a moment is passed on from one to the next.
          have hb : ∃ n, b = .moment n := by
            rcases List.mem_cons.mp hv with rfl | hv
            · exact hhead.mp hmoment
            · exact ih h.2 hv hmoment b List.mem_cons_self
          intro w hw
          rcases List.mem_cons.mp hw with rfl | hw
          · exact hhead.mpr hb
          · exact ih h.2 List.mem_cons_self hb w hw

/-- A value as a position on the time line, zero unless it is a moment. -/
def instant (v : Value) : Int :=
  (v.moment?.map Calendar.Moment.instant).getD 0

/-- Moments end up in the order of time. -/
theorem pairwise_sortBy {key : α → Value} {items sorted : List α}
    (h : sortBy key items = .ok sorted) :
    sorted.Pairwise fun a b => ∀ m n, key a = .moment m → key b = .moment n →
      m.instant ≤ n.instant := by
  -- One moment makes all values moments, and those are sorted by their instants.
  by_cases hmoment : ∃ a ∈ items, ∃ m, key a = .moment m
  · obtain ⟨a, ha, hm⟩ := hmoment
    rw [sortBy] at h
    split at h
    next hcomparable =>
      have hall := forall_moment_of_areComparable hcomparable (List.mem_map_of_mem ha) hm
      have hsame : ∀ a ∈ items, ∀ b ∈ items, (!isBelow (key b) (key a)) =
          decide ((key a).instant ≤ (key b).instant) := by
        intro a ha b hb
        obtain ⟨m, hm⟩ := hall _ (List.mem_map_of_mem ha)
        obtain ⟨n, hn⟩ := hall _ (List.mem_map_of_mem hb)
        rw [hm, hn]
        simp only [isBelow, instant, moment?, Option.map_some, Option.getD_some]
        rw [← decide_not]
        exact decide_eq_decide.mpr Int.not_lt
      cases h
      refine (sortedByKey_mergeSort hsame).sorted.imp ?_
      intro a b hab m n hm hn
      rwa [hm, hn] at hab
    next => cases h
  · -- Without any moment there is nothing to be ordered by time.
    have hnone : ∀ a ∈ sorted, ∀ m, key a ≠ .moment m := fun a ha m hm =>
      hmoment ⟨a, (sortBy_perm h).mem_iff.mp ha, m, hm⟩
    exact List.pairwise_of_forall_mem_list fun a ha _ _ m _ hm => absurd hm (hnone a ha m)

end Wayfare.Value
