import Mathlib.Order.Lattice
import Mathlib.Order.Defs.LinearOrder

/-! # Sorting by a key

Sorting by the order of a key puts items with smaller keys first and keeps those
with one key as they stood. The comparison has to agree with the order of the
keys on the items only.
-/

namespace Wayfare

variable {α K : Type} [LinearOrder K]

/-- Items in the order of a key: the same ones, none before one with a smaller key, and those with one key
as they stood. -/
structure SortedByKey (key : α → K) (given ordered : List α) : Prop where
  perm : ordered.Perm given
  sorted : ordered.Pairwise fun a b => key a ≤ key b
  stable : ∀ k, (ordered.filter fun a => decide (key a = k)) = given.filter fun a => decide (key a = k)

namespace SortedByKey

variable {key : α → K} {given ordered : List α}

/-- Items are in the order of a key if what they stand for is. -/
theorem map {β : Type} {f : α → β} (key' : β → K) (h : SortedByKey key given ordered)
    (hkey : ∀ a ∈ given, key' (f a) = key a) :
    SortedByKey key' (given.map f) (ordered.map f) where
  perm := h.perm.map f
  sorted := by
    rw [List.pairwise_map]
    refine h.sorted.imp_of_mem fun ha hb hab => ?_
    rwa [hkey _ (h.perm.mem_iff.mp ha), hkey _ (h.perm.mem_iff.mp hb)]
  stable k := by
    have hfilter (items : List α) (hitems : ∀ a ∈ items, a ∈ given) :
        (items.map f).filter (fun b => decide (key' b = k)) =
          (items.filter fun a => decide (key a = k)).map f := by
      rw [List.filter_map]
      congr 1
      apply List.filter_congr
      intro a ha
      rw [Function.comp_apply, hkey a (hitems a ha)]
    rw [hfilter ordered fun a ha => h.perm.mem_iff.mp ha, hfilter given fun _ ha => ha, h.stable]

/-- None of the items that are left out comes before one of the first. -/
theorem le_of_notMem_take (h : SortedByKey key given ordered) {n : Nat} {a b : α}
    (ha : a ∈ ordered.take n) (hb : b ∈ given) (hout : b ∉ ordered.take n) : key a ≤ key b := by
  have hsplit := h.sorted
  rw [← List.take_append_drop n ordered, List.pairwise_append] at hsplit
  have hdrop : b ∈ ordered.take n ++ ordered.drop n := by
    rw [List.take_append_drop]
    exact h.perm.mem_iff.mpr hb
  exact hsplit.2.2 a ha b ((List.mem_append.mp hdrop).resolve_left hout)

/-- The first items with one key are the first of the given ones. -/
theorem filter_take_prefix (h : SortedByKey key given ordered) (n : Nat) (k : K) :
    (ordered.take n).filter (fun a => decide (key a = k)) <+:
      given.filter fun a => decide (key a = k) := by
  rw [← h.stable]
  exact (List.take_prefix n ordered).filter _

end SortedByKey

theorem mergeSort_congr {r s : α → α → Bool} {items : List α}
    (h : ∀ a ∈ items, ∀ b ∈ items, r a b = s a b) : items.mergeSort r = items.mergeSort s := by
  simpa using List.map_mergeSort (f := id) h

theorem sortedByKey_mergeSort {key : α → K} {r : α → α → Bool} {items : List α}
    (h : ∀ a ∈ items, ∀ b ∈ items, r a b = decide (key a ≤ key b)) :
    SortedByKey key items (items.mergeSort r) := by
  rw [mergeSort_congr h]
  have htrans : ∀ a b c : α, decide (key a ≤ key b) = true → decide (key b ≤ key c) = true →
      decide (key a ≤ key c) = true := by
    intro a b c hab hbc
    exact decide_eq_true ((of_decide_eq_true hab).trans (of_decide_eq_true hbc))
  have htotal : ∀ a b : α, (decide (key a ≤ key b) || decide (key b ≤ key a)) = true := by
    intro a b
    rw [← Bool.decide_or]
    exact decide_eq_true (le_total _ _)
  have hperm := List.mergeSort_perm items fun a b => decide (key a ≤ key b)
  refine ⟨hperm, (List.pairwise_mergeSort htrans htotal items).imp of_decide_eq_true, fun k => ?_⟩
  -- Items with one key are in order already, so sorting leaves them a sublist as they stand.
  have htied : (items.filter fun a => decide (key a = k)).Pairwise
      fun a b => decide (key a ≤ key b) = true := by
    apply List.pairwise_of_forall_mem_list
    intro a ha b hb
    rw [of_decide_eq_true (List.mem_filter.mp ha).2, of_decide_eq_true (List.mem_filter.mp hb).2]
    exact decide_eq_true le_rfl
  have hsub := (List.sublist_mergeSort htrans htotal htied List.filter_sublist).filter
    fun a => decide (key a = k)
  rw [List.filter_filter] at hsub
  simp only [Bool.and_self] at hsub
  exact (hsub.eq_of_length (hperm.filter _).length_eq.symm).symm

end Wayfare
