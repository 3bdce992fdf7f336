import Mathlib.Data.List.Nodup
import Mathlib.Data.List.Perm.Basic

/-! # Taking a list apart by a key

A list is split into the parts that share a key. Put together again in any order
of the keys, the parts are the whole list; if the list goes through the keys in
their order, they are the list as it stood.
-/

namespace Wayfare

variable {α κ : Type} [DecidableEq κ]

/-- Without the items of a first key, the other keys have the same parts. -/
theorem flatMap_filter_of_notMem {key : α → κ} {c : κ} {keys : List κ} (hfresh : c ∉ keys)
    (items : List α) :
    (keys.flatMap fun k => (items.filter fun x => !decide (key x = c)).filter fun x => key x = k) =
      keys.flatMap fun k => items.filter fun x => key x = k := by
  apply List.flatMap_congr
  intro k hk
  have hne : k ≠ c := fun heq => hfresh (heq ▸ hk)
  rw [List.filter_filter]
  apply List.filter_congr
  intro x _
  by_cases hx : key x = k
  · simp [hx, hne]
  · simp [hx]

/-- What is left without the items of a first key has one of the other keys. -/
theorem key_mem_of_mem_filter {key : α → κ} {c : κ} {keys : List κ} {items : List α}
    (hkeys : ∀ x ∈ items, key x ∈ c :: keys) :
    ∀ x ∈ items.filter (fun x => !decide (key x = c)), key x ∈ keys := by
  intro x hx
  obtain ⟨hmem, hne⟩ := List.mem_filter.mp hx
  have hne : key x ≠ c := by simpa using hne
  exact (List.mem_cons.mp (hkeys x hmem)).resolve_left hne

/-- The parts of a list, one for each key, are together the whole list. -/
theorem flatMap_filter_perm {key : α → κ} {keys : List κ} (hnodup : keys.Nodup) {items : List α}
    (hkeys : ∀ x ∈ items, key x ∈ keys) :
    (keys.flatMap fun c => items.filter fun x => key x = c).Perm items := by
  induction keys generalizing items with
  | nil => rw [List.eq_nil_iff_forall_not_mem.mpr fun x hx => List.not_mem_nil (hkeys x hx)]; rfl
  | cons c keys ih =>
      obtain ⟨hfresh, hnodup⟩ := List.nodup_cons.mp hnodup
      have hrest := ih hnodup (key_mem_of_mem_filter hkeys)
      rw [flatMap_filter_of_notMem hfresh] at hrest
      rw [List.flatMap_cons]
      exact (hrest.append_left _).trans (List.filter_append_perm _ items)

omit [DecidableEq κ] in
/-- Keys without a part may be left out. -/
theorem flatMap_filter_of_eq_nil {keep : κ → Bool} {part : κ → List α}
    (h : ∀ k, keep k = false → part k = []) (keys : List κ) :
    (keys.filter keep).flatMap part = keys.flatMap part := by
  induction keys with
  | nil => rfl
  | cons k keys ih =>
      rw [List.filter_cons, List.flatMap_cons, ← ih]
      cases hkeep : keep k with
      | true => rfl
      | false => simp [h k hkeep]

omit [DecidableEq κ] in
theorem flatMap_filter_isEmpty (keys : List κ) (part : κ → List α) :
    (keys.filter fun k => !(part k).isEmpty).flatMap part = keys.flatMap part :=
  flatMap_filter_of_eq_nil (by simp) keys

omit [DecidableEq κ] in
/-- Of the parts of some keys put together, what passes a test is one part, if the test tells it from the
others. -/
theorem filter_flatMap_eq {keys : List κ} (hnodup : keys.Nodup) {c : κ} (hc : c ∈ keys)
    {part : κ → List α} {test : α → Bool} (hpart : ∀ x ∈ part c, test x = true)
    (hothers : ∀ k ≠ c, ∀ x ∈ part k, test x = false) :
    (keys.flatMap part).filter test = part c := by
  obtain ⟨before, after, rfl⟩ := List.append_of_mem hc
  have hfresh : c ∉ before ++ after := (List.nodup_cons.mp (List.nodup_middle.mp hnodup)).1
  have hnone : ∀ ks ⊆ before ++ after, (ks.flatMap part).filter test = [] := by
    intro ks hks
    rw [List.filter_eq_nil_iff]
    intro x hx
    obtain ⟨k, hk, hx⟩ := List.mem_flatMap.mp hx
    have hne : k ≠ c := fun heq => hfresh (heq ▸ hks hk)
    simp [hothers k hne x hx]
  rw [List.flatMap_append, List.flatMap_cons, List.filter_append, List.filter_append,
    hnone before (List.subset_append_left _ _), hnone after (List.subset_append_right _ _),
    List.filter_eq_self.mpr hpart, List.nil_append, List.append_nil]

/-- One item more for one of the keys is one item more in all. -/
theorem flatMap_append_perm {keys : List κ} (hnodup : keys.Nodup) {c : κ} (hc : c ∈ keys)
    (part : κ → List α) (x : α) :
    (keys.flatMap fun k => if k = c then part k ++ [x] else part k).Perm
      (keys.flatMap part ++ [x]) := by
  induction keys with
  | nil => exact absurd hc List.not_mem_nil
  | cons k keys ih =>
      obtain ⟨hfresh, hnodup⟩ := List.nodup_cons.mp hnodup
      rw [List.flatMap_cons, List.flatMap_cons]
      by_cases hk : k = c
      · subst hk
        have hrest : (keys.flatMap fun l => if l = k then part l ++ [x] else part l) =
            keys.flatMap part := by
          apply List.flatMap_congr
          intro l hl
          exact if_neg fun heq : l = k => hfresh (heq ▸ hl)
        rw [if_pos rfl, hrest, List.append_assoc, List.append_assoc]
        exact List.perm_append_comm.append_left _
      · have hc : c ∈ keys := (List.mem_cons.mp hc).resolve_left (Ne.symm hk)
        rw [if_neg hk, List.append_assoc]
        exact (ih hnodup hc).append_left _

end Wayfare
