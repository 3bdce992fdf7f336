import Mathlib.Data.List.Perm.Basic
import Mathlib.Order.Lattice
import Wayfare.Choice

/-! # What a choice chooses

The chosen member and the others are the list that was gone through, and no
member is smaller than the least; those before it are greater.
-/

namespace Wayfare.Choice

variable {P α : Type}

/-- The chosen member and the others are the whole list. -/
theorem best_cons_others_perm (better : P → P → Bool) (x : P) (rest : List P) :
    ((first better x rest).best :: (first better x rest).others).Perm (x :: rest) := by
  have hsplit := toList_first better x rest
  rw [toList] at hsplit
  rw [others, ← hsplit]
  exact List.perm_middle.symm

theorem best_mem (better : P → P → Bool) (x : P) (rest : List P) :
    (first better x rest).best ∈ x :: rest :=
  (best_cons_others_perm better x rest).mem_iff.mp List.mem_cons_self

/-- Choices are the same if they agree on the members of the list. -/
theorem foldl_congr {better better' : P → P → Bool} {items : List P}
    (h : ∀ a ∈ items, ∀ b ∈ items, better a b = better' a b) {rest : List P} (hrest : rest ⊆ items)
    {c : Choice P} (hc : c.best ∈ items) :
    rest.foldl (step better) c = rest.foldl (step better') c := by
  induction rest generalizing c with
  | nil => rfl
  | cons x rest ih =>
      obtain ⟨hx, hrest⟩ := List.cons_subset.mp hrest
      have hstep : step better c x = step better' c x := by
        rw [step, step, h x hx c.best hc]
      have hbest : (step better' c x).best ∈ items := by
        unfold step
        split
        · exact hx
        · exact hc
      rw [List.foldl_cons, List.foldl_cons, hstep, ih hrest hbest]

theorem first_congr {better better' : P → P → Bool} {x : P} {rest : List P}
    (h : ∀ a ∈ x :: rest, ∀ b ∈ x :: rest, better a b = better' a b) :
    first better x rest = first better' x rest :=
  foldl_congr h (List.subset_cons_self x rest) List.mem_cons_self

/-- What is kept while a list is gone through is one of its members. -/
theorem foldl_keep_mem {r : α → α → Prop} [DecidableRel r] (x : α) (rest : List α) :
    rest.foldl (fun kept y => if r kept y then y else kept) x ∈ x :: rest := by
  induction rest generalizing x with
  | nil => exact List.mem_singleton_self x
  | cons y rest ih =>
      rw [List.foldl_cons]
      split
      next => exact List.mem_cons_of_mem x (ih y)
      next => exact List.cons_subset_cons x (List.subset_cons_self y rest) (ih x)

section

variable [LinearOrder α]

theorem best_least_foldl_le (key : P → α) (rest : List P) (c : Choice P) :
    key (rest.foldl (step fun a b => decide (key a < key b)) c).best ≤ key c.best ∧
      ∀ x ∈ rest, key (rest.foldl (step fun a b => decide (key a < key b)) c).best ≤ key x := by
  induction rest generalizing c with
  | nil => exact ⟨le_rfl, List.forall_mem_nil _⟩
  | cons x rest ih =>
      obtain ⟨hbest, hrest⟩ := ih (step (fun a b => decide (key a < key b)) c x)
      have hstep : key (step (fun a b => decide (key a < key b)) c x).best ≤ key c.best ∧
          key (step (fun a b => decide (key a < key b)) c x).best ≤ key x := by
        unfold step
        split
        next hbetter => exact ⟨le_of_lt (of_decide_eq_true hbetter), le_rfl⟩
        next hworse => exact ⟨le_rfl, not_lt.mp fun h => hworse (decide_eq_true h)⟩
      rw [List.foldl_cons]
      exact ⟨le_trans hbest hstep.1, List.forall_mem_cons.mpr ⟨le_trans hbest hstep.2, hrest⟩⟩

/-- No member has a smaller key than the least. -/
theorem best_least_le (key : P → α) (x : P) (rest : List P) :
    ∀ y ∈ x :: rest, key (least key x rest).best ≤ key y :=
  List.forall_mem_cons.mpr (best_least_foldl_le key rest ⟨[], x, []⟩)

/-- Of equally small members the first is the least: those before it are greater. -/
theorem best_least_foldl_lt (key : P → α) (rest : List P) {c : Choice P}
    (hbefore : ∀ y ∈ c.before, key c.best < key y) (hafter : ∀ y ∈ c.after, key c.best ≤ key y) :
    ∀ y ∈ (rest.foldl (step fun a b => decide (key a < key b)) c).before,
      key (rest.foldl (step fun a b => decide (key a < key b)) c).best < key y := by
  induction rest generalizing c with
  | nil => exact hbefore
  | cons x rest ih =>
      rw [List.foldl_cons]
      unfold step
      split
      next hbetter =>
        have hlt : key x < key c.best := of_decide_eq_true hbetter
        refine ih ?_ (List.forall_mem_nil _)
        intro y hy
        obtain hy | hy := List.mem_append.mp hy
        · exact hlt.trans (hbefore y hy)
        · obtain rfl | hy := List.mem_cons.mp hy
          · exact hlt
          · exact hlt.trans_le (hafter y hy)
      next hworse =>
        have hle : key c.best ≤ key x := not_lt.mp fun h => hworse (decide_eq_true h)
        refine ih hbefore ?_
        intro y hy
        obtain hy | hy := List.mem_append.mp hy
        · exact hafter y hy
        · rwa [List.mem_singleton.mp hy]

theorem best_least_lt (key : P → α) (x : P) (rest : List P) :
    ∀ y ∈ (least key x rest).before, key (least key x rest).best < key y :=
  best_least_foldl_lt key rest (List.forall_mem_nil _) (List.forall_mem_nil _)

end

end Wayfare.Choice
