import Wayfare.Numeric
import Wayfare.Proofs.Choice

/-! # Bounds in an order

Where all numbers are comparable, cutting a number off at a bound and taking the
least of some numbers are what they are in every linear order.
-/

namespace Wayfare

variable {α : Type}

theorem leastOf_mem [LT α] [DecidableLT α] (x : α) (xs : List α) : leastOf x xs ∈ x :: xs :=
  Choice.foldl_keep_mem (r := fun kept y => y < kept) x xs

variable [LinearOrder α]

theorem atLeast_eq_max (floor x : α) : atLeast floor x = max floor x := by
  rw [atLeast]
  split
  next habove => exact (max_eq_right habove.le).symm
  next hbelow => exact (max_eq_left (not_lt.mp hbelow)).symm

theorem atMost_eq_min (ceiling x : α) : atMost ceiling x = min ceiling x := by
  rw [atMost]
  split
  next hbelow => exact (min_eq_right hbelow.le).symm
  next habove => exact (min_eq_left (not_lt.mp habove)).symm

/-- The least of some numbers is not above any of them. -/
theorem leastOf_le {x y : α} {xs : List α} (hy : y ∈ x :: xs) : leastOf x xs ≤ y := by
  induction xs generalizing x y with
  | nil => exact (List.mem_singleton.mp hy).ge
  | cons z xs ih =>
      have hkept : leastOf x (z :: xs) = leastOf (min x z) xs := by
        rw [leastOf, List.foldl_cons, min_comm, min_def_lt]
        rfl
      rw [hkept]
      have hle : leastOf (min x z) xs ≤ min x z := ih List.mem_cons_self
      rcases List.mem_cons.mp hy with rfl | hy
      · exact hle.trans (min_le_left _ _)
      · rcases List.mem_cons.mp hy with rfl | hy
        · exact hle.trans (min_le_right _ _)
        · exact ih (List.mem_cons_of_mem _ hy)

end Wayfare
