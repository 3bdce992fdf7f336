import Mathlib.Algebra.BigOperators.Group.List.Basic
import Mathlib.Tactic.Abel
import Wayfare.Route.TwoOpt

/-! # Lengths of paths

Lengths that add up exactly can be taken apart where a path is cut: what is
lost is the leg across the cut. Read backwards a path is as long as before, so
the reversal of a stretch costs no more than the two legs at its ends.
-/

namespace Wayfare

variable {P α : Type}

theorem total_eq_sum [AddCommMonoid α] (xs : List α) : total xs = xs.sum :=
  List.sum_eq_foldl.symm

namespace Route

section

variable [AddCommMonoid α] (leg : P → P → α)

@[simp] theorem length_nil : length leg [] = 0 := by
  rw [length, total_eq_sum]
  rfl

@[simp] theorem length_singleton (a : P) : length leg [a] = 0 := by
  rw [length, total_eq_sum]
  rfl

theorem length_cons (a : P) (path : List P) :
    length leg (a :: path) = legOrZero leg (some a) path.head? + length leg path := by
  cases path with
  | nil => simp [legOrZero]
  | cons b rest =>
      rw [length, length, total_eq_sum, total_eq_sum]
      exact List.sum_cons

/-- A path is as long as its two parts and the leg from the one to the other. -/
theorem length_append (first second : List P) :
    length leg (first ++ second) =
      length leg first + legOrZero leg first.getLast? second.head? + length leg second := by
  induction first with
  | nil => simp [legOrZero]
  | cons a rest ih =>
      rw [List.cons_append, length_cons, length_cons, ih]
      cases rest with
      | nil => simp [legOrZero]
      | cons b rest =>
          rw [List.getLast?_cons_cons]
          simp only [List.cons_append, List.head?_cons, add_assoc]

variable {leg}

theorem legOrZero_comm (hsymm : ∀ a b, leg a b = leg b a) (a b : Option P) :
    legOrZero leg a b = legOrZero leg b a := by
  cases a <;> cases b <;> simp [legOrZero, hsymm]

/-- A path is as long backwards as forwards. -/
theorem length_reverse (hsymm : ∀ a b, leg a b = leg b a) (path : List P) :
    length leg path.reverse = length leg path := by
  induction path with
  | nil => rfl
  | cons a rest ih =>
      rw [List.reverse_cons, length_append, ih, length_singleton, length_cons leg a,
        List.getLast?_reverse, legOrZero_comm hsymm, add_zero, add_comm]
      rfl

/-! ## Reversals -/

/-- A path around a stretch: what comes before it, the stretch, and what comes after. -/
theorem take_append_stretch {i j : Nat} (hij : i ≤ j) (path : List P) :
    path.take i ++ (path.drop i).take (j + 1 - i) ++ path.drop (j + 1) = path := by
  rw [← List.take_add, Nat.add_sub_cancel' (by omega), List.take_append_drop]

theorem head?_stretch {i j : Nat} (hij : i ≤ j) (path : List P) :
    ((path.drop i).take (j + 1 - i)).head? = path[i]? := by
  rw [List.head?_take, if_neg (by omega), List.head?_drop]

theorem getLast?_stretch {i j : Nat} (hij : i ≤ j) {path : List P} (hj : j < path.length) :
    ((path.drop i).take (j + 1 - i)).getLast? = path[j]? := by
  rw [List.getLast?_take, if_neg (by omega), List.getElem?_drop]
  have hposition : i + (j + 1 - i - 1) = j := by omega
  rw [hposition, List.getElem?_eq_getElem hj]
  rfl

theorem getLast?_take_eq {i : Nat} {path : List P} (hi : i ≤ path.length) :
    (path.take i).getLast? = if i = 0 then none else path[i - 1]? := by
  rw [List.getLast?_take]
  split
  next => rfl
  next => rw [List.getElem?_eq_getElem (by omega)]; rfl

/-- A reversal exchanges the legs at the ends of its stretch, and nothing else. -/
theorem length_reverseBetween_add (hsymm : ∀ a b, leg a b = leg b a) {i j : Nat} (hij : i ≤ j)
    {path : List P} (hj : j < path.length) :
    length leg (reverseBetween i j path) + (endLegs leg path (i, j)).1 =
      length leg path + (endLegs leg path (i, j)).2 := by
  have hlength := congrArg (length leg) (take_append_stretch hij path)
  have hfirst := head?_stretch hij path
  have hlast := getLast?_stretch hij hj
  have hprevious := getLast?_take_eq (Nat.le_of_lt (Nat.lt_of_le_of_lt hij hj))
  have hnext : (path.drop (j + 1)).head? = path[j + 1]? := List.head?_drop
  rw [reverseBetween]
  generalize (path.drop i).take (j + 1 - i) = stretch at hlength hfirst hlast ⊢
  -- The stretch is not empty, so it decides which stops its neighbours meet.
  have hsome : stretch ≠ [] := by
    rintro rfl
    rw [List.getElem?_eq_getElem hj] at hlast
    cases hlast
  have hend : ∀ s : List P, s ≠ [] → (path.take i ++ s).getLast? = s.getLast? := by
    intro s hs
    rw [List.getLast?_append, List.getLast?_eq_some_getLast hs]
    rfl
  rw [← hlength, length_append, length_append, length_append, length_append,
    hend _ (List.reverse_ne_nil_iff.mpr hsome), hend _ hsome, length_reverse hsymm,
    List.head?_reverse, List.getLast?_reverse, hfirst, hlast, hprevious, hnext]
  simp only [endLegs]
  abel

end

end Route

end Wayfare
