import Mathlib.Data.List.InsertIdx
import Mathlib.Data.List.Perm.Basic
import Wayfare.Plan.Beam
import Wayfare.Score

/-! # What sorting keeps

Whatever the comparison, sorting by runs only moves items about. So a ranking
has what was ranked, also where costs or scores are no numbers.
-/

namespace Wayfare

section

variable {P : Type} (less : P → P → Bool)

theorem takeRun_append (continues : P → P → Bool) (last : P) (items : List P) :
    (takeRun continues last items).1 ++ (takeRun continues last items).2 = items := by
  induction items generalizing last with
  | nil => rfl
  | cons x rest ih =>
      rw [takeRun]
      split
      next => exact congrArg (x :: ·) (ih x)
      next => rfl

theorem leadingRun_perm (items : List P) :
    ((leadingRun less items).1 ++ (leadingRun less items).2).Perm items := by
  unfold leadingRun
  split
  next x y rest =>
    have hrun : ∀ continues, x :: y :: (takeRun continues y rest).1 ++
        (takeRun continues y rest).2 = x :: y :: rest := by
      intro continues
      exact congrArg (x :: y :: ·) (takeRun_append continues y rest)
    split
    next =>
      refine ((List.reverse_perm _).append_right _).trans ?_
      rw [hrun]
    next => rw [hrun]
  next => rw [List.append_nil]

theorem insertPosition_le {sorted : List P} {x : P} {low high : Nat} (hlow : low ≤ high)
    (hhigh : high ≤ sorted.length) : insertPosition less sorted x low high ≤ sorted.length := by
  fun_induction insertPosition less sorted x low high with
  | case1 => omega
  | case2 _ _ _ _ _ _ _ ih => exact ih (by omega) (by omega)
  | case3 _ _ _ _ _ _ _ ih => exact ih (by omega) hhigh
  | case4 => omega

theorem insertByHalves_perm (sorted : List P) (x : P) :
    (insertByHalves less sorted x).Perm (x :: sorted) :=
  List.perm_insertIdx _ _ (insertPosition_le less (Nat.zero_le _) (Nat.le_refl _))

theorem foldl_insertByHalves_perm (sorted rest : List P) :
    (rest.foldl (insertByHalves less) sorted).Perm (sorted ++ rest) := by
  induction rest generalizing sorted with
  | nil => rw [List.append_nil]; rfl
  | cons x rest ih =>
      refine (ih (insertByHalves less sorted x)).trans ?_
      exact ((insertByHalves_perm less sorted x).append_right rest).trans List.perm_middle.symm

/-- Sorting by runs only moves items about. -/
theorem runSort_perm (items : List P) : (runSort less items).Perm items :=
  (foldl_insertByHalves_perm less _ _).trans (leadingRun_perm less items)

end

namespace Score

variable {P α : Type} [LT α] [DecidableLT α] [BEq α]

theorem ranked_perm (scores : List (Breakdown P α)) : (ranked scores).Perm scores := by
  rw [ranked]
  split
  next => exact List.mergeSort_perm scores _
  next =>
    exact (List.reverse_perm _).trans ((runSort_perm _ _).trans (List.reverse_perm scores))

end Score

namespace Plan

variable {P α : Type} [LT α] [DecidableLT α] [BEq α]

theorem inRank_perm (id : P → Ident) (days : List (Partial P α)) : (inRank id days).Perm days := by
  rw [inRank]
  split
  next => exact List.mergeSort_perm days _
  next => exact runSort_perm _ days

end Plan

end Wayfare
