import Mathlib.Algebra.Order.Group.Int
import Mathlib.Algebra.Order.Group.Unbundled.Basic
import Wayfare.Proofs.Route.Length
import Wayfare.Route.Strategy

/-! # Routes that are never longer

Lengths are exact here, and a leg back is as long as the leg there. Then what a
reversal saves at the ends of its stretch the whole path saves, and neither
reversals nor the choice between two orders can make a route longer.
-/

namespace Wayfare.Route

variable {P α : Type}

/-- The stretches of a path lie in it, and each ends after it begins. -/
theorem lt_of_mem_stretches {pins : Pins} {n : Nat} {stretch : Nat × Nat}
    (h : stretch ∈ stretches pins n) : stretch.1 < stretch.2 ∧ stretch.2 < n := by
  simp only [stretches, movable, List.mem_flatMap, List.mem_map, List.mem_range'_1] at h
  obtain ⟨i, hi, j, hj, rfl⟩ := h
  have hlast : (if pins.finish then n - 2 else n - 1) ≤ n - 1 := by split <;> omega
  omega

variable [AddCommGroup α] [LinearOrder α] [IsOrderedAddMonoid α]
variable {leg : P → P → α} {slack : α} {pins : Pins}

/-- A reversal shortens the whole path by as much as it saves at the ends of its stretch. -/
theorem length_reverseBetween_lt (hsymm : ∀ a b, leg a b = leg b a) {i j : Nat} (hij : i ≤ j)
    {path : List P} (hj : j < path.length)
    (h : (endLegs leg path (i, j)).2 < (endLegs leg path (i, j)).1 - slack) :
    length leg (reverseBetween i j path) < length leg path - slack := by
  apply lt_of_add_lt_add_right (a := (endLegs leg path (i, j)).1)
  calc length leg (reverseBetween i j path) + (endLegs leg path (i, j)).1
      = length leg path + (endLegs leg path (i, j)).2 := length_reverseBetween_add hsymm hij hj
    _ < length leg path + ((endLegs leg path (i, j)).1 - slack) := add_lt_add_right h _
    _ = length leg path - slack + (endLegs leg path (i, j)).1 := by abel

section Passes

variable (hsymm : ∀ a b, leg a b = leg b a) (hslack : 0 ≤ slack)
include hsymm hslack

/-- A pass keeps the number of stops and makes no path longer, and a path that it changes it makes
shorter. -/
theorem twoOptPass_shortens (path : List P) :
    (twoOptPass leg slack pins path).1.length = path.length ∧
      length leg (twoOptPass leg slack pins path).1 ≤ length leg path ∧
      ((twoOptPass leg slack pins path).2 = true →
        length leg (twoOptPass leg slack pins path).1 < length leg path) := by
  -- The stretches are those of the given path, so they fit as long as no stop is lost.
  apply List.foldlRecOn (motive := fun state : List P × Bool =>
    state.1.length = path.length ∧ length leg state.1 ≤ length leg path ∧
      (state.2 = true → length leg state.1 < length leg path))
  · exact ⟨rfl, le_rfl, nofun⟩
  · rintro state ⟨hstops, hlength, hchanged⟩ stretch hstretch
    obtain ⟨hlow, hhigh⟩ := lt_of_mem_stretches (List.mem_filter.mp hstretch).1
    rw [← hstops] at hhigh
    simp only [tryReversal]
    split
    next hshorter =>
      have hlt : length leg (reverseBetween stretch.1 stretch.2 state.1) < length leg path :=
        ((length_reverseBetween_lt hsymm hlow.le hhigh hshorter).trans_le
          (sub_le_self _ hslack)).trans_le hlength
      exact ⟨(length_reverseBetween (by omega) _).trans hstops, hlt.le, fun _ => hlt⟩
    next => exact ⟨hstops, hlength, hchanged⟩

theorem length_twoOptPass_le (path : List P) :
    length leg (twoOptPass leg slack pins path).1 ≤ length leg path :=
  (twoOptPass_shortens hsymm hslack path).2.1

theorem length_twoOptPasses_le (passes : Nat) (path : List P) :
    length leg (twoOptPasses leg slack pins passes path) ≤ length leg path := by
  induction passes generalizing path with
  | zero => exact le_rfl
  | succ passes ih =>
      have hpass : length leg (twoOptPass leg slack pins path).1 ≤ length leg path :=
        length_twoOptPass_le hsymm hslack path
      rw [twoOptPasses]
      split
      next improved heq =>
        rw [heq] at hpass
        exact (ih improved).trans hpass
      next same heq =>
        rw [heq] at hpass
        exact hpass

/-- Reversals never make a path longer. -/
theorem length_twoOpt_le (maxPasses : Int) (path : List P) :
    length leg (twoOpt leg slack pins maxPasses path) ≤ length leg path := by
  rw [twoOpt]
  split
  next => exact le_rfl
  next => exact length_twoOptPasses_le hsymm hslack _ path

end Passes

theorem length_distanceOrder_le {t : Terrain P α} (hslack : 0 ≤ t.slack) (pins : Pins)
    (maxPasses : Int) (stops : List P) :
    length t.leg (distanceOrder t pins maxPasses stops) ≤
      length t.leg (inputOrder t pins maxPasses stops) := by
  simp only [distanceOrder]
  split
  next hshorter => exact hshorter.le.trans (sub_le_self _ hslack)
  next => exact le_rfl

variable [Mul α] [IntCast α] [BEq α]

/-- Each of the two strategies by reversals has an order for every list, and it is no longer than the
list. -/
theorem exists_optimize_le {t : Terrain P α} {strategy : Strategy}
    (hstrategy : strategy = .distance ∨ strategy = .inputOrder)
    (hsymm : ∀ a b, t.leg a b = t.leg b a) (hslack : 0 ≤ t.slack) (pins : Pins)
    (maxPasses : Int) (stops : List P) :
    ∃ ordered, optimize t strategy pins maxPasses stops = .ok ordered ∧
      length t.leg ordered ≤ length t.leg stops := by
  rw [optimize]
  split
  next => exact ⟨stops, rfl, le_rfl⟩
  next =>
    have hreversals : length t.leg (inputOrder t pins maxPasses stops) ≤ length t.leg stops :=
      length_twoOpt_le hsymm hslack maxPasses stops
    rcases hstrategy with rfl | rfl
    · exact ⟨_, rfl, (length_distanceOrder_le hslack pins maxPasses stops).trans hreversals⟩
    · exact ⟨_, rfl, hreversals⟩

/-- With exact lengths that do not depend on the direction, the order by reversals is no longer than the
given one, and the choice between it and a walk is no longer than the order by reversals. -/
theorem optimize_never_longer {t : Terrain P α} (hsymm : ∀ a b, t.leg a b = t.leg b a)
    (hslack : 0 ≤ t.slack) (pins : Pins) (maxPasses : Int) (stops : List P) :
    ∃ byReversals shorter, optimize t .inputOrder pins maxPasses stops = .ok byReversals ∧
      optimize t .distance pins maxPasses stops = .ok shorter ∧
      length t.leg byReversals ≤ length t.leg stops ∧
      length t.leg shorter ≤ length t.leg byReversals ∧
      length t.leg shorter ≤ length t.leg stops := by
  rw [optimize, optimize]
  split
  next => exact ⟨stops, stops, rfl, rfl, le_rfl, le_rfl, le_rfl⟩
  next =>
    have hreversals : length t.leg (inputOrder t pins maxPasses stops) ≤ length t.leg stops :=
      length_twoOpt_le hsymm hslack maxPasses stops
    have hchoice := length_distanceOrder_le hslack pins maxPasses stops
    exact ⟨_, _, rfl, rfl, hreversals, hchoice, hchoice.trans hreversals⟩

/-- Stops on a line, given out of order and with the first of them pinned. -/
theorem optimize_never_longer_line :
    let t : Terrain Int Int :=
      { leg := fun a b => (a - b).natAbs
        slack := 0
        same := fun a b => a == b
        walkable := fun _ _ => false
        block := fun _ => .ok .morning
        minutes := .ok
        congestion := fun _ => 1
        congestedAbove := 1
        rating := fun _ => none
        keyWeight := fun _ => 0
        sameCategory := fun _ _ => true
        lengthWeight := 1
        timeWeight := 1
        preferenceWeight := 1
        switchCost := 1 }
    (∀ a b, t.leg a b = t.leg b a) ∧ 0 ≤ t.slack ∧
      ∃ shorter, optimize t .distance ⟨true, false⟩ 10 [0, 3, 1, 4, 2] = .ok shorter ∧
        length t.leg shorter ≤ 10 := by
  intro t
  have hsymm : ∀ a b, t.leg a b = t.leg b a := by
    intro a b
    change ((a - b).natAbs : Int) = (b - a).natAbs
    rw [← Int.natAbs_neg, neg_sub]
  have hslack : 0 ≤ t.slack := le_rfl
  obtain ⟨_, shorter, _, hshorter, _, _, hlength⟩ :=
    optimize_never_longer hsymm hslack ⟨true, false⟩ 10 [0, 3, 1, 4, 2]
  exact ⟨hsymm, hslack, shorter, hshorter, hlength.trans (by decide)⟩

end Wayfare.Route
