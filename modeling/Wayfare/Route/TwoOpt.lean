import Wayfare.Route.Path

/-! # Reversals

A path is improved by reversing a stretch of it as long as that makes it
shorter. Only the two legs at the ends of the stretch change, when a leg back
is as long as the leg there; for costs that depend on the direction the whole
path is counted again.
-/

namespace Wayfare.Route

variable {P α : Type}

/-- The path with the stretch from position `i` to position `j` reversed. -/
def reverseBetween (i j : Nat) (path : List P) : List P :=
  path.take i ++ ((path.drop i).take (j + 1 - i)).reverse ++ path.drop (j + 1)

/-- A reversal keeps all stops, if the stretch does not end before it begins. -/
theorem reverseBetween_perm {i j : Nat} (h : i ≤ j + 1) (path : List P) :
    (reverseBetween i j path).Perm path := by
  have hsplit : path.take i ++ (path.drop i).take (j + 1 - i) ++ path.drop (j + 1) = path := by
    rw [← List.take_add, Nat.add_sub_cancel' h, List.take_append_drop]
  have hperm := ((List.Perm.refl (path.take i)).append
    (List.reverse_perm ((path.drop i).take (j + 1 - i)))).append
    (List.Perm.refl (path.drop (j + 1)))
  rwa [hsplit] at hperm

theorem length_reverseBetween {i j : Nat} (h : i ≤ j + 1) (path : List P) :
    (reverseBetween i j path).length = path.length :=
  (reverseBetween_perm h path).length_eq

/-- The positions of the first and the last stop that may move in a path of `n` stops. -/
def movable (pins : Pins) (n : Nat) : Nat × Nat :=
  (if pins.start then 1 else 0, if pins.finish then n - 2 else n - 1)

/-- The stretches that may be reversed in a path of `n` stops, as pairs of positions. -/
def stretches (pins : Pins) (n : Nat) : List (Nat × Nat) :=
  let (low, high) := movable pins n
  (List.range' low (high - low)).flatMap fun i =>
    (List.range' (i + 1) (high - i)).map fun j => (i, j)

/-- A stretch is proper unless it is the whole path, whose reversal is as long as the path. -/
def isProper (n : Nat) (stretch : Nat × Nat) : Bool :=
  !(stretch.1 == 0 && stretch.2 == n - 1)

variable [Zero α] [Add α] [Sub α] [LT α] [DecidableLT α]

/-- The length of a leg whose ends need not exist. -/
def legOrZero (leg : P → P → α) (a b : Option P) : α :=
  match a, b with
  | some a, some b => leg a b
  | _, _ => 0

/-- The lengths of the two legs at the ends of a stretch, before and after its reversal. -/
def endLegs (leg : P → P → α) (path : List P) (stretch : Nat × Nat) : α × α :=
  let (i, j) := stretch
  let previous := if i = 0 then none else path[i - 1]?
  let first := path[i]?
  let last := path[j]?
  let next := path[j + 1]?
  (legOrZero leg previous first + legOrZero leg last next,
   legOrZero leg previous last + legOrZero leg first next)

/-- Reverses a stretch if that makes the path shorter by more than the slack. The flag tells whether
any stretch was reversed so far. -/
def tryReversal (leg : P → P → α) (slack : α) (state : List P × Bool) (stretch : Nat × Nat) :
    List P × Bool :=
  let (before, after) := endLegs leg state.1 stretch
  if after < before - slack then (reverseBetween stretch.1 stretch.2 state.1, true) else state

def twoOptPass (leg : P → P → α) (slack : α) (pins : Pins) (path : List P) : List P × Bool :=
  ((stretches pins path.length).filter (isProper path.length)).foldl (tryReversal leg slack)
    (path, false)

/-- Passes until one finds nothing to reverse, but at most so many. -/
def twoOptPasses (leg : P → P → α) (slack : α) (pins : Pins) : Nat → List P → List P
  | 0, path => path
  | passes + 1, path =>
      match twoOptPass leg slack pins path with
      | (path, true) => twoOptPasses leg slack pins passes path
      | (path, false) => path

/-- Improves a path by reversals, with at least one pass. Paths of two stops or fewer stay. -/
def twoOpt (leg : P → P → α) (slack : α) (pins : Pins) (maxPasses : Int) (path : List P) : List P :=
  if path.length ≤ 2 then path else twoOptPasses leg slack pins (max 1 maxPasses).toNat path

/-- A path that is being improved under a cost of its own, with that cost. -/
structure Costed (P α : Type) where
  path : List P
  cost : α
  improved : Bool

/-- Reverses a stretch if that lowers the cost of the whole path by more than the slack. -/
def tryCostly (cost : P → P → α) (slack : α) (state : Costed P α) (stretch : Nat × Nat) :
    Costed P α :=
  let candidate := reverseBetween stretch.1 stretch.2 state.path
  let c := length cost candidate
  if c < state.cost - slack then ⟨candidate, c, true⟩ else state

/-- Passes over all stretches until one finds nothing to reverse, but at most so many. -/
def twoOptCostlyPasses (cost : P → P → α) (slack : α) (pins : Pins) :
    Nat → Costed P α → Costed P α
  | 0, state => state
  | passes + 1, state =>
      let next := (stretches pins state.path.length).foldl (tryCostly cost slack)
        { state with improved := false }
      if next.improved then twoOptCostlyPasses cost slack pins passes next else next

/-- Improves a path by reversals under a cost that may depend on the direction. -/
def twoOptByCost (cost : P → P → α) (slack : α) (pins : Pins) (maxPasses : Int) (path : List P) :
    List P :=
  if path.length ≤ 2 then path
  else
    (twoOptCostlyPasses cost slack pins (max 1 maxPasses).toNat
      ⟨path, length cost path, false⟩).path

end Wayfare.Route
