import Wayfare.Route.CostModel
import Wayfare.Route.Insertion
import Wayfare.Route.Nearest

/-! # Route strategies

Four ways to put a day's stops in order. None claims to find the best order;
each keeps the stops that it is given and the ends that are pinned.
-/

namespace Wayfare.Route

variable {P α : Type}

/-- A way to put stops in order. -/
inductive Strategy where
  /-- Reversals of the given order and of a nearest-neighbour walk, whichever is shorter. -/
  | distance
  /-- Reversals of the given order. -/
  | inputOrder
  /-- By the blocks of the day, each walked by congested travel time. -/
  | time
  /-- A key stop for each block and the others inserted, under the balanced cost. -/
  | balanced
  deriving DecidableEq, Repr

namespace Strategy

def all : List Strategy :=
  [distance, inputOrder, time, balanced]

def name : Strategy → String
  | distance => "distance"
  | inputOrder => "input_order"
  | time => "time"
  | balanced => "balanced"

def ofName? (s : String) : Option Strategy :=
  all.find? (·.name == s)

end Strategy

/-- The pinned first stop, the stops between, and the pinned last stop. -/
def splitPinned (pins : Pins) (stops : List P) : List P × List P × List P :=
  let head := if pins.start then stops.take 1 else []
  let tail :=
    if pins.finish && head.length < stops.length then stops.drop (stops.length - 1) else []
  (head, (stops.drop head.length).take (stops.length - head.length - tail.length), tail)

/-- The stops of each block that has some, in the order of the day. -/
def byBlock (block : P → Block) (stops : List P) : List (Block × List P) :=
  (Block.all.map fun b => (b, stops.filter fun p => block p == b)).filter fun g => !g.2.isEmpty

/-- The stops without those that are the same as an earlier one. -/
def distinct (same : P → P → Bool) : List P → List P
  | [] => []
  | x :: rest => x :: distinct same (rest.filter fun y => !same x y)
termination_by stops => stops.length
decreasing_by
  simp only [List.length_unattach, List.length_cons, Nat.lt_succ_iff]
  exact Nat.le_trans (List.length_filter_le _ _) (by simp)

/-- Groups of stops: each group is the first stop that is left with those left in its walking
distance. -/
def walkableGroups (walkable : P → P → Bool) : List P → List (List P)
  | [] => []
  | x :: rest =>
      (x :: rest.filter (walkable x)) ::
        walkableGroups walkable (rest.filter fun y => !walkable x y)
termination_by stops => stops.length
decreasing_by
  simp only [List.length_unattach, List.length_cons, Nat.lt_succ_iff]
  exact Nat.le_trans (List.length_filter_le _ _) (by simp)

section

variable [Zero α] [Add α] [Sub α] [LT α] [DecidableLT α] [BEq α]

/-- The nearest-neighbour walk from the first stop, with a pinned last stop kept last. -/
def walkSeed (leg : P → P → α) (pins : Pins) (stops : List P) : List P :=
  if pins.finish && 1 < stops.length then
    walk leg stops.dropLast ++ stops.drop (stops.length - 1)
  else walk leg stops

/-- The order by reversals of the given order. -/
def inputOrder (t : Terrain P α) (pins : Pins) (maxPasses : Int) (stops : List P) : List P :=
  twoOpt t.leg t.slack pins maxPasses stops

/-- The order by reversals of the given order or of a nearest-neighbour walk. -/
def distanceOrder (t : Terrain P α) (pins : Pins) (maxPasses : Int) (stops : List P) : List P :=
  let fromInput := inputOrder t pins maxPasses stops
  let fromWalk := inputOrder t pins maxPasses (walkSeed t.leg pins stops)
  if length t.leg fromWalk < length t.leg fromInput - t.slack then fromWalk else fromInput

variable [Mul α] [IntCast α]

/-- The order of one block: a congested one is walked group by group. -/
def blockOrder (t : Terrain P α) (cost : P → P → α) (b : Block) (stops : List P) : List P :=
  if t.congestedAbove < t.congestion b then
    (walkableGroups t.walkable (distinct t.same stops)).flatMap (walk cost)
  else walk cost stops

/-- The order by the blocks of the day. -/
def timeOrder (t : Terrain P α) (pins : Pins) (stops : List P) : Result (List P) := do
  let model ← CostModel.build t stops
  let (head, middle, tail) := splitPinned pins stops
  let blocks ← middle.mapM fun p => do return (p, ← t.block p)
  let groups := byBlock (fun p => p.2) blocks
  let ordered := groups.flatMap fun (b, group) =>
    blockOrder t (CostModel.timeCost t model) b (group.map (·.1))
  return head ++ ordered ++ tail

/-- The stop of a group that deserves to be visited first. -/
def keyStop? (t : Terrain P α) : List P → Option P
  | [] => none
  | x :: rest => some (Choice.greatest t.keyWeight x rest).best

/-- The order by key stops and insertion, unless the given order costs no more. -/
def balancedOrder (t : Terrain P α) (pins : Pins) (maxPasses : Int) (stops : List P) :
    Result (List P) := do
  let model ← CostModel.build t stops
  let cost := CostModel.balancedCost t model
  let (head, middle, tail) := splitPinned pins stops
  let blocks ← middle.mapM fun p => do return (p, ← t.block p)
  let keys := (byBlock (fun p => p.2) blocks).filterMap fun g => keyStop? t (g.2.map (·.1))
  let others := middle.filter fun p => !keys.any fun k => t.same k p
  let seed := others.foldl
    (fun path p => insertCheapest cost t.slack head.length (path.length - tail.length) path p)
    (head ++ keys ++ tail)
  let improved := twoOptByCost cost t.slack pins maxPasses seed
  if length cost improved < length cost stops - t.slack then return improved else return stops

/-- The stops in the order of a strategy. -/
def order (t : Terrain P α) (strategy : Strategy) (pins : Pins) (maxPasses : Int)
    (stops : List P) : Result (List P) :=
  match strategy with
  | .distance => .ok (distanceOrder t pins maxPasses stops)
  | .inputOrder => .ok (inputOrder t pins maxPasses stops)
  | .time => timeOrder t pins stops
  | .balanced => balancedOrder t pins maxPasses stops

/-- The stops in the order of a strategy; two stops or fewer stay as they are. -/
def optimize (t : Terrain P α) (strategy : Strategy) (pins : Pins) (maxPasses : Int)
    (stops : List P) : Result (List P) :=
  if stops.length ≤ 2 then .ok stops else order t strategy pins maxPasses stops

end

end Wayfare.Route
