import Wayfare.Block
import Wayfare.Choice
import Wayfare.Ident
import Wayfare.RunSort

/-! # Beam search over a day

The blocks of a day are gone through in order. Each block leads past its fixed
places and then offers its options, of which one is picked; only the cheapest
partial days are kept for the next block.
-/

namespace Wayfare.Plan

variable {P α : Type}

/-- A partial day: the picks so far, the cost of the way past them, and where it ends. -/
structure Partial (P α : Type) where
  picks : List (Block × P)
  cost : α
  last : Option P

/-- What a block holds for the search: the places that are passed anyway, and the options to pick one
from; there are none if the block has no room. -/
structure Layer (P : Type) where
  block : Block
  fixed : List P
  options : List P

section

variable [Zero α] [Add α] [LT α] [DecidableLT α] [BEq α]

def Partial.advance (step : Option P → P → Result α) (s : Partial P α) (p : P) :
    Result (Partial P α) := do
  return { s with cost := s.cost + (← step s.last p), last := some p }

def Partial.pick (step : Option P → P → Result α) (b : Block) (s : Partial P α) (p : P) :
    Result (Partial P α) := do
  let s ← s.advance step p
  return { s with picks := s.picks ++ [(b, p)] }

def Partial.ids (id : P → Ident) (s : Partial P α) : List Ident :=
  s.picks.map fun q => id q.2

/-- Whether one partial day ranks before another: by cost, and at equal cost by its picks. -/
def Partial.before (id : P → Ident) (a b : Partial P α) : Bool :=
  if a.cost == b.cost then decide (a.ids id < b.ids id) else decide (a.cost < b.cost)

/-- Whether partial days can be ranked: of two with the same cost the picks can be ordered. -/
def areRankable (id : P → Ident) (days : List (Partial P α)) : Bool :=
  let picked := days.flatMap (·.ids id)
  picked.all Ident.isText || days.all fun a => days.all fun b =>
    !(a.cost == b.cost) || Ident.areOrdered (a.ids id) (b.ids id)

/-- Partial days by their rank. Among costs that are no numbers the outcome is that of sorting by
runs. -/
def inRank (id : P → Ident) (days : List (Partial P α)) : List (Partial P α) :=
  if days.all (fun s => s.cost == s.cost) || mergeLength ≤ days.length then
    days.mergeSort fun a b => !b.before id a
  else runSort (Partial.before id) days

def passFixed (step : Option P → P → Result α) (beam : List (Partial P α)) (p : P) :
    Result (List (Partial P α)) :=
  beam.mapM fun s => s.advance step p

/-- All continuations of the partial days by one option that they have not picked yet. -/
def expand (id : P → Ident) (step : Option P → P → Result α) (l : Layer P)
    (beam : List (Partial P α)) : Result (List (Partial P α)) := do
  let parts ← beam.mapM fun s =>
    (l.options.filter fun p => !(s.ids id).contains (id p)).mapM fun p => s.pick step l.block p
  return parts.flatten

/-- The beam after one more block: the cheapest continuations, or the same partial days when the block
offers nothing to pick. Continuations that cannot be ranked are a fault. -/
def nextBeam (id : P → Ident) (step : Option P → P → Result α) (width : Nat)
    (beam : List (Partial P α)) (l : Layer P) : Result (List (Partial P α)) := do
  let beam ← l.fixed.foldlM (passFixed step) beam
  let expanded ← expand id step l beam
  if expanded.isEmpty then return beam
  else if areRankable id expanded then return (inRank id expanded).take width
  else throw .wrongKind

/-- The cheapest partial day of the last beam. -/
def searchBeam (id : P → Ident) (step : Option P → P → Result α) (width : Int)
    (layers : List (Layer P)) : Result (Partial P α) := do
  let start : Partial P α := ⟨[], 0, none⟩
  let beam ← layers.foldlM (nextBeam id step (max 1 width).toNat) [start]
  match beam with
  | [] => return start
  | s :: rest => return (Choice.least (fun (t : Partial P α) => t.cost) s rest).best

end

end Wayfare.Plan
