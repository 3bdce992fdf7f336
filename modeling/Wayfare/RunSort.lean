/-! # Sorting by a comparison that need not be an order

Costs and scores can be real numbers that stand for none, and such numbers are
neither above nor below anything. A comparison of them is no order, and then the
outcome of sorting is that of one procedure: the run at the front is kept, or
turned round if it falls, and every later item is put by halving the part that
is sorted already.
-/

namespace Wayfare

variable {P : Type}

/-- The items that go on with a run, and those after it. -/
def takeRun (continues : P → P → Bool) (last : P) : List P → List P × List P
  | [] => ([], [])
  | x :: rest =>
      if continues last x then
        let (run, after) := takeRun continues x rest
        (x :: run, after)
      else ([], x :: rest)

/-- The run at the front of a list in rising order, and what follows it. A run falls if its second item
is less than its first. -/
def leadingRun (less : P → P → Bool) : List P → List P × List P
  | x :: y :: rest =>
      if less y x then
        let (run, after) := takeRun (fun a b => less b a) y rest
        ((x :: y :: run).reverse, after)
      else
        let (run, after) := takeRun (fun a b => !less b a) y rest
        (x :: y :: run, after)
  | short => (short, [])

/-- Where an item is put among sorted ones between two positions: the part between them is halved until
nothing is left of it. -/
def insertPosition (less : P → P → Bool) (sorted : List P) (x : P) (low high : Nat) : Nat :=
  if low < high then
    let middle := low + (high - low) / 2
    match sorted[middle]? with
    | none => low
    | some y =>
        if less x y then insertPosition less sorted x low middle
        else insertPosition less sorted x (middle + 1) high
  else low
termination_by high - low

def insertByHalves (less : P → P → Bool) (sorted : List P) (x : P) : List P :=
  sorted.insertIdx (insertPosition less sorted x 0 sorted.length) x

/-- A list sorted by its leading run and by insertion of the rest. -/
def runSort (less : P → P → Bool) (items : List P) : List P :=
  let (run, rest) := leadingRun less items
  rest.foldl (insertByHalves less) run

/-- The length from which a list is sorted by merging. -/
def mergeLength : Nat := 64

end Wayfare
