import Wayfare.Choice
import Wayfare.Numeric
import Wayfare.Place

/-! # Clusters

Stops are grouped by closeness: each goes to the nearest of some centres, each
centre moves to the mean of its group, and so on until nothing changes or no
centre moves far. A stop whose position is not known belongs to no cluster.
-/

namespace Wayfare.Cluster

variable {P α : Type}

/-- A group of stops and its centre. -/
structure Group (P α : Type) where
  members : List P
  centre : Point α

/-- The groups of some stops, and the stops that belong to none. -/
structure Assignment (P α : Type) where
  groups : List (Group P α) := []
  iterations : Nat := 0
  converged : Bool := true
  unclustered : List P := []

/-- How stops are grouped. -/
structure Clusterer (P α : Type) where
  /-- The position of a stop, if it is known. -/
  position : P → Option (Point α)
  gap : Point α → Point α → α
  maxIterations : Int
  /-- Centres that move less than this are taken to have settled. -/
  tolerance : α
  /-- The first centres for some points. -/
  seeds : List (Point α) → Nat → Result (List (Point α))

section

variable [Zero α] [Add α] [Div α] [LT α] [DecidableLT α] [NatCast α]

/-- The mean of some points, if there are any. -/
def meanOf (points : List (Point α)) : Option (Point α) :=
  if points.isEmpty then none
  else
    some ⟨total (points.map (·.lat)) / (points.length : α),
      total (points.map (·.lon)) / (points.length : α)⟩

/-- The position in a list of the centre that is nearest to a point; of equally near ones the first. -/
def nearest (gap : Point α → Point α → α) (centres : List (Point α)) (p : Point α) : Nat :=
  match centres.zipIdx with
  | [] => 0
  | c :: rest => (Choice.least (fun (q : Point α × Nat) => gap p q.1) c rest).best.2

/-- The members of a list whose label is a given number. -/
def labelled {Q : Type} (labels : List Nat) (c : Nat) (items : List Q) : List Q :=
  ((items.zip labels).filter fun q => q.2 == c).map (·.1)

/-- The centres of the groups that labels form; an empty group keeps its centre. -/
def recentre (points : List (Point α)) (labels : List Nat) (centres : List (Point α)) :
    List (Point α) :=
  centres.zipIdx.map fun (old, c) => (meanOf (labelled labels c points)).getD old

def farthestMove (gap : Point α → Point α → α) (old new : List (Point α)) : α :=
  match (old.zip new).map fun (a, b) => gap a b with
  | [] => 0
  | d :: ds => ds.foldl (fun most x => if most < x then x else most) d

/-- Labels and centres after some rounds. -/
structure Rounds (α : Type) where
  labels : List Nat
  centres : List (Point α)
  count : Nat
  converged : Bool

/-- Rounds of assignment and centring until nothing changes or no centre moves far, but at most so
many. -/
def rounds (gap : Point α → Point α → α) (tolerance : α) (points : List (Point α)) :
    Nat → Nat → Option (List Nat) → List (Point α) → Rounds α
  | 0, count, labels, centres => ⟨labels.getD [], centres, count, false⟩
  | left + 1, count, labels, centres =>
      let newLabels := points.map (nearest gap centres)
      let newCentres := recentre points newLabels centres
      -- The last round counts as a whole: its centres are used even when the labels stayed.
      if labels == some newLabels || farthestMove gap centres newCentres < tolerance then
        ⟨newLabels, newCentres, count + 1, true⟩
      else rounds gap tolerance points left (count + 1) (some newLabels) newCentres

/-- The stops whose position is known, with their positions. -/
def located (position : P → Option (Point α)) (stops : List P) : List (P × Point α) :=
  stops.filterMap fun p => (position p).map fun at_ => (p, at_)

/-- Every stop with a position in a group of its own. -/
def apart (position : P → Option (Point α)) (stops : List P) : Assignment P α where
  groups := (located position stops).map fun (p, at_) => ⟨[p], at_⟩
  unclustered := stops.filter fun p => (position p).isNone

/-- The groups that labels form of some stops, without the empty ones. -/
def groupsOf (stops : List P) (final : Rounds α) : List (Group P α) :=
  (final.centres.zipIdx.map fun (centre, i) =>
    ({ members := labelled final.labels i stops, centre := centre } : Group P α)).filter
      fun g => !g.members.isEmpty

/-- Groups stops around at most `k` centres, at least one. No more stops than centres are left apart. -/
def cluster (c : Clusterer P α) (stops : List P) (k : Int) : Result (Assignment P α) := do
  let k := (max 1 k).toNat
  let whole := located c.position stops
  if whole.length ≤ k then return apart c.position stops
  else
    let points := whole.map (·.2)
    let seeds ← c.seeds points k
    let final := rounds c.gap c.tolerance points (max 1 c.maxIterations).toNat 0 none seeds
    return {
      groups := groupsOf (whole.map (·.1)) final
      iterations := final.count
      converged := final.converged
      unclustered := stops.filter fun p => (c.position p).isNone }

/-- How many groups are asked for by a number that need not be whole: at least one, and as many as there
are stops by any number that is not below theirs. Nothing is asked of a value when there is no stop. -/
def groupCount (stops : Nat) (k : Value) : Result Int := do
  if stops = 0 then return 1
  match ← k.asNumber with
  | .int n => return n
  | .real x =>
      if ¬ 1.0 < x then return 1
      else if Float.ofNat stops ≤ x then return Int.ofNat stops
      else throw .wrongKind

end

/-- Puts something on the day with the fewest stops; of equal days the first. -/
def ontoLightest (days : List (List P)) (members : List P) : List (List P) :=
  match days.zipIdx with
  | [] => []
  | d :: rest =>
      let lightest := (Choice.least (fun (q : List P × Nat) => q.1.length) d rest).best.2
      days.modify lightest (· ++ members)

/-- Shares groups out among days, the largest group first, each onto the lightest day. -/
def shareOut (numDays : Nat) (groups : List (List P)) : List (List P) :=
  let sorted := groups.mergeSort fun a b => decide (b.length ≤ a.length)
  sorted.foldl ontoLightest (List.replicate (max 1 numDays) [])

end Wayfare.Cluster
