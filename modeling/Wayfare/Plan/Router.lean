import Wayfare.Cluster.KMeans
import Wayfare.Route.Annotated
import Wayfare.Route.Insertion
import Wayfare.Route.Nearest

/-! # Routing a day

The flexible stops of a day are taken cluster by cluster and put in order. The
sites of bookings are fixed: they stay in their order, and every flexible stop
goes where between them it costs the smallest detour.
-/

namespace Wayfare.Plan

open Wayfare.Cluster Wayfare.Route

variable {P α : Type}

/-- What the routing of a day depends on. -/
structure Router (P α : Type) where
  leg : P → P → α
  /-- By how much a detour has to be smaller than another to be taken. -/
  slack : α
  /-- The position of a stop, if it is known. -/
  position : P → Option (Point α)
  gap : Point α → Point α → α
  /-- Groups stops around so many centres. -/
  cluster : List P → Int → Result (Assignment P α)
  /-- Puts the stops of a path in order; pinned ends stay. -/
  arrange : Pins → List P → Result (List P)
  /-- Up to this number of stops a day is not clustered. -/
  stopsPerCluster : Number

section

variable [Zero α] [Add α] [LT α] [DecidableLT α]

/-- The groups in the order of a nearest-neighbour walk over their centres. It sets out from the
position of the start, or from the first centre when there is no such position. -/
def groupsInOrder (gap : Point α → Point α → α) (start : Option (Point α))
    (groups : List (Group P α)) : List (Group P α) :=
  match start, groups with
  | _, [] => []
  | some from_, _ => walkFrom (fun g h => gap g.centre h.centre) ⟨[], from_⟩ groups
  | none, first :: _ =>
      walkFrom (fun g h => gap g.centre h.centre) ⟨[], first.centre⟩ groups

/-- The members of groups one group after the other, each group walked from the stop before it. -/
def walkGroups (leg : P → P → α) (entry : Option P) : List (Group P α) → List P
  | [] => []
  | g :: rest =>
      let members :=
        match entry with
        | some e => walkFrom leg e g.members
        | none => walk leg g.members
      -- A group without members leaves the entry as it was.
      members ++ walkGroups leg (members.getLast?.or entry) rest

def clusterCount (perCluster : Number) (n : Nat) : Int :=
  match perCluster with
  | .int m => (Int.ofNat n + m - 1) / m
  | .real x => (Decimal.ceiling? (Float.ofNat n / x)).getD 1

/-- The stops cluster by cluster, those without a position last; few stops stay as they are. -/
def orderByClusters (r : Router P α) (stops : List P) (start : Option P) : Result (List P) := do
  let perCluster := atLeast (.int 1) r.stopsPerCluster
  if Number.int (Int.ofNat stops.length) ≤ perCluster then return stops
  else
    let assignment ← r.cluster stops (clusterCount perCluster stops.length)
    let groups := groupsInOrder r.gap (start.bind r.position) assignment.groups
    return walkGroups r.leg start groups ++ assignment.unclustered

/-- The stops of a stretch without its fixed ends, in order. -/
def stretchOrder (r : Router P α) (s : Stretch P) : Result (List P) := do
  let ordered ← r.arrange s.pins s.path
  let inner := if s.start.isSome then ordered.drop 1 else ordered
  return if s.finish.isSome then inner.dropLast else inner

variable [Sub α] [BEq α]

/-- The stretches of a day with every flexible stop put where it costs the smallest detour. -/
def stretchesWith (r : Router P α) (anchors flexible : List P) : List (Stretch P) :=
  flexible.foldl (insertStop r.leg r.slack) (stretchesBetween none anchors)

/-- The order of a day with fixed stops. -/
def orderWithAnchors (r : Router P α) (anchors flexible : List P) : Result (List P) := do
  let parts ← (stretchesWith r anchors flexible).mapM fun s => do
    return s.start.toList ++ (← stretchOrder r s)
  return parts.flatten

/-- The order of a day without fixed stops. If the clusters lead to a longer path than the given order,
the given order is improved instead. -/
def orderFreely (r : Router P α) (flexible clustered : List P) : Result (List P) := do
  let ordered ← r.arrange {} clustered
  if length r.leg flexible < length r.leg ordered then r.arrange {} flexible
  else return ordered

/-- The visiting order of a day. -/
def orderDay (r : Router P α) (anchors flexible : List P) : Result (List P) := do
  let clustered ← orderByClusters r flexible anchors.head?
  if anchors.isEmpty then orderFreely r flexible clustered
  else orderWithAnchors r anchors clustered

variable [One α] [Div α] [NatCast α] [IntCast α]

/-- The route of a day, measured against the order in which its stops were given. The meter is asked for
once the order stands. -/
def routeDay (r : Router P α) (meter : Result (Meter P α)) (day : Value)
    (anchors flexible : List P) : Result (Annotated P α) := do
  let ordered ← orderDay r anchors flexible
  annotate (← meter) day (some (length r.leg (anchors ++ flexible))) ordered

end

end Wayfare.Plan
