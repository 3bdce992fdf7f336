import Mathlib.Data.Rat.Floor
import Wayfare.Proofs.Cluster.Clustering
import Wayfare.Proofs.Number
import Wayfare.Proofs.Plan.Outcome

/-! # Orders by clusters

Stops that are too many for one cluster are taken cluster by cluster. The walk
over the centres comes to every group once, and the walk within a group to all
its members before it goes on; so the members of a group stand together. No
group is without members, so there always is a closest one to enter a group at.
-/

namespace Wayfare

open Wayfare.Cluster Wayfare.Route

variable {P α : Type}

namespace Cluster

/-- In an order the members of each group stand together, the groups follow one another in any order but
each once, and last comes what is in no group. -/
def Assignment.ClusterMajor (a : Assignment P α) (ordered : List P) : Prop :=
  ∃ visits : List (Group P α × List P), (visits.map (·.1)).Perm a.groups ∧
    (∀ v ∈ visits, v.2.Perm v.1.members) ∧ ordered = visits.flatMap (·.2) ++ a.unclustered

/-- Such an order has what the groups and what is in none of them have together. -/
theorem Assignment.ClusterMajor.perm {a : Assignment P α} {stops ordered : List P}
    (h : a.ClusterMajor ordered) (hall : a.Partitions stops) : ordered.Perm stops := by
  obtain ⟨visits, hgroups, hmembers, rfl⟩ := h
  have hvisits : (visits.flatMap (·.2)).Perm (visits.flatMap fun v => v.1.members) :=
    List.Perm.flatMap_left _ hmembers
  have hgrouped := hgroups.flatMap_right fun g => g.members
  rw [List.flatMap_map] at hgrouped
  exact ((hvisits.trans hgrouped).append_right _).trans hall

/-- No group is empty, and in none of them are the stops without a position, as they were given. -/
structure Assignment.Proper (a : Assignment P α) (position : P → Option (Point α)) (stops : List P) :
    Prop where
  ne_nil : ∀ g ∈ a.groups, g.members ≠ []
  unclustered_eq : a.unclustered = stops.filter fun p => (position p).isNone

theorem proper_apart (position : P → Option (Point α)) (stops : List P) :
    (apart position stops).Proper position stops where
  ne_nil g hg := by
    obtain ⟨⟨p, at_⟩, _, rfl⟩ := List.mem_map.mp hg
    exact List.cons_ne_nil p []
  unclustered_eq := rfl

theorem proper_cluster [Zero α] [Add α] [Div α] [LT α] [DecidableLT α] [NatCast α]
    {c : Clusterer P α} {stops : List P} {k : Int} {a : Assignment P α}
    (h : cluster c stops k = .ok a) : a.Proper c.position stops := by
  obtain ⟨-, rfl⟩ | ⟨-, seeds, -, rfl⟩ := cluster_eq_ok h
  · exact proper_apart c.position stops
  · refine ⟨fun g hg => ?_, rfl⟩
    obtain ⟨_, _, _, hne⟩ := exists_of_mem_groupsOf hg
    exact hne

end Cluster

namespace Plan

section

variable [LT α] [DecidableLT α]

/-! ## Visits -/

/-- The closest of some stops. There is none of no stops. -/
def closest? (leg : P → P → α) (from_ : P) : List P → Result (Choice P)
  | [] => .error .emptyChoice
  | x :: rest => .ok (Choice.least (leg from_) x rest)

/-- The walk over the members of a group, from the one that is closest to the stop before it. -/
def enter (leg : P → P → α) (members : List P) : Option P → Result (List P)
  | none => .ok (walk leg members)
  | some e => do
      let choice ← closest? leg e members
      return choice.best :: walkFrom leg choice.best choice.others

/-- The members of groups one group after the other, where it is a fault to enter a group that has no
closest member. -/
def enterGroups (leg : P → P → α) (entry : Option P) : List (Group P α) → Result (List P)
  | [] => .ok []
  | g :: rest => do
      let members ← enter leg g.members entry
      return members ++ (← enterGroups leg (members.getLast?.or entry) rest)

theorem enter_eq_ok (leg : P → P → α) {members : List P} (h : members ≠ []) (entry : Option P) :
    enter leg members entry =
      .ok (match entry with
        | some e => walkFrom leg e members
        | none => walk leg members) := by
  cases entry with
  | none => rfl
  | some e =>
      obtain ⟨x, rest, rfl⟩ := List.exists_cons_of_ne_nil h
      have hwalk : walkFrom leg e (x :: rest) =
          (Choice.least (leg e) x rest).best ::
            walkFrom leg (Choice.least (leg e) x rest).best (Choice.least (leg e) x rest).others := by
        conv_lhs => rw [walkFrom]
      dsimp only
      rw [enter, closest?, Result.ok_bind, hwalk]
      rfl

/-- Every group with members can be entered. -/
theorem enterGroups_eq_ok (leg : P → P → α) (entry : Option P) {groups : List (Group P α)}
    (h : ∀ g ∈ groups, g.members ≠ []) :
    enterGroups leg entry groups = .ok (walkGroups leg entry groups) := by
  induction groups generalizing entry with
  | nil => rfl
  | cons g rest ih =>
      obtain ⟨hg, hrest⟩ := List.forall_mem_cons.mp h
      rw [enterGroups, enter_eq_ok leg hg, Result.ok_bind, ih _ hrest, Result.ok_bind]
      rfl

theorem exists_visits (leg : P → P → α) (entry : Option P) (groups : List (Group P α)) :
    ∃ visits : List (Group P α × List P), visits.map (·.1) = groups ∧
      (∀ v ∈ visits, v.2.Perm v.1.members) ∧
      walkGroups leg entry groups = visits.flatMap (·.2) := by
  -- Where a group is entered depends on the one before it, whatever its members are.
  induction groups generalizing entry with
  | nil => exact ⟨[], rfl, List.forall_mem_nil _, rfl⟩
  | cons g rest ih =>
      obtain ⟨members, hmembers, heq⟩ : ∃ members, members.Perm g.members ∧
          walkGroups leg entry (g :: rest) =
            members ++ walkGroups leg (members.getLast?.or entry) rest := by
        cases entry with
        | none => exact ⟨_, walk_perm leg g.members, rfl⟩
        | some e => exact ⟨_, walkFrom_perm leg e g.members, rfl⟩
      obtain ⟨visits, hgroups, hvisits, hrest⟩ := ih (members.getLast?.or entry)
      refine ⟨(g, members) :: visits, ?_, ?_, ?_⟩
      · rw [List.map_cons, hgroups]
      · exact List.forall_mem_cons.mpr ⟨hmembers, hvisits⟩
      · rw [heq, hrest, List.flatMap_cons]

theorem clusterMajor_walkGroups (leg : P → P → α) (gap : Point α → Point α → α) (entry : Option P)
    (start : Option (Point α)) (a : Assignment P α) :
    a.ClusterMajor (walkGroups leg entry (groupsInOrder gap start a.groups) ++ a.unclustered) := by
  obtain ⟨visits, hgroups, hvisits, heq⟩ := exists_visits leg entry (groupsInOrder gap start a.groups)
  refine ⟨visits, ?_, hvisits, by rw [heq]⟩
  rw [hgroups]
  exact groupsInOrder_perm gap start a.groups

end

/-! ## How many clusters -/

/-- There are as many clusters as it takes for so many stops in each. -/
theorem clusterCount_eq_ceil {perCluster : Int} (hpos : 0 < perCluster) (n : Nat) :
    clusterCount (.int perCluster) n = ⌈(n : ℚ) / perCluster⌉ := by
  have hcast : (0 : ℚ) < perCluster := by exact_mod_cast hpos
  have hlow := Int.mul_ediv_self_le (x := n + perCluster - 1) hpos.ne'
  have hhigh := Int.lt_mul_ediv_self_add (x := n + perCluster - 1) hpos
  rw [clusterCount, eq_comm, Int.ceil_eq_iff, lt_div_iff₀ hcast, div_le_iff₀ hcast]
  simp only [Int.ofNat_eq_natCast]
  generalize (n + perCluster - 1) / perCluster = count at hlow hhigh
  constructor
  · have hlt : (count - 1) * perCluster < n := by linarith
    exact_mod_cast hlt
  · have hle : (n : Int) ≤ count * perCluster := by linarith
    exact_mod_cast hle

/-! ## Orders -/

/-- A short list stays as it is. A longer one is taken cluster by cluster. -/
theorem orderByClusters_eq_ok [Zero α] [Add α] [LT α] [DecidableLT α] {r : Router P α}
    {perCluster : Int} (hper : r.stopsPerCluster = .int perCluster) (hpos : 1 ≤ perCluster)
    {stops : List P} {start : Option P} {ordered : List P}
    (h : orderByClusters r stops start = .ok ordered) :
    (stops.length ≤ perCluster ∧ ordered = stops) ∨
      perCluster < stops.length ∧
        ∃ a, r.cluster stops ⌈(stops.length : ℚ) / perCluster⌉ = .ok a ∧
          ordered = walkGroups r.leg start
            (groupsInOrder r.gap (start.bind r.position) a.groups) ++ a.unclustered := by
  rw [orderByClusters, hper, Number.atLeast_int, max_eq_right hpos] at h
  split at h
  next hfew =>
    rw [Result.pure_eq_ok] at h
    exact .inl ⟨Number.int_le_int.mp hfew, h.symm⟩
  next hmany =>
    obtain ⟨a, ha, h⟩ := Result.bind_eq_ok.mp h
    rw [Result.pure_eq_ok] at h
    rw [clusterCount_eq_ceil hpos] at ha
    exact .inr ⟨not_le.mp (mt Number.int_le_int.mpr hmany), a, ha, h.symm⟩

theorem exists_orderByClusters_of_cluster [Zero α] [Add α] [LT α] [DecidableLT α] {r : Router P α}
    {perCluster : Int} (hper : r.stopsPerCluster = .int perCluster) (hpos : 1 ≤ perCluster)
    {stops : List P} (start : Option P) (h : stops.length ≤ perCluster ∨
      ∃ a, r.cluster stops ⌈(stops.length : ℚ) / perCluster⌉ = .ok a) :
    ∃ ordered, orderByClusters r stops start = .ok ordered := by
  rw [orderByClusters, hper, Number.atLeast_int, max_eq_right hpos]
  split
  next => exact ⟨_, rfl⟩
  next hmany =>
    rw [clusterCount_eq_ceil hpos]
    exact Result.exists_bind_eq_ok (h.resolve_left (mt Number.int_le_int.mpr hmany))
      fun _ _ => ⟨_, rfl⟩

theorem proper_clusterOptions {s : Settings} {o : ClusterOptions} {stops : List Stop} {k : Int}
    {a : Assignment Stop Float} (h : o.cluster s stops k = .ok a) :
    a.Proper (fun q => q.place.location) stops := by
  simp only [ClusterOptions.cluster] at h
  split at h
  next =>
    rw [Result.pure_eq_ok] at h
    subst h
    exact proper_apart _ stops
  next =>
    obtain ⟨_, h⟩ := Result.guard_eq_ok.mp h
    obtain ⟨c, hc, h⟩ := Result.bind_eq_ok.mp h
    obtain ⟨seed, iterations, tolerance, rfl⟩ := clusterer_eq_ok hc
    exact proper_cluster h

namespace Planner

variable {s : Settings} {p : Planner} {stops : List Stop} {start : Option Stop}

theorem orderStops_eq_ok {ordered : List Stop} (h : p.orderStops s stops start = .ok ordered) :
    orderByClusters (p.router s) stops start = .ok ordered := by
  simp only [orderStops] at h
  split at h
  next => exact (Result.guard_eq_ok.mp h).2
  next => exact h

/-- Where stops are ordered, the start is asked for its position only if there are clusters to walk. -/
theorem orderStops_eq {perCluster : Int} (hper : p.placesPerCluster = .int perCluster)
    (h : stops.length ≤ perCluster ∨ ∀ a, start = some a →
      a.place.isLocated = true → a.place.isMeasurable = true) :
    p.orderStops s stops start = orderByClusters (p.router s) stops start := by
  simp only [orderStops]
  split
  next hmany =>
    rw [Bool.and_eq_true, decide_eq_true_eq, hper, Number.int_lt_int] at hmany
    have hstart := h.resolve_left (not_le.mpr hmany.1)
    have hmeasurable : (start.any fun a => a.place.isLocated && !a.place.isMeasurable) = false := by
      cases start with
      | none => rfl
      | some a =>
          rw [Option.any_some]
          cases hlocated : a.place.isLocated with
          | false => rfl
          | true => rw [hstart a rfl hlocated]; rfl
    rw [hmeasurable]
    rfl
  next => rfl

/-- The clusters of stops can be worked out: the positions are numbers, the options can be read, and
where first centres are drawn at random the distances have weights. -/
structure Groupable (s : Settings) (p : Planner) (stops : List Stop) (start : Option Stop) : Prop where
  measurable : ∀ a ∈ stops, a.place.isLocated = true → a.place.isMeasurable = true
  start : ∀ a, start = some a → a.place.isLocated = true → a.place.isMeasurable = true
  clusterer : ∃ c, p.clusters.clusterer s = .ok c
  length_le : stops.length ≤ 2 ^ 52
  weighs : p.clusters.seeding = .plusPlus →
    (Seeding.Measure.onGlobe s.earthRadius).Weighs (stops.filterMap fun a => a.place.location)

theorem Groupable.exists_cluster (h : p.Groupable s stops start) (k : Int) :
    ∃ a, p.clusterMeasured s stops k = .ok a := by
  obtain ⟨c, hc⟩ := h.clusterer
  have hseeds : ∀ k, 0 < k → k < (stops.filterMap fun a => a.place.location).length →
      ∃ centres, c.seeds (stops.filterMap fun a => a.place.location) k = .ok centres := by
    obtain ⟨seed, iterations, tolerance, rfl⟩ := clusterer_eq_ok hc
    intro k _ hk
    exact Seeding.exists_centres ((List.length_filterMap_le _ _).trans h.length_le) hk h.weighs
  have hany : stops.any (fun a => a.place.isLocated && !a.place.isMeasurable) = false := by
    rw [List.any_eq_false]
    intro a ha
    cases hlocated : a.place.isLocated with
    | false => simp
    | true => simp [h.measurable a ha hlocated]
  obtain ⟨a, ha⟩ := exists_clusterOptions hc h.measurable hseeds k
  exact ⟨a, Result.guard_eq_ok.mpr ⟨by simp [hany], ha⟩⟩

/-- Stops that are no more than one cluster holds stay as they are. More of them are ordered cluster by
cluster, those without a position last; no cluster is empty, so that every one of them can be entered at
its closest member. -/
theorem orderStops_clusterMajor (s : Settings) (p : Planner) (stops : List Stop)
    (start : Option Stop) {perCluster : Int} (hper : p.placesPerCluster = .int perCluster)
    (hpos : 1 ≤ perCluster) :
    (stops.length ≤ perCluster ∨ p.Groupable s stops start →
      ∃ ordered, p.orderStops s stops start = .ok ordered) ∧
    ∀ ordered, p.orderStops s stops start = .ok ordered →
      ordered.Perm stops ∧ (stops.length ≤ perCluster → ordered = stops) ∧
        (perCluster < stops.length → ∃ a walked,
          p.clusters.cluster s stops ⌈(stops.length : ℚ) / perCluster⌉ = .ok a ∧
          a.ClusterMajor ordered ∧ a.Proper (fun q => q.place.location) stops ∧
          ordered = walked ++ a.unclustered ∧
          enterGroups (Stop.distance s) start (groupsInOrder (Geo.greatCircle s.earthRadius)
            (start.bind fun q => q.place.location) a.groups) = .ok walked) := by
  refine ⟨?_, fun ordered h => ?_⟩
  · intro h
    rw [orderStops_eq hper (h.imp_right Groupable.start)]
    exact exists_orderByClusters_of_cluster hper hpos start
      (h.imp_right fun hgroup => hgroup.exists_cluster _)
  · obtain ⟨hfew, rfl⟩ | ⟨hmany, a, ha, rfl⟩ := orderByClusters_eq_ok hper hpos (orderStops_eq_ok h)
    · exact ⟨.refl _, fun _ => rfl, fun hmany => absurd hfew (not_le.mpr hmany)⟩
    · obtain ⟨-, ha⟩ := Result.guard_eq_ok.mp ha
      have hmajor := clusterMajor_walkGroups (p.router s).leg (p.router s).gap start
        (start.bind (p.router s).position) a
      have hproper := proper_clusterOptions ha
      refine ⟨hmajor.perm (partitions_clusterOptions ha),
        fun hfew => absurd hfew (not_le.mpr hmany),
        fun _ => ⟨a, _, ha, hmajor, hproper, rfl, enterGroups_eq_ok _ _ ?_⟩⟩
      intro g hg
      exact hproper.ne_nil g ((groupsInOrder_perm _ _ _).mem_iff.mp hg)

/-- Four stops, one of them without a position, and two to a cluster. -/
theorem orderStops_clusterMajor_pairs :
    let p : Planner :=
      { clusters := ⟨.spread, .int 42, .int 100, .real 0.001⟩
        routes := ⟨.balanced, .text "car", .int 10, .int 90⟩
        capacity := .int 2
        placesPerCluster := .int 2
        selection := .rank
        beamWidth := .int 3 }
    let stop (visit : Nat) (latitude : Value) : Stop :=
      ⟨visit, { id := .int visit, name := .null, latitude := latitude, longitude := .real 2.0 }⟩
    let stops := [stop 0 (.real 48.0), stop 1 .null, stop 2 (.real 49.0), stop 3 (.real 48.0)]
    (2 : Int) < stops.length ∧
      ∃ ordered, p.orderStops {} stops (some (stop 9 (.real 47.0))) = .ok ordered ∧
        ordered.Perm stops ∧ ∃ a, p.clusters.cluster {} stops ⌈((4 : Nat) : ℚ) / (2 : Int)⌉ = .ok a ∧
          a.ClusterMajor ordered ∧ a.unclustered = [stop 1 .null] := by
  intro p stop stops
  obtain ⟨hexists, horder⟩ := orderStops_clusterMajor {} p stops (some (stop 9 (.real 47.0)))
    (show p.placesPerCluster = .int 2 from rfl) (by decide)
  have hgroup : p.Groupable {} stops (some (stop 9 (.real 47.0))) :=
    { measurable := by
        intro a ha hlocated
        simp only [stops, List.mem_cons, List.not_mem_nil, or_false] at ha
        rcases ha with rfl | rfl | rfl | rfl
        · rfl
        · cases hlocated
        · rfl
        · rfl
      start := fun a ha _ => Option.some.inj ha ▸ rfl
      clusterer := ⟨_, rfl⟩
      length_le := by decide
      weighs := fun h => by cases h }
  obtain ⟨ordered, hordered⟩ := hexists (.inr hgroup)
  obtain ⟨hperm, -, hmajor⟩ := horder ordered hordered
  obtain ⟨a, walked, ha, hmajor, hproper, -⟩ := hmajor (by decide)
  exact ⟨by decide, ordered, hordered, hperm, a, ha, hmajor, hproper.unclustered_eq⟩

end Planner

end Plan

end Wayfare
