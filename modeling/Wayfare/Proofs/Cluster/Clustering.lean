import Mathlib.Algebra.Order.BigOperators.Group.List
import Wayfare.Proofs.Cluster.FirstCentres

/-! # Clusters of any stops

Stops are always grouped. The groups have each stop with a position once, in the
order given, and none of them is empty; there are no more of them than are asked
for. The number of a group is its place in the list of groups.
-/

namespace Wayfare.Cluster

variable {P α : Type}

/-- A true partition of the stops with a position, into at most so many groups after at most so many
rounds. -/
structure Clustered (position : P → Option (Point α)) (k maxIterations : Int) (stops : List P)
    (a : Assignment P α) : Prop where
  unclustered_eq : a.unclustered = stops.filter fun p => (position p).isNone
  members_perm : (a.groups.flatMap (·.members)).Perm (stops.filter fun p => (position p).isSome)
  sublist : ∀ g ∈ a.groups, g.members.Sublist stops
  ne_nil : ∀ g ∈ a.groups, g.members ≠ []
  length_le : a.groups.length ≤ min (max 1 k).toNat (stops.filter fun p => (position p).isSome).length
  some_group : (stops.filter fun p => (position p).isSome) ≠ [] → a.groups ≠ []
  singletons : ((stops.filter fun p => (position p).isSome).length : Int) ≤ k →
    a.groups.map (·.members) = (stops.filter fun p => (position p).isSome).map fun p => [p]
  iterations_le : (a.iterations : Int) ≤ max 1 maxIterations

/-! ## Groups -/

/-- Parts that are not empty are no more than what they have together. -/
theorem length_le_length_flatMap {groups : List (Group P α)} (h : ∀ g ∈ groups, g.members ≠ []) :
    groups.length ≤ (groups.flatMap (·.members)).length := by
  rw [List.length_flatMap, ← List.length_map (fun g : Group P α => g.members.length)]
  refine List.length_le_sum_of_one_le _ fun n hn => ?_
  obtain ⟨g, hg, rfl⟩ := List.mem_map.mp hn
  exact List.length_pos_iff.mpr (h g hg)

theorem groupsOf_eq (stops : List P) (final : Rounds α) : groupsOf stops final =
    (final.centres.zipIdx.filter fun c => !(labelled final.labels c.2 stops).isEmpty).map
      fun c => ⟨labelled final.labels c.2 stops, c.1⟩ := by
  rw [groupsOf, List.filter_map]
  rfl

/-- A group has what is labelled with the number of its centre, and keeps the order of the centres. -/
theorem exists_of_getElem?_groupsOf {stops : List P} {final : Rounds α} {i : Nat} {g : Group P α}
    (h : (groupsOf stops final)[i]? = some g) :
    ∃ c, final.centres[c]? = some g.centre ∧ g.members = labelled final.labels c stops ∧
      g.members ≠ [] ∧ ∀ j h', j < i → (groupsOf stops final)[j]? = some h' →
        ∃ d < c, final.centres[d]? = some h'.centre ∧ h'.members = labelled final.labels d stops := by
  have hordered : (final.centres.zipIdx.filter
      fun c => !(labelled final.labels c.2 stops).isEmpty).Pairwise fun a b => a.2 < b.2 := by
    refine List.Pairwise.filter _ (List.pairwise_map.mp ?_)
    rw [List.zipIdx_map_snd]
    exact List.pairwise_lt_range'
  rw [groupsOf_eq, List.getElem?_map, Option.map_eq_some_iff] at h
  obtain ⟨⟨centre, c⟩, hc, rfl⟩ := h
  obtain ⟨hmem, hne⟩ := List.mem_filter.mp (List.mem_of_getElem? hc)
  refine ⟨c, List.mk_mem_zipIdx_iff_getElem?.mp hmem, rfl, by simpa using hne, fun j h' hj hh' => ?_⟩
  rw [groupsOf_eq, List.getElem?_map, Option.map_eq_some_iff] at hh'
  obtain ⟨⟨centre', d⟩, hd, rfl⟩ := hh'
  obtain ⟨hmem', _⟩ := List.mem_filter.mp (List.mem_of_getElem? hd)
  refine ⟨d, ?_, List.mk_mem_zipIdx_iff_getElem?.mp hmem', rfl⟩
  obtain ⟨hi, heq⟩ := List.getElem?_eq_some_iff.mp hc
  obtain ⟨hj', heq'⟩ := List.getElem?_eq_some_iff.mp hd
  have hlt := List.pairwise_iff_getElem.mp hordered j i hj' hi hj
  rwa [heq, heq'] at hlt

theorem exists_of_mem_groupsOf {stops : List P} {final : Rounds α} {g : Group P α}
    (h : g ∈ groupsOf stops final) :
    ∃ c, final.centres[c]? = some g.centre ∧ g.members = labelled final.labels c stops ∧
      g.members ≠ [] := by
  obtain ⟨i, hi⟩ := List.mem_iff_getElem?.mp h
  obtain ⟨c, hcentre, hmembers, hne, -⟩ := exists_of_getElem?_groupsOf hi
  exact ⟨c, hcentre, hmembers, hne⟩

theorem length_groupsOf_le (stops : List P) (final : Rounds α) :
    (groupsOf stops final).length ≤ final.centres.length := by
  refine (List.length_filter_le _ _).trans ?_
  rw [List.length_map, List.length_zipIdx]

section

variable [Zero α] [Add α] [Div α] [LT α] [DecidableLT α] [NatCast α]

/-- Rounds keep the number of centres and are counted. -/
theorem rounds_length_count (gap : Point α → Point α → α) (tolerance : α) (points : List (Point α))
    (left count : Nat) (labels : Option (List Nat)) (centres : List (Point α)) :
    let final := rounds gap tolerance points left count labels centres
    final.centres.length = centres.length ∧ final.count ≤ count + left := by
  induction left generalizing count labels centres with
  | zero => exact ⟨rfl, le_rfl⟩
  | succ left ih =>
      have hlength := length_recentre points (points.map (nearest gap centres)) centres
      simp only [rounds]
      split
      next => exact ⟨hlength, Nat.add_le_add_left (Nat.le_add_left 1 left) count⟩
      next =>
        obtain ⟨hcentres, hcount⟩ := ih (count + 1) (some (points.map (nearest gap centres)))
          (recentre points (points.map (nearest gap centres)) centres)
        exact ⟨hcentres.trans hlength, by omega⟩

omit [Zero α] [Add α] [Div α] [LT α] [DecidableLT α] [NatCast α] in
theorem members_apart (position : P → Option (Point α)) (stops : List P) :
    (apart position stops).groups.map (·.members) =
      (stops.filter fun p => (position p).isSome).map fun p => [p] := by
  rw [apart, List.map_map, ← map_fst_located, List.map_map]
  rfl

omit [Zero α] [Add α] [Div α] [LT α] [DecidableLT α] [NatCast α] in
theorem clustered_apart {position : P → Option (Point α)} {k : Int} (maxIterations : Int)
    {stops : List P} (hfew : (stops.filterMap position).length ≤ (max 1 k).toNat) :
    Clustered position k maxIterations stops (apart position stops) := by
  have hmembers := members_apart position stops
  have hlength := congrArg List.length hmembers
  rw [List.length_map, List.length_map] at hlength
  rw [length_filterMap_position] at hfew
  have hsingle : ∀ g ∈ (apart position stops).groups, ∃ p ∈ stops, g.members = [p] := by
    intro g hg
    have hmem := List.mem_map_of_mem (f := (·.members)) hg
    rw [hmembers] at hmem
    obtain ⟨p, hp, heq⟩ := List.mem_map.mp hmem
    exact ⟨p, List.mem_of_mem_filter hp, heq.symm⟩
  refine ⟨rfl, ?_, ?_, ?_, ?_, ?_, fun _ => hmembers, by simp [apart]⟩
  · rw [List.flatMap_def, hmembers, ← List.flatMap_def, List.flatMap_singleton']
  · intro g hg
    obtain ⟨p, hp, heq⟩ := hsingle g hg
    rw [heq]
    exact List.singleton_sublist.mpr hp
  · intro g hg
    obtain ⟨p, _, heq⟩ := hsingle g hg
    rw [heq]
    exact List.cons_ne_nil _ _
  · omega
  · intro hsome
    rwa [← List.length_pos_iff, hlength, List.length_pos_iff]

omit [Zero α] [Add α] [Div α] [LT α] [DecidableLT α] [NatCast α] in
theorem clustered_grouped {position : P → Option (Point α)} {k maxIterations : Int} {stops : List P}
    {final : Rounds α} (hmany : (max 1 k).toNat < (stops.filterMap position).length)
    (hlabels : Labels final.labels (stops.filterMap position) final.centres)
    (hcentres : final.centres.length ≤ (max 1 k).toNat)
    (hcount : final.count ≤ (max 1 maxIterations).toNat) :
    Clustered position k maxIterations stops (grouped position stops final) := by
  obtain ⟨hlength, hlabels⟩ := hlabels
  rw [length_filterMap_position] at hmany hlength
  have hperm := flatMap_groupsOf_perm hlength hlabels
  have hne : ∀ g ∈ (grouped position stops final).groups, g.members ≠ [] := by
    intro g hg
    obtain ⟨_, _, _, hne⟩ := exists_of_mem_groupsOf hg
    exact hne
  refine ⟨rfl, hperm, ?_, hne, le_min ?_ ?_, ?_, ?_, ?_⟩
  · intro g hg
    obtain ⟨i, _, hmembers, _⟩ := exists_of_mem_groupsOf hg
    rw [hmembers]
    exact (labelled_sublist hlength.ge i).trans List.filter_sublist
  · exact (length_groupsOf_le _ final).trans hcentres
  · exact (length_le_length_flatMap hne).trans hperm.length_eq.le
  · intro hsome hnone
    rw [show (grouped position stops final).groups = groupsOf _ final from rfl] at hnone
    rw [hnone] at hperm
    exact hsome hperm.symm.eq_nil
  · intro hfew
    omega
  · have hcount : ((grouped position stops final).iterations : Int) ≤ _ := Int.ofNat_le.mpr hcount
    omega

end

/-- Stops are grouped, in either way of choosing first centres, and the groups are a true partition. No
memory holds a list of more stops than the bound, up to which positions are exact numbers; the distances
by which points are drawn have to have weights. -/
theorem cluster_true_partition (m : Seeding.Measure) (position : P → Option (Point Float))
    (seeding : Seeding) (seed maxIterations : Int) (tolerance : Float) (stops : List P) (k : Int)
    (hlength : stops.length ≤ 2 ^ 52)
    (hweighs : seeding = .plusPlus → m.Weighs (stops.filterMap position)) :
    ∃ a, cluster (measuredBy m position seeding seed maxIterations tolerance) stops k = .ok a ∧
      Clustered position k maxIterations stops a := by
  have hpoints : (stops.filterMap position).length ≤ 2 ^ 52 :=
    (List.length_filterMap_le _ _).trans hlength
  obtain ⟨a, ha⟩ := exists_cluster
    (c := measuredBy m position seeding seed maxIterations tolerance)
    (fun _ _ hmany => Seeding.exists_centres hpoints hmany hweighs) k
  refine ⟨a, ha, ?_⟩
  obtain ⟨hfew, rfl⟩ | ⟨hmany, seeds, hseeds, rfl⟩ := cluster_eq_ok ha
  · exact clustered_apart maxIterations hfew
  have hsome := Seeding.centres_ne_nil (List.length_pos_iff.mp (by omega)) (by omega) hseeds
  have hfirst := Seeding.length_centres_le (by omega) hseeds
  have hnone : ∀ known, none = some known → Labels known (stops.filterMap position) seeds :=
    fun _ heq => by cases heq
  have hlabels := labels_rounds m.gap tolerance 0 hsome hnone
    (.inl (by omega : 0 < (max 1 maxIterations).toNat))
  obtain ⟨hcentres, hcount⟩ := rounds_length_count m.gap tolerance (stops.filterMap position)
    (max 1 maxIterations).toNat 0 none seeds
  rw [Nat.zero_add] at hcount
  exact clustered_grouped hmany hlabels (hcentres.le.trans hfirst) hcount

/-- Distances between points of one meridian, and their squares. -/
def Seeding.Measure.onMeridian : Seeding.Measure where
  gap p q := (p.lat - q.lat).abs * 111.19492664455873
  weigh x := .ok (x * x)

/-- Three stops on a meridian, two of them at one place, and one whose position is not known. -/
theorem cluster_true_partition_meridian :
    ∃ a, cluster (measuredBy .onMeridian id .plusPlus 42 25 0.01)
        [some ⟨0.0, 10.0⟩, none, some ⟨0.0, 10.0⟩, some ⟨1.0, 10.0⟩] 2 = .ok a ∧
      Clustered id 2 25 [some ⟨0.0, 10.0⟩, none, some ⟨0.0, 10.0⟩, some ⟨1.0, 10.0⟩] a := by
  refine cluster_true_partition .onMeridian id .plusPlus 42 25 0.01 _ 2 (by decide) fun _ => ?_
  have hweights : ∀ p ∈ ([⟨0.0, 10.0⟩, ⟨0.0, 10.0⟩, ⟨1.0, 10.0⟩] : List (Point Float)),
      ∀ q ∈ ([⟨0.0, 10.0⟩, ⟨0.0, 10.0⟩, ⟨1.0, 10.0⟩] : List (Point Float)),
        0.0 ≤ Seeding.Measure.onMeridian.gap p q * Seeding.Measure.onMeridian.gap p q ∧
          Seeding.Measure.onMeridian.gap p q * Seeding.Measure.onMeridian.gap p q ≤
            Seeding.heaviest := by
    decide +kernel
  exact fun p hp q hq => ⟨_, rfl, hweights p hp q hq⟩

end Wayfare.Cluster
