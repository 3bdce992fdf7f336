import Mathlib.Data.List.Sublists
import Wayfare.Proofs.Choice
import Wayfare.Proofs.Cluster.Clustering

/-! # Where rounds end

After every round the centres are the means of the groups that the labels form.
A round that changes no label changes no centre either, so a run that ends in
one leaves each stop with the centre nearest to it.
-/

namespace Wayfare.Cluster

variable {P Q α β : Type}

/-! ## The nearest centre -/

theorem getElem?_zipIdx_of_getElem? {items : List Q} {i : Nat} {x : Q} (h : items[i]? = some x) :
    items.zipIdx[i]? = some (x, i) := by
  rw [List.getElem?_zipIdx, h, Option.map_some, Nat.zero_add]

theorem exists_of_getElem?_zipIdx {items : List Q} {i : Nat} {pair : Q × Nat}
    (h : items.zipIdx[i]? = some pair) : ∃ x, items[i]? = some x ∧ pair = (x, i) := by
  rw [List.getElem?_zipIdx, Option.map_eq_some_iff, Nat.zero_add] at h
  obtain ⟨x, hx, rfl⟩ := h
  exact ⟨x, hx, rfl⟩

section

variable [LT α] [DecidableLT α] [LinearOrder β]

/-- The nearest centre is the first of those at the least distance. Distances are compared by a rank, which
they need not have beyond the given centres. -/
theorem nearest_spec {gap : Point α → Point α → α} {centres : List (Point α)} {p : Point α} {rank : α → β}
    (hrank : ∀ c ∈ centres, ∀ d ∈ centres, gap p c < gap p d ↔ rank (gap p c) < rank (gap p d))
    (h : centres ≠ []) :
    ∃ c, centres[nearest gap centres p]? = some c ∧
      ∀ (j : Nat) d, centres[j]? = some d → rank (gap p c) ≤ rank (gap p d) ∧
        (rank (gap p d) = rank (gap p c) → nearest gap centres p ≤ j) := by
  rw [nearest]
  split
  next hnone => exact absurd (List.zipIdx_eq_nil_iff.mp hnone) h
  next first rest hsome =>
    have hbetter : ∀ a ∈ first :: rest, ∀ b ∈ first :: rest,
        decide (gap p a.1 < gap p b.1) = decide (rank (gap p a.1) < rank (gap p b.1)) := by
      intro a ha b hb
      rw [← hsome] at ha hb
      exact decide_eq_decide.mpr
        (hrank _ (List.fst_mem_of_mem_zipIdx ha) _ (List.fst_mem_of_mem_zipIdx hb))
    rw [show Choice.least (fun q : Point α × Nat => gap p q.1) first rest =
        Choice.least (fun q => rank (gap p q.1)) first rest from Choice.first_congr hbetter]
    have hsplit := Choice.toList_first
      (fun a b : Point α × Nat => decide (rank (gap p a.1) < rank (gap p b.1))) first rest
    have hle := Choice.best_least_le (fun q : Point α × Nat => rank (gap p q.1)) first rest
    have hlt := Choice.best_least_lt (fun q : Point α × Nat => rank (gap p q.1)) first rest
    rw [← hsome] at hsplit hle
    change (Choice.least (fun q : Point α × Nat => rank (gap p q.1)) first rest).toList = _ at hsplit
    generalize Choice.least (fun q : Point α × Nat => rank (gap p q.1)) first rest = choice at *
    -- What is chosen is paired with its position, which is the number of those before it.
    have hbest : centres.zipIdx[choice.before.length]? = some choice.best := by
      rw [← hsplit, Choice.toList, List.getElem?_append_right le_rfl, Nat.sub_self,
        List.getElem?_cons_zero]
    obtain ⟨c, hc, heq⟩ := exists_of_getElem?_zipIdx hbest
    rw [heq]
    refine ⟨c, hc, fun j d hd => ⟨?_, fun htie => ?_⟩⟩
    · have := hle (d, j) (List.mk_mem_zipIdx_iff_getElem?.mpr hd)
      rwa [heq] at this
    · by_contra! hj
      have hbefore : (d, j) ∈ choice.before := by
        have hget : centres.zipIdx[j]? = some (d, j) := getElem?_zipIdx_of_getElem? hd
        rw [← hsplit, Choice.toList, List.getElem?_append_left hj] at hget
        exact List.mem_of_getElem? hget
      have := hlt (d, j) hbefore
      rw [heq] at this
      exact this.ne' htie

end

/-! ## Centring -/

theorem labelled_map (items : List Q) (label : Q → Nat) (c : Nat) (value : Q → P) :
    labelled (items.map label) c (items.map value) =
      (items.filter fun x => label x == c).map value := by
  rw [labelled, List.zip_map', List.filter_map, List.map_map]
  rfl

section

variable [Zero α] [Add α] [Div α] [NatCast α]

/-- The mean of some points: the sums of their coordinates, added up from the first to the last, over the
number of points. -/
def mean (points : List (Point α)) : Point α where
  lat := (points.map (·.lat)).foldl (· + ·) 0 / (points.length : α)
  lon := (points.map (·.lon)).foldl (· + ·) 0 / (points.length : α)

theorem meanOf_nil : meanOf ([] : List (Point α)) = none :=
  rfl

theorem meanOf_eq {points : List (Point α)} (h : points ≠ []) : meanOf points = some (mean points) := by
  rw [meanOf, List.isEmpty_eq_false_iff.mpr h]
  rfl

theorem getElem?_recentre (points : List (Point α)) (labels : List Nat) (centres : List (Point α))
    (c : Nat) : (recentre points labels centres)[c]? =
      centres[c]?.map fun old => (meanOf (labelled labels c points)).getD old := by
  rw [recentre, List.getElem?_map, List.getElem?_zipIdx, Option.map_map, Nat.zero_add]
  rfl

/-- Centres that are means of the groups stay where they are. -/
theorem recentre_recentre (points : List (Point α)) (labels : List Nat) (centres : List (Point α)) :
    recentre points labels (recentre points labels centres) = recentre points labels centres := by
  refine List.ext_getElem? fun c => ?_
  rw [getElem?_recentre, getElem?_recentre, Option.map_map]
  congr 1
  funext old
  cases meanOf (labelled labels c points) <;> rfl

/-- The means of some or all of the points. -/
def means (points : List (Point α)) : List (Point α) :=
  (points.sublists.filter fun part => !part.isEmpty).map mean

theorem mean_mem_means {points part : List (Point α)} (hsub : part.Sublist points) (hne : part ≠ []) :
    mean part ∈ means points :=
  List.mem_map_of_mem (List.mem_filter.mpr ⟨List.mem_sublists.mpr hsub, by simpa using hne⟩)

theorem append_means_subset {points seeds : List (Point α)} (h : seeds ⊆ points) :
    seeds ++ means points ⊆ points ++ means points :=
  List.append_subset.mpr
    ⟨List.Subset.trans h (List.subset_append_left _ _), List.subset_append_right _ _⟩

theorem recentre_subset {points seeds centres : List (Point α)} {labels : List Nat}
    (hlength : points.length ≤ labels.length) (h : centres ⊆ seeds ++ means points) :
    recentre points labels centres ⊆ seeds ++ means points := by
  intro q hq
  obtain ⟨⟨old, c⟩, hold, rfl⟩ := List.mem_map.mp hq
  change (meanOf (labelled labels c points)).getD old ∈ _
  by_cases hnone : labelled labels c points = []
  · rw [hnone, meanOf_nil]
    exact h (List.fst_mem_of_mem_zipIdx hold)
  · rw [meanOf_eq hnone]
    exact List.mem_append_right _ (mean_mem_means (labelled_sublist hlength c) hnone)

end

/-! ## Rounds -/

section

variable [Zero α] [Add α] [Div α] [LT α] [DecidableLT α] [NatCast α]

/-- Labels and centres as a round leaves them that began with old centres, in a run from first centres. -/
structure AfterRound (gap : Point α → Point α → α) (points seeds old : List (Point α))
    (labels : List Nat) (centres : List (Point α)) : Prop where
  old_subset : old ⊆ seeds ++ means points
  labels_eq : labels = points.map (nearest gap old)
  centres_eq : centres = recentre points labels old

theorem AfterRound.centres_subset {gap : Point α → Point α → α}
    {points seeds old centres : List (Point α)} {labels : List Nat}
    (h : AfterRound gap points seeds old labels centres) : centres ⊆ seeds ++ means points := by
  rw [h.centres_eq]
  refine recentre_subset ?_ h.old_subset
  rw [h.labels_eq, List.length_map]

/-- The last round of a run that settles begins with the centres it ends with, or moves none of them
far. -/
theorem rounds_afterRound (gap : Point α → Point α → α) (tolerance : α)
    {points seeds : List (Point α)} {left : Nat} (count : Nat) {labels : Option (List Nat)}
    {centres : List (Point α)}
    (hcentres : centres ⊆ seeds ++ means points)
    (hknown : ∀ known, labels = some known → ∃ old, AfterRound gap points seeds old known centres)
    (hround : 0 < left ∨ labels.isSome = true) :
    let final := rounds gap tolerance points left count labels centres
    ∃ old, AfterRound gap points seeds old final.labels final.centres ∧
      (final.converged = true →
        final.centres = old ∨ farthestMove gap old final.centres < tolerance) := by
  induction left generalizing count labels centres with
  | zero =>
      obtain ⟨known, rfl⟩ := Option.isSome_iff_exists.mp (hround.resolve_left (Nat.lt_irrefl 0))
      obtain ⟨old, hafter⟩ := hknown known rfl
      exact ⟨old, hafter, fun hconverged => by cases hconverged⟩
  | succ left ih =>
      have hafter : AfterRound gap points seeds centres (points.map (nearest gap centres))
          (recentre points (points.map (nearest gap centres)) centres) := ⟨hcentres, rfl, rfl⟩
      simp only [rounds]
      split
      next hend =>
        refine ⟨centres, hafter, fun _ => ?_⟩
        rw [Bool.or_eq_true, beq_iff_eq, decide_eq_true_eq] at hend
        refine hend.imp_left fun hsame => ?_
        -- The labels are those of the round before, whose means the centres are already.
        obtain ⟨old, hold⟩ := hknown _ hsame
        have hsettled := recentre_recentre points (points.map (nearest gap centres)) old
        rwa [← hold.centres_eq] at hsettled
      next =>
        refine ih (count + 1) (recentre_subset (List.length_map _).ge hcentres) ?_ (.inr rfl)
        intro known heq
        cases heq
        exact ⟨centres, hafter⟩

end

/-! ## Members and their positions -/

section

variable (position : P → Option (Point α)) (stops : List P) (label : Point α → Nat) (c : Nat)

theorem labelled_members :
    labelled ((stops.filterMap position).map label) c (stops.filter fun p => (position p).isSome) =
      ((located position stops).filter fun q => label q.2 == c).map (·.1) := by
  rw [← map_snd_located, ← map_fst_located, List.map_map]
  exact labelled_map _ (fun q : P × Point α => label q.2) c _

theorem labelled_positions :
    labelled ((stops.filterMap position).map label) c (stops.filterMap position) =
      ((located position stops).filter fun q => label q.2 == c).map (·.2) := by
  rw [← map_snd_located, List.map_map]
  exact labelled_map _ (fun q : P × Point α => label q.2) c _

variable {position stops label c}

theorem position_of_mem_located {q : P × Point α} (h : q ∈ located position stops) :
    position q.1 = some q.2 := by
  obtain ⟨p, _, hp⟩ := List.mem_filterMap.mp h
  obtain ⟨x, hx, rfl⟩ := Option.map_eq_some_iff.mp hp
  exact hx

/-- The points with a label are where the stops with that label are. -/
theorem map_position_labelled :
    (labelled ((stops.filterMap position).map label) c
      (stops.filter fun p => (position p).isSome)).map position =
      (labelled ((stops.filterMap position).map label) c (stops.filterMap position)).map some := by
  rw [labelled_members, labelled_positions, List.map_map, List.map_map]
  exact List.map_congr_left fun q hq => position_of_mem_located (List.mem_of_mem_filter hq)

theorem labelled_positions_ne_nil
    (h : labelled ((stops.filterMap position).map label) c
      (stops.filter fun p => (position p).isSome) ≠ []) :
    labelled ((stops.filterMap position).map label) c (stops.filterMap position) ≠ [] := by
  rw [labelled_members, ne_eq, List.map_eq_nil_iff] at h
  rwa [labelled_positions, ne_eq, List.map_eq_nil_iff]

theorem mem_of_labelled {p : P} {x : Point α}
    (hp : p ∈ labelled ((stops.filterMap position).map label) c
      (stops.filter fun p => (position p).isSome)) (hx : position p = some x) :
    x ∈ stops.filterMap position ∧ label x = c := by
  rw [labelled_members] at hp
  obtain ⟨q, hq, rfl⟩ := List.mem_map.mp hp
  obtain ⟨hmem, hlabel⟩ := List.mem_filter.mp hq
  obtain rfl := Option.some.inj ((position_of_mem_located hmem).symm.trans hx)
  rw [← map_snd_located]
  exact ⟨List.mem_map_of_mem hmem, beq_iff_eq.mp hlabel⟩

end

/-! ## Centres of groups -/

section

variable [Zero α] [Add α] [Div α] [NatCast α]

/-- A group is centred where the mean of its members is, and every one of them has a position. The mean
of one member is where that is. -/
def Group.IsCentred (position : P → Option (Point α)) (g : Group P α) : Prop :=
  ∃ points, g.members.map position = points.map some ∧ points ≠ [] ∧
    (g.centre = mean points ∨ points = [g.centre])

theorem isCentred_of_mem_apart {position : P → Option (Point α)} {stops : List P} {g : Group P α}
    (hg : g ∈ (apart position stops).groups) : g.IsCentred position := by
  obtain ⟨q, hq, rfl⟩ := List.mem_map.mp hg
  exact ⟨[q.2], congrArg (fun x => [x]) (position_of_mem_located hq), List.cons_ne_nil _ _, .inr rfl⟩

variable [LT α] [DecidableLT α]

theorem isCentred_of_mem_grouped {gap : Point α → Point α → α} {position : P → Option (Point α)}
    {stops : List P} {final : Rounds α} {seeds old : List (Point α)}
    (hafter : AfterRound gap (stops.filterMap position) seeds old final.labels final.centres)
    {g : Group P α} (hg : g ∈ (grouped position stops final).groups) : g.IsCentred position := by
  obtain ⟨c, hcentre, hmembers, hne⟩ := exists_of_mem_groupsOf hg
  rw [hafter.labels_eq] at hmembers
  have hsome := labelled_positions_ne_nil (hmembers ▸ hne)
  refine ⟨_, hmembers ▸ map_position_labelled, hsome, .inl ?_⟩
  rw [hafter.centres_eq, getElem?_recentre, hafter.labels_eq, meanOf_eq hsome,
    Option.map_eq_some_iff] at hcentre
  obtain ⟨_, _, hcentre⟩ := hcentre
  exact hcentre.symm

/-- A run from first centres ends after a round. -/
theorem afterRound_of_seeds (gap : Point α → Point α → α) (tolerance : α)
    (points seeds : List (Point α)) {left : Nat} (hleft : 0 < left) :
    let final := rounds gap tolerance points left 0 none seeds
    ∃ old, AfterRound gap points seeds old final.labels final.centres ∧
      (final.converged = true →
        final.centres = old ∨ farthestMove gap old final.centres < tolerance) :=
  rounds_afterRound gap tolerance 0 (List.subset_append_left seeds _) (fun _ heq => by cases heq)
    (.inl hleft)

/-- Whatever the first centres are, all groups are centred. -/
theorem isCentred_of_mem_cluster {c : Clusterer P α} {stops : List P} {k : Int} {a : Assignment P α}
    (h : cluster c stops k = .ok a) {g : Group P α} (hg : g ∈ a.groups) : g.IsCentred c.position := by
  obtain ⟨-, rfl⟩ | ⟨-, seeds, -, rfl⟩ := cluster_eq_ok h
  · exact isCentred_of_mem_apart hg
  · obtain ⟨old, hafter, -⟩ := afterRound_of_seeds c.gap c.tolerance (stops.filterMap c.position) seeds
      (by omega : 0 < (max 1 c.maxIterations).toNat)
    exact isCentred_of_mem_grouped hafter hg

end

/-- In exact numbers a group that is centred has its centre at the arithmetic mean of its members. -/
theorem Group.IsCentred.centre_eq [Field α] [LinearOrder α] [IsStrictOrderedRing α]
    {position : P → Option (Point α)} {g : Group P α} (h : g.IsCentred position) :
    ∃ points, g.members.map position = points.map some ∧ points ≠ [] ∧
      g.centre.lat = (points.map (·.lat)).sum / g.members.length ∧
      g.centre.lon = (points.map (·.lon)).sum / g.members.length := by
  obtain ⟨points, hpoints, hne, hcentre⟩ := h
  have hlength : g.members.length = points.length := by
    simpa using congrArg List.length hpoints
  refine ⟨points, hpoints, hne, ?_⟩
  rw [hlength]
  rcases hcentre with hmean | hone
  · rw [hmean, mean, List.sum_eq_foldl, List.sum_eq_foldl]
    exact ⟨rfl, rfl⟩
  · rw [hone]
    simp

/-! ## Runs that settle -/

open RealOrder

/-- Every stop is with a nearest centre, and of equally near ones with the first. -/
def Settled (gap : Point Float → Point Float → Float) (position : P → Option (Point Float))
    (groups : List (Group P Float)) : Prop :=
  ∀ (i j : Nat) g h, groups[i]? = some g → groups[j]? = some h → ∀ p ∈ g.members, ∀ x,
    position p = some x → gap x g.centre ≤ gap x h.centre ∧
      ((gap x g.centre == gap x h.centre) = true → i ≤ j)

/-- The distances between some points and the means of some of them are numbers that are not below
zero. -/
def Measured (gap : Point Float → Point Float → Float) (points : List (Point Float)) : Prop :=
  ∀ p ∈ points ++ means points, ∀ q ∈ points ++ means points, 0.0 ≤ gap p q

theorem Measured.isNumber {gap : Point Float → Point Float → Float} {points : List (Point Float)}
    (h : Measured gap points) {p q : Point Float} (hp : p ∈ points ++ means points)
    (hq : q ∈ points ++ means points) :
    IsNumber (gap p q) :=
  (isNumber_of_le (h p hp q hq)).2

theorem settled_of_afterRound {gap : Point Float → Point Float → Float}
    {position : P → Option (Point Float)} {stops : List P} {final : Rounds Float}
    {seeds : List (Point Float)} (hmeasured : Measured gap (stops.filterMap position))
    (hseeds : seeds ⊆ stops.filterMap position)
    (hafter : AfterRound gap (stops.filterMap position) seeds final.centres final.labels
      final.centres) :
    Settled gap position (grouped position stops final).groups := by
  intro i j g h hg hh p hp x hx
  obtain ⟨c, hcentre, hmembers, _, hbefore⟩ := exists_of_getElem?_groupsOf hg
  obtain ⟨d, hcentre', -⟩ := exists_of_getElem?_groupsOf hh
  rw [hmembers, hafter.labels_eq] at hp
  obtain ⟨hpoint, hlabel⟩ := mem_of_labelled hp hx
  have hpoint := List.mem_append_left (means (stops.filterMap position)) hpoint
  have hnumber : ∀ q ∈ final.centres, IsNumber (gap x q) := fun q hq =>
    hmeasured.isNumber hpoint (append_means_subset hseeds (hafter.old_subset hq))
  have hrank : ∀ q ∈ final.centres, ∀ r ∈ final.centres,
      gap x q < gap x r ↔ place (gap x q) < place (gap x r) := fun q hq r hr =>
    lt_iff (hnumber q hq) (hnumber r hr)
  obtain ⟨c', hc', hleast⟩ := nearest_spec hrank
    (List.ne_nil_of_mem (List.mem_of_getElem? hcentre))
  rw [hlabel] at hc' hleast
  obtain rfl := Option.some.inj (hc'.symm.trans hcentre)
  have hg' := hnumber _ (List.mem_of_getElem? hcentre)
  have hh' := hnumber _ (List.mem_of_getElem? hcentre')
  refine ⟨(le_iff hg' hh').mpr (hleast d _ hcentre').1, fun htie => ?_⟩
  by_contra! hlt
  obtain ⟨e, hec, hcentre'', -⟩ := hbefore j h hlt hh
  have := (hleast e _ hcentre'').2 ((beq_iff hg' hh').mp htie).symm
  omega

theorem zero_le_farthestMove {gap : Point Float → Point Float → Float}
    {points old new : List (Point Float)} (hmeasured : Measured gap points)
    (hold : old ⊆ points ++ means points) (hnew : new ⊆ points ++ means points) :
    0.0 ≤ farthestMove gap old new := by
  rw [farthestMove]
  split
  next => decide +kernel
  next d ds hmoves =>
    have hmem := Choice.foldl_keep_mem (r := fun most x => most < x) d ds
    rw [← hmoves] at hmem
    obtain ⟨⟨a, b⟩, hab, heq⟩ := List.mem_map.mp hmem
    obtain ⟨ha, hb⟩ := List.of_mem_zip hab
    rw [← heq]
    exact hmeasured a (hold ha) b (hnew hb)

/-- One stop left apart is with its own centre. -/
theorem settled_apart {gap : Point Float → Point Float → Float} {position : P → Option (Point Float)}
    {stops : List P} (hmeasured : Measured gap (stops.filterMap position))
    (hfew : (stops.filterMap position).length ≤ 1) :
    Settled gap position (apart position stops).groups := by
  intro i j g h hg hh p hp x hx
  have hlength : (apart position stops).groups.length ≤ 1 := by
    rw [apart, List.length_map]
    rwa [← map_snd_located, List.length_map] at hfew
  obtain ⟨hi, -⟩ := List.getElem?_eq_some_iff.mp hg
  obtain ⟨hj, -⟩ := List.getElem?_eq_some_iff.mp hh
  obtain rfl : i = j := by omega
  obtain rfl := Option.some.inj (hg.symm.trans hh)
  obtain ⟨q, hq, rfl⟩ := List.mem_map.mp (List.mem_of_getElem? hg)
  obtain rfl := List.mem_singleton.mp hp
  obtain rfl := Option.some.inj ((position_of_mem_located hq).symm.trans hx)
  have hpoint := List.mem_append_left (means (stops.filterMap position))
    (map_snd_located position stops ▸ List.mem_map_of_mem hq)
  have hnumber := hmeasured.isNumber hpoint hpoint
  exact ⟨(le_iff hnumber hnumber).mpr le_rfl, fun _ => le_rfl⟩

/-- In exact numbers every group has its centre at the arithmetic mean of its members, whatever the first
centres are. In the program's own numbers sums and quotients are rounded; and where a run settles that was
to go on until no centre moves, every stop is with the centre nearest to it. -/
theorem cluster_centred_settled [Field α] [LinearOrder α] [IsStrictOrderedRing α] :
    (∀ (c : Clusterer P α) stops k a, cluster c stops k = .ok a → ∀ g ∈ a.groups,
      ∃ points, g.members.map c.position = points.map some ∧ points ≠ [] ∧
        g.centre.lat = (points.map (·.lat)).sum / g.members.length ∧
        g.centre.lon = (points.map (·.lon)).sum / g.members.length) ∧
    ∀ (m : Seeding.Measure) (position : P → Option (Point Float)) (seeding : Seeding)
      (seed maxIterations : Int) (tolerance : Float) (stops : List P) (k : Int),
      k < (stops.filterMap position).length → ∀ a,
      cluster (measuredBy m position seeding seed maxIterations tolerance) stops k = .ok a →
      (∀ g ∈ a.groups, g.IsCentred position) ∧
        (tolerance ≤ 0.0 → a.converged = true → Measured m.gap (stops.filterMap position) →
          Settled m.gap position a.groups) := by
  refine ⟨fun c stops k a ha g hg => (isCentred_of_mem_cluster ha hg).centre_eq, ?_⟩
  intro m position seeding seed maxIterations tolerance stops k hk a ha
  refine ⟨fun g hg => isCentred_of_mem_cluster ha hg, fun htolerance hconverged hmeasured => ?_⟩
  obtain ⟨hfew, rfl⟩ | ⟨hmany, seeds, hseeds, rfl⟩ := cluster_eq_ok ha
  · have hfew : (stops.filterMap position).length ≤ (max 1 k).toNat := hfew
    exact settled_apart hmeasured (by omega)
  have hsub : seeds ⊆ stops.filterMap position := Seeding.subset_of_centres hseeds
  obtain ⟨old, hafter, hend⟩ := afterRound_of_seeds m.gap tolerance (stops.filterMap position) seeds
    (by omega : 0 < (max 1 maxIterations).toNat)
  obtain heq | hlt := hend hconverged
  · rw [← heq] at hafter
    exact settled_of_afterRound hmeasured hsub hafter
  · exact absurd hlt (not_lt_of_le_of_le htolerance
      (zero_le_farthestMove hmeasured
        (List.Subset.trans hafter.old_subset (append_means_subset hsub))
        (List.Subset.trans hafter.centres_subset (append_means_subset hsub))))

/-- Four stops on a meridian, of which the second changes its group once; and the same in exact numbers,
from first centres of which the second is not among the stops. -/
theorem cluster_centred_settled_meridian :
    let c : Clusterer (Option (Point ℚ)) ℚ :=
      { position := id
        gap := fun a b => |a.lat - b.lat|
        maxIterations := 25
        tolerance := 0
        seeds := fun _ _ => .ok [⟨0, 10⟩, ⟨2, 10⟩] }
    (∃ a, cluster c [some ⟨0, 10⟩, none, some ⟨1 / 2, 10⟩, some ⟨4, 10⟩] 2 = .ok a ∧
      ∀ g ∈ a.groups, ∃ points, g.members.map id = points.map some ∧ points ≠ [] ∧
        g.centre.lat = (points.map (·.lat)).sum / g.members.length ∧
        g.centre.lon = (points.map (·.lon)).sum / g.members.length) ∧
    ∃ a, cluster (measuredBy .onMeridian id .spread 42 25 0.0)
        [some ⟨0.0, 10.0⟩, none, some ⟨1.0, 10.0⟩, some ⟨4.0, 10.0⟩] 2 = .ok a ∧
      (∀ g ∈ a.groups, g.IsCentred id) ∧
      (a.groups.map fun g => g.centre.lat == 0.5) = [true, false] ∧
        Settled Seeding.Measure.onMeridian.gap id a.groups := by
  intro c
  obtain ⟨hexact, -⟩ := cluster_centred_settled (P := Option (Point ℚ)) (α := ℚ)
  obtain ⟨-, hrounded⟩ := cluster_centred_settled (P := Option (Point Float)) (α := ℚ)
  constructor
  · obtain ⟨a, ha⟩ : ∃ a, cluster c [some ⟨0, 10⟩, none, some ⟨1 / 2, 10⟩, some ⟨4, 10⟩] 2 = .ok a :=
      exists_cluster (fun _ _ _ => ⟨_, rfl⟩) 2
    exact ⟨a, ha, hexact c _ 2 a ha⟩
  have hsorted : ([(.real 0.0, .real 10.0), (.real 1.0, .real 10.0), (.real 4.0, .real 10.0)] :
      List (Value × Value)).zipIdx.mergeSort (fun a b => Seeding.southWest a.1 b.1) =
        [((.real 0.0, .real 10.0), 0), ((.real 1.0, .real 10.0), 1), ((.real 4.0, .real 10.0), 2)] :=
    List.mergeSort_of_pairwise (by decide +kernel)
  have hspaced : Seeding.spacedPositions 3 2 = [0, 1] := by decide +kernel
  have hseeds : Seeding.spread.centres .onMeridian 42 [⟨0.0, 10.0⟩, ⟨1.0, 10.0⟩, ⟨4.0, 10.0⟩] 2 =
      .ok [⟨0.0, 10.0⟩, ⟨1.0, 10.0⟩] := by
    change (Seeding.spreadPositions [(.real 0.0, .real 10.0), (.real 1.0, .real 10.0),
      (.real 4.0, .real 10.0)] 2 >>= _) = _
    rw [Seeding.spreadPositions, hsorted]
    change (List.mapM _ (Seeding.spacedPositions 3 2) >>= _) = _
    rw [hspaced]
    rfl
  obtain ⟨final, hfinal⟩ : ∃ final, final = rounds Seeding.Measure.onMeridian.gap 0.0
      [⟨0.0, 10.0⟩, ⟨1.0, 10.0⟩, ⟨4.0, 10.0⟩] 25 0 none [⟨0.0, 10.0⟩, ⟨1.0, 10.0⟩] := ⟨_, rfl⟩
  have hrun : cluster (measuredBy .onMeridian id .spread 42 25 0.0)
      [some ⟨0.0, 10.0⟩, none, some ⟨1.0, 10.0⟩, some ⟨4.0, 10.0⟩] 2 =
        .ok (grouped id [some ⟨0.0, 10.0⟩, none, some ⟨1.0, 10.0⟩, some ⟨4.0, 10.0⟩] final) := by
    change (Seeding.spread.centres .onMeridian 42 [⟨0.0, 10.0⟩, ⟨1.0, 10.0⟩, ⟨4.0, 10.0⟩] 2 >>= _) = _
    rw [hseeds, hfinal]
    rfl
  have hconverged : final.converged = true := by
    rw [hfinal]
    decide +kernel
  have hmeasured : Measured Seeding.Measure.onMeridian.gap [⟨0.0, 10.0⟩, ⟨1.0, 10.0⟩, ⟨4.0, 10.0⟩] := by
    unfold Measured
    decide +kernel
  obtain ⟨hcentred, hsettled⟩ := hrounded .onMeridian id .spread 42 25 0.0 _ 2 (by decide +kernel) _ hrun
  have hcentres : ((grouped id [some ⟨0.0, 10.0⟩, none, some ⟨1.0, 10.0⟩, some ⟨4.0, 10.0⟩]
      final).groups.map fun g => g.centre.lat == 0.5) = [true, false] := by
    rw [hfinal]
    decide +kernel
  exact ⟨_, hrun, hcentred, hcentres, hsettled (by decide +kernel) hconverged hmeasured⟩

end Wayfare.Cluster
