import Wayfare.Cluster.Seeding
import Wayfare.Proofs.Grouping
import Wayfare.Proofs.Route.Rearrangement
import Wayfare.Proofs.Success

/-! # Clusters are a partition

Every stop with a position gets the label of some centre, so the groups of the
centres have each of these stops once. All that the first centres have to be
for that is not none.
-/

namespace Wayfare.Cluster

variable {P α : Type}

/-- The groups and what is in none of them are together the given stops. -/
def Assignment.Partitions (a : Assignment P α) (stops : List P) : Prop :=
  (a.groups.flatMap (·.members) ++ a.unclustered).Perm stops

/-- Every point has a label, and the labels are those of centres. -/
def Labels (labels : List Nat) (points centres : List (Point α)) : Prop :=
  labels.length = points.length ∧ ∀ l ∈ labels, l < centres.length

section

variable [LT α] [DecidableLT α]

theorem nearest_lt (gap : Point α → Point α → α) {centres : List (Point α)} (h : centres ≠ [])
    (p : Point α) : nearest gap centres p < centres.length := by
  rw [nearest]
  split
  next hnone => exact absurd (List.zipIdx_eq_nil_iff.mp hnone) h
  next c rest hsome =>
    have hbest := Choice.best_mem
      (fun a b : Point α × Nat => decide (gap p a.1 < gap p b.1)) c rest
    rw [← hsome] at hbest
    exact List.snd_lt_of_mem_zipIdx hbest

theorem labels_nearest (gap : Point α → Point α → α) (points : List (Point α))
    {centres : List (Point α)} (h : centres ≠ []) :
    Labels (points.map (nearest gap centres)) points centres := by
  refine ⟨List.length_map _, ?_⟩
  intro l hl
  obtain ⟨p, _, rfl⟩ := List.mem_map.mp hl
  exact nearest_lt gap h p

variable [Zero α] [Add α] [Div α] [NatCast α]

omit [LT α] [DecidableLT α] in
theorem length_recentre (points : List (Point α)) (labels : List Nat) (centres : List (Point α)) :
    (recentre points labels centres).length = centres.length := by
  rw [recentre, List.length_map, List.length_zipIdx]

/-- Once there was a round, every point has the label of a centre. -/
theorem labels_rounds (gap : Point α → Point α → α) (tolerance : α) {points : List (Point α)}
    {left : Nat} (count : Nat) {labels : Option (List Nat)} {centres : List (Point α)}
    (h : centres ≠ [])
    (hknown : ∀ known, labels = some known → Labels known points centres)
    (hround : 0 < left ∨ labels.isSome = true) :
    let final := rounds gap tolerance points left count labels centres
    Labels final.labels points final.centres := by
  -- Every round labels anew, so only a run of no rounds needs labels to begin with.
  induction left generalizing count labels centres with
  | zero =>
      obtain ⟨known, rfl⟩ := Option.isSome_iff_exists.mp
        (hround.resolve_left (Nat.lt_irrefl 0))
      exact hknown known rfl
  | succ left ih =>
      have hnew := labels_nearest gap points h
      have hlength := length_recentre points (points.map (nearest gap centres)) centres
      have hcentred : Labels (points.map (nearest gap centres)) points
          (recentre points (points.map (nearest gap centres)) centres) := by
        rwa [Labels, hlength]
      simp only [rounds]
      split
      next => exact hcentred
      next =>
        refine ih (count + 1) ?_ ?_ (.inr rfl)
        · rwa [← List.length_pos_iff, hlength, List.length_pos_iff]
        · intro known heq
          cases heq
          exact hcentred

end

/-! ## Groups -/

theorem labelled_sublist {Q : Type} {labels : List Nat} {items : List Q}
    (hlength : items.length ≤ labels.length) (c : Nat) : (labelled labels c items).Sublist items := by
  have hparts := (List.filter_sublist (p := fun q : Q × Nat => q.2 == c)
    (l := items.zip labels)).map Prod.fst
  rwa [List.map_fst_zip hlength] at hparts

/-- What has the labels of centres is in the groups of the centres, and once. -/
theorem flatMap_groupsOf_perm {stops : List P} {final : Rounds α}
    (hlength : final.labels.length = stops.length)
    (hlabels : ∀ l ∈ final.labels, l < final.centres.length) :
    ((groupsOf stops final).flatMap (·.members)).Perm stops := by
  have hkeys : ∀ q ∈ stops.zip final.labels, q.2 ∈ List.range final.centres.length :=
    fun q hq => List.mem_range.mpr (hlabels q.2 (List.of_mem_zip hq).2)
  have hparts := (flatMap_filter_perm List.nodup_range hkeys).map (·.1)
  rw [List.map_flatMap, List.map_fst_zip (Nat.le_of_eq hlength.symm)] at hparts
  rw [groupsOf, flatMap_filter_isEmpty, List.flatMap_map]
  have hcentres : (final.centres.zipIdx.flatMap fun c => labelled final.labels c.2 stops) =
      (List.range final.centres.length).flatMap fun c => labelled final.labels c stops := by
    rw [List.range_eq_range', ← List.zipIdx_map_snd 0 final.centres, List.flatMap_map]
  exact (List.Perm.of_eq hcentres).trans hparts

section

variable [Zero α] [Add α] [Div α] [LT α] [DecidableLT α] [NatCast α]

omit [Zero α] [Add α] [Div α] [LT α] [DecidableLT α] [NatCast α] in
theorem map_fst_located (position : P → Option (Point α)) (stops : List P) :
    (located position stops).map (·.1) = stops.filter fun p => (position p).isSome := by
  induction stops with
  | nil => rfl
  | cons p rest ih =>
      rw [located] at ih ⊢
      cases hp : position p with
      | none => simpa [hp] using ih
      | some at_ => simpa [hp] using ih

omit [Zero α] [Add α] [Div α] [LT α] [DecidableLT α] [NatCast α] in
/-- The stops with a position and those without are all stops. -/
theorem located_append_perm (position : P → Option (Point α)) (stops : List P) :
    ((located position stops).map (·.1) ++ stops.filter fun p => (position p).isNone).Perm stops := by
  have hnone : ∀ p, (position p).isNone = !(position p).isSome := fun p => by
    cases position p <;> rfl
  rw [map_fst_located]
  simp only [hnone]
  exact List.filter_append_perm _ stops

omit [Zero α] [Add α] [Div α] [LT α] [DecidableLT α] [NatCast α] in
theorem partitions_apart (position : P → Option (Point α)) (stops : List P) :
    (apart position stops).Partitions stops := by
  have hsingle : ((located position stops).map fun q => (⟨[q.1], q.2⟩ : Group P α)).flatMap
      (·.members) = (located position stops).map (·.1) := by
    rw [List.flatMap_map]
    exact List.flatMap_pure_eq_map _ _
  rw [Assignment.Partitions, apart]
  exact (List.Perm.of_eq (congrArg (· ++ _) hsingle)).trans (located_append_perm position stops)

/-- First centres are never none, where there is a point to begin with. -/
def Clusterer.Seeded (c : Clusterer P α) : Prop :=
  ∀ points k centres, points ≠ [] → 0 < k → c.seeds points k = .ok centres → centres ≠ []

omit [Zero α] [Add α] [Div α] [LT α] [DecidableLT α] [NatCast α] in
theorem map_snd_located (position : P → Option (Point α)) (stops : List P) :
    (located position stops).map (·.2) = stops.filterMap position := by
  rw [located, List.map_filterMap]
  apply List.filterMap_congr
  intro p _
  cases position p <;> rfl

omit [Zero α] [Add α] [Div α] [LT α] [DecidableLT α] [NatCast α] in
theorem length_filterMap_position (position : P → Option (Point α)) (stops : List P) :
    (stops.filterMap position).length = (stops.filter fun p => (position p).isSome).length := by
  rw [← map_snd_located, ← map_fst_located, List.length_map, List.length_map]

/-- The groups of stops with a position that are more than the centres, and the stops without one. -/
def grouped (position : P → Option (Point α)) (stops : List P) (final : Rounds α) : Assignment P α where
  groups := groupsOf (stops.filter fun p => (position p).isSome) final
  iterations := final.count
  converged := final.converged
  unclustered := stops.filter fun p => (position p).isNone

/-- No more stops than centres are left apart; others are grouped by some rounds from first centres. -/
theorem cluster_eq_ok {c : Clusterer P α} {stops : List P} {k : Int} {a : Assignment P α}
    (h : cluster c stops k = .ok a) :
    ((stops.filterMap c.position).length ≤ (max 1 k).toNat ∧ a = apart c.position stops) ∨
      (max 1 k).toNat < (stops.filterMap c.position).length ∧
        ∃ seeds, c.seeds (stops.filterMap c.position) (max 1 k).toNat = .ok seeds ∧
          a = grouped c.position stops (rounds c.gap c.tolerance (stops.filterMap c.position)
            (max 1 c.maxIterations).toNat 0 none seeds) := by
  have hlength := congrArg List.length (map_snd_located c.position stops)
  rw [List.length_map] at hlength
  rw [cluster] at h
  split at h
  next hfew =>
    rw [Result.pure_eq_ok] at h
    exact .inl ⟨hlength ▸ hfew, h.symm⟩
  next hmany =>
    obtain ⟨seeds, hseeds, h⟩ := Result.bind_eq_ok.mp h
    rw [Result.pure_eq_ok, map_snd_located, map_fst_located] at h
    rw [map_snd_located] at hseeds
    exact .inr ⟨hlength ▸ not_le.mp hmany, seeds, hseeds, h.symm⟩

/-- Whatever the first centres are, clusters are a partition of the stops. -/
theorem partitions_cluster {c : Clusterer P α} (hseeded : c.Seeded) {stops : List P} {k : Int}
    {a : Assignment P α} (h : cluster c stops k = .ok a) : a.Partitions stops := by
  obtain ⟨-, rfl⟩ | ⟨hmany, seeds, hseeds, rfl⟩ := cluster_eq_ok h
  · exact partitions_apart c.position stops
  have hseeds := hseeded _ _ _ (List.length_pos_iff.mp (by omega)) (by omega) hseeds
  have hround : 0 < (max 1 c.maxIterations).toNat := by omega
  have hnone : ∀ known, none = some known → Labels known (stops.filterMap c.position) seeds :=
    fun _ heq => by cases heq
  obtain ⟨hlength, hlabels⟩ := labels_rounds c.gap c.tolerance 0 hseeds hnone (.inl hround)
  have hlength := hlength.trans (length_filterMap_position c.position stops)
  refine ((flatMap_groupsOf_perm hlength hlabels).append_right _).trans ?_
  have hall := located_append_perm c.position stops
  rwa [map_fst_located] at hall

/-- There are clusters if there are first centres for fewer centres than stops with a position. -/
theorem exists_cluster {c : Clusterer P α} {stops : List P}
    (hseeds : ∀ k, 0 < k → k < (stops.filterMap c.position).length →
      ∃ centres, c.seeds (stops.filterMap c.position) k = .ok centres) (k : Int) :
    ∃ a, cluster c stops k = .ok a := by
  rw [cluster]
  split
  next => exact ⟨_, rfl⟩
  next hmany =>
    have hpoints := map_snd_located c.position stops
    have hlength := congrArg List.length hpoints
    rw [List.length_map] at hlength
    obtain ⟨centres, hcentres⟩ := hseeds (max 1 k).toNat (by omega) (by omega)
    rw [← hpoints] at hcentres
    exact Result.exists_bind_eq_ok ⟨centres, hcentres⟩ fun _ _ => ⟨_, rfl⟩

end

/-! ## First centres -/

theorem Twister.nextBelow_lt {n : Nat} (hn : 0 < n) (tries : Nat) (t : Twister) :
    (nextBelow n tries t).1 < n := by
  induction tries generalizing t with
  | zero => exact hn
  | succ tries ih =>
      simp only [nextBelow]
      split
      next hsmall => exact hsmall
      next => exact ih _

theorem Twister.choose_lt {n : Nat} (hn : 0 < n) (t : Twister) : (t.choose n).1 < n := by
  rw [choose, if_neg (Nat.ne_of_gt hn)]
  exact nextBelow_lt hn maxTries t

namespace Seeding

theorem mem_drawMore {m : Measure} {points : List (Point Float)} {drawn all : List Nat}
    {t : Twister} {more i : Nat} (h : drawMore m points drawn t more = .ok all)
    (hi : i ∈ drawn) : i ∈ all := by
  induction more generalizing drawn t with
  | zero =>
      cases h
      exact hi
  | succ more ih =>
      obtain ⟨⟨j, t'⟩, _, h⟩ := Result.bind_eq_ok.mp h
      exact ih h (List.mem_append_left _ hi)

theorem lt_of_mem_spreadPositions {pairs : List (Value × Value)} {k i : Nat} {all : List Nat}
    (h : spreadPositions pairs k = .ok all) (hi : i ∈ all) : i < pairs.length := by
  obtain ⟨j, _, hj⟩ := Result.exists_of_mem_mapM h hi
  rw [Result.ofOption_eq_ok, Option.map_eq_some_iff] at hj
  obtain ⟨pair, hpair, rfl⟩ := hj
  have hmem := (List.mergeSort_perm _ _).mem_iff.mp (List.mem_of_getElem? hpair)
  simpa using List.snd_lt_of_mem_zipIdx hmem

/-- Evenly spaced points are first centres if their positions are within the list. -/
theorem exists_centres_spread {m : Measure} {seed : Int} {points : List (Point Float)} {k : Nat}
    (h : ∀ i ∈ spacedPositions points.length k, i < points.length) :
    ∃ centres, spread.centres m seed points k = .ok centres := by
  have hpositions : ∃ all, spread.positions m seed points k = .ok all := by
    apply Result.exists_mapM_eq_ok
    intro i hi
    rw [List.length_map] at hi
    have hlt : i < ((points.map fun q => (Value.real q.lat, Value.real q.lon)).zipIdx.mergeSort
        fun a b => southWest a.1 b.1).length := by
      rw [List.length_mergeSort, List.length_zipIdx, List.length_map]
      exact h i hi
    exact ⟨_, by rw [List.getElem?_eq_getElem hlt]; rfl⟩
  exact Result.exists_bind_eq_ok hpositions fun _ _ => ⟨_, rfl⟩

theorem exists_lt_mem_positions {s : Seeding} {m : Measure} {seed : Int}
    {points : List (Point Float)} {k : Nat} {all : List Nat} (hpoints : points ≠ [])
    (hk : 0 < k) (h : s.positions m seed points k = .ok all) :
    ∃ i ∈ all, i < points.length := by
  cases s with
  | spread =>
      have hlength := (Result.mapM_eq_ok.mp h).length_eq
      rw [spacedPositions, List.length_map, List.length_range] at hlength
      cases all with
      | nil => exact absurd hlength (Nat.ne_of_gt hk)
      | cons i rest =>
          have hi := lt_of_mem_spreadPositions h List.mem_cons_self
          rw [List.length_map] at hi
          exact ⟨i, List.mem_cons_self, hi⟩
  | plusPlus =>
      rw [positions, drawnPositions, List.isEmpty_eq_false_iff.mpr hpoints] at h
      have hlength := List.length_pos_iff.mpr hpoints
      exact ⟨_, mem_drawMore h List.mem_cons_self, Twister.choose_lt hlength _⟩

theorem centres_ne_nil {s : Seeding} {m : Measure} {seed : Int} {points : List (Point Float)}
    {k : Nat} {centres : List (Point Float)} (hpoints : points ≠ []) (hk : 0 < k)
    (h : s.centres m seed points k = .ok centres) : centres ≠ [] := by
  obtain ⟨all, hall, h⟩ := Result.bind_eq_ok.mp h
  rw [Result.pure_eq_ok] at h
  subst h
  obtain ⟨i, hi, hlt⟩ := exists_lt_mem_positions hpoints hk hall
  have hmem : points[i] ∈ all.filterMap fun i => points[i]? :=
    List.mem_filterMap.mpr ⟨i, hi, List.getElem?_eq_getElem hlt⟩
  exact List.ne_nil_of_mem hmem

end Seeding

theorem seeded_measuredBy (m : Seeding.Measure) (position : P → Option (Point Float))
    (seeding : Seeding) (seed maxIterations : Int) (tolerance : Float) :
    (measuredBy m position seeding seed maxIterations tolerance).Seeded :=
  fun _ _ _ hpoints hk h => Seeding.centres_ne_nil hpoints hk h

end Wayfare.Cluster
