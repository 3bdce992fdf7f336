import Wayfare.Proofs.Plan.DayRoutes

/-! # Days that have a route

Routing reads the fields of places and the options of the planner, looks up
travel times and asks for first centres. If none of these is refused, a day has
a route, whatever its strategy.
-/

namespace Wayfare

open Wayfare.Cluster Wayfare.Geo Wayfare.Route

/-- The fields of a place are of the kinds that routing reads: numbers for the position, a text or
nothing for the category, a number or nothing for the rating, a moment or nothing for the fixed time. -/
structure Place.Legible (p : Place) : Prop where
  position : p.isMeasurable = true
  category : ∃ text, p.readCategory = .ok text
  rating : p.rating.isNull = true ∨ ∃ x, p.rating.asReal = .ok x
  fixedTime : p.fixedTime = .null ∨ ∃ m, p.fixedTime = .moment m

namespace Geo

variable {places : List Place}

theorem checkAll_eq_ok (h : ∀ q ∈ places, q.Legible) : checkAll places = .ok () := by
  have hall : (places.filter Place.isLocated).all Place.isMeasurable = true := by
    rw [List.all_eq_true]
    exact fun q hq => (h q (List.mem_filter.mp hq).1).position
  simp only [checkAll]
  rw [hall, Bool.or_true, if_pos rfl]

theorem checkLegs_eq_ok (h : ∀ q ∈ places, q.Legible) : checkLegs places = .ok () := by
  have hall : (places.zip places.tail).all (fun l => measurable l.1 l.2) = true := by
    rw [List.all_eq_true]
    intro l hl
    obtain ⟨hfirst, hsecond⟩ := List.of_mem_zip hl
    rw [measurable, (h l.1 hfirst).position, (h l.2 (List.mem_of_mem_tail hsecond)).position]
    exact Bool.or_true _
  rw [checkLegs, if_pos hall]

end Geo

theorem Place.Legible.exists_visitBlock {p : Place} (h : p.Legible) :
    ∃ b, Category.visitBlock p = .ok b := by
  rw [Category.visitBlock]
  rcases h.fixedTime with hnone | ⟨m, hm⟩
  · obtain ⟨text, htext⟩ := h.category
    rw [hnone, htext]
    exact ⟨_, rfl⟩
  · rw [hm]
    exact ⟨_, rfl⟩

theorem Place.Legible.exists_keyRating {p : Place} (h : p.Legible) :
    ∃ x, (p.rating.numberOrZero >>= Number.toReal?) = .ok x := by
  rw [Value.numberOrZero]
  split
  next htruthy =>
    rcases h.rating with hnone | ⟨x, hx⟩
    · cases hrating : p.rating <;> simp [hrating, Value.isNull, Value.isTruthy] at hnone htruthy
    · exact ⟨x, hx⟩
  next =>
    have hzero : (Float.ofInt 0).isInf = false := by decide
    refine ⟨Float.ofInt 0, ?_⟩
    simp [bind, Except.bind, Number.toReal?, hzero]

namespace Plan

variable {places : List Place}

theorem checkKeyWeights_eq_ok (h : ∀ q ∈ places, q.Legible) : checkKeyWeights places = .ok () := by
  rw [checkKeyWeights, Result.forM_eq_ok]
  intro q hq
  obtain ⟨text, htext⟩ := (h q hq).category
  obtain ⟨x, hx⟩ := (h q hq).exists_keyRating
  obtain ⟨n, hn, hx⟩ := Result.bind_eq_ok.mp hx
  rw [htext, hn]
  simp only [bind, Except.bind, hx]
  rfl

theorem checkPreferences_eq_ok (h : ∀ q ∈ places, q.Legible) :
    checkPreferences places = .ok () := by
  have hcategories : (places.forM fun q => do let _ ← q.readCategory) = .ok () := by
    rw [Result.forM_eq_ok]
    intro q hq
    obtain ⟨text, htext⟩ := (h q hq).category
    rw [htext]
    rfl
  have hratings : ((places.filter fun q => !q.rating.isNull).forM fun q => do
      let _ ← q.rating.asReal) = .ok () := by
    rw [Result.forM_eq_ok]
    intro q hq
    obtain ⟨hq, hrated⟩ := List.mem_filter.mp hq
    rcases (h q hq).rating with hnone | ⟨x, hx⟩
    · simp [hnone] at hrated
    · rw [hx]
      rfl
  rw [checkPreferences]
  refine Result.bind_eq_ok.mpr ⟨(), hcategories, ?_⟩
  dsimp only
  split
  next => exact hratings
  next => rfl

/-- Stops are grouped if those with a position are measurable and there are first centres for them. -/
theorem exists_clusterOptions {s : Settings} {o : ClusterOptions} {c : Clusterer Stop Float}
    (hc : o.clusterer s = .ok c) {stops : List Stop}
    (hposition : ∀ a ∈ stops, a.place.isLocated = true → a.place.isMeasurable = true)
    (hseeds : ∀ k, 0 < k → k < (stops.filterMap fun a => a.place.location).length →
      ∃ centres, c.seeds (stops.filterMap fun a => a.place.location) k = .ok centres) (k : Int) :
    ∃ a, o.cluster s stops k = .ok a := by
  simp only [ClusterOptions.cluster]
  split
  next => exact ⟨_, rfl⟩
  next =>
    have hall : (stops.filter fun a => a.place.isLocated).all (·.place.isMeasurable) = true := by
      rw [List.all_eq_true]
      exact fun a ha => hposition a (List.mem_filter.mp ha).1 (List.mem_filter.mp ha).2
    have hlocation : c.position = fun a => a.place.location := by
      obtain ⟨seed, iterations, tolerance, rfl⟩ := clusterer_eq_ok hc
      rfl
    rw [← hlocation] at hseeds
    obtain ⟨a, ha⟩ := Cluster.exists_cluster hseeds k
    refine ⟨a, Result.guard_eq_ok.mpr ⟨by simp [hall], ?_⟩⟩
    exact Result.bind_eq_ok.mpr ⟨_, hc, ha⟩

/-- Whatever is asked for the routing of a day has an answer: the fields of the places and the numbers
of the options can be read, all travel times are known, and there are first centres, if the flexible
stops are too many to be left as they are. -/
structure Planner.Ready (s : Settings) (p : Planner) (mode : Value) (anchors flexible : List Stop) :
    Prop where
  legible : ∀ a ∈ anchors ++ flexible, a.place.Legible
  passes : ∃ n, p.routes.maxPasses.asRepeats = .ok n
  stay : ∃ n, p.routes.stayMinutes.asNumber = .ok n
  speed : ∃ speed, readSpeed s (p.routes.modeFor mode) = .ok speed ∧
    ∀ a ∈ anchors ++ flexible, ∀ b ∈ anchors ++ flexible,
      ∃ minutes, travelMinutes ceilReal (Stop.distance s a b) speed = .ok minutes
  congested : ∀ a ∈ anchors ++ flexible, ∀ b ∈ anchors ++ flexible,
    ∃ minutes, travelMinutes ceilReal (Stop.distance s a b) (speedOf s s.congestionMode) = .ok minutes
  centres : Number.int (Int.ofNat flexible.length) ≤ atLeast (.int 1) p.placesPerCluster ∨
    ∃ c, p.clusters.clusterer s = .ok c ∧ ∀ k, 0 < k → k < flexible.length →
      ∃ centres, c.seeds (flexible.filterMap fun a => a.place.location) k = .ok centres

namespace Planner.Ready

variable {s : Settings} {p : Planner} {mode day : Value} {anchors flexible : List Stop}

theorem legible_of_mem (h : p.Ready s mode anchors flexible) {path : List Stop}
    (hpath : ∀ a ∈ path, a ∈ anchors ∨ a ∈ flexible) :
    ∀ q ∈ path.map (·.place), q.Legible := by
  intro q hq
  obtain ⟨a, ha, rfl⟩ := List.mem_map.mp hq
  exact h.legible a (List.mem_append.mpr (hpath a ha))

theorem charted (h : p.Ready s mode anchors flexible) {path : List Stop}
    (hpath : ∀ a ∈ path, a ∈ anchors ∨ a ∈ flexible) : Charted (terrain s) path where
  block a ha := (h.legible a (List.mem_append.mpr (hpath a ha))).exists_visitBlock
  minutes a ha b hb :=
    h.congested a (List.mem_append.mpr (hpath a ha)) b (List.mem_append.mpr (hpath b hb))
  still := by
    have hzero : (0 : Float) ≤ 0 := by decide
    change ∃ m, travelMinutes ceilReal 0 (speedOf s s.congestionMode) = .ok m
    rw [travelMinutes, if_pos (.inl hzero)]
    exact ⟨0, rfl⟩

theorem checkStops_eq_ok (h : p.Ready s mode anchors flexible) (pins : Pins) {path : List Stop}
    (hpath : ∀ a ∈ path, a ∈ anchors ∨ a ∈ flexible) : p.routes.checkStops pins path = .ok () := by
  have hlegible := h.legible_of_mem hpath
  have hmiddle : ∀ q ∈ (splitPinned pins path).2.1.map (·.place), q.Legible :=
    h.legible_of_mem fun a ha => hpath a (Charted.mem_of_mem_splitPinned ha)
  have hblocks : (path.forM fun a => do let _ ← Category.visitBlock a.place) = .ok () := by
    rw [Result.forM_eq_ok]
    intro a ha
    obtain ⟨b, hb⟩ := (h.charted hpath).block a ha
    exact Result.bind_eq_ok.mpr ⟨b, hb, rfl⟩
  rw [RouteOptions.checkStops]
  refine Result.bind_eq_ok.mpr ⟨(), checkAll_eq_ok hlegible, ?_⟩
  split
  next =>
    refine Result.bind_eq_ok.mpr ⟨(), hblocks, ?_⟩
    refine Result.bind_eq_ok.mpr ⟨(), checkKeyWeights_eq_ok hmiddle, ?_⟩
    exact checkPreferences_eq_ok hlegible
  next => rfl

theorem exists_optimize (h : p.Ready s mode anchors flexible) (pins : Pins) {path : List Stop}
    (hpath : ∀ a ∈ path, a ∈ anchors ∨ a ∈ flexible) :
    ∃ ordered, p.routes.optimize s pins path = .ok ordered := by
  rw [RouteOptions.optimize]
  split
  next =>
    exact Result.exists_bind_eq_ok ⟨(), checkLegs_eq_ok (h.legible_of_mem hpath)⟩
      fun _ _ => ⟨path, rfl⟩
  next =>
    apply Result.exists_bind_eq_ok ⟨(), h.checkStops_eq_ok pins hpath⟩
    intro _ _
    have hpasses : ∃ n, p.routes.passes = .ok n := by
      rw [RouteOptions.passes]
      split
      next => exact ⟨1, rfl⟩
      next => exact h.passes
    exact Result.exists_bind_eq_ok hpasses fun n _ =>
      (h.charted hpath).exists_optimize p.routes.strategy pins n

theorem exists_cluster (h : p.Ready s mode anchors flexible)
    (hcentres : ∃ c, p.clusters.clusterer s = .ok c ∧ ∀ k, 0 < k → k < flexible.length →
      ∃ centres, c.seeds (flexible.filterMap fun a => a.place.location) k = .ok centres)
    (k : Int) :
    ∃ a, p.clusterMeasured s flexible k = .ok a := by
  obtain ⟨c, hc, hseeds⟩ := hcentres
  have hposition : ∀ a ∈ flexible, a.place.isMeasurable = true := fun a ha =>
    (h.legible a (List.mem_append_right _ ha)).position
  have hany : flexible.any (fun a => a.place.isLocated && !a.place.isMeasurable) = false := by
    rw [List.any_eq_false]
    intro a ha
    simp [hposition a ha]
  obtain ⟨a, ha⟩ := exists_clusterOptions hc (fun a ha _ => hposition a ha)
    (fun k hk hlt => hseeds k hk (Nat.lt_of_lt_of_le hlt (List.length_filterMap_le _ _))) k
  exact ⟨a, Result.guard_eq_ok.mpr ⟨by simp [hany], ha⟩⟩

theorem answers_router (h : p.Ready s mode anchors flexible) :
    (p.router s).Answers anchors flexible where
  cluster := h.centres.imp_right h.exists_cluster
  arrange pins _ hpath := h.exists_optimize pins hpath

theorem exists_annotate (h : p.Ready s mode anchors flexible) {meter : Meter Stop Float}
    (hmeter : p.routes.meter s mode = .ok meter) (raw : Option Float) {path : List Stop}
    (hpath : ∀ a ∈ path, a ∈ anchors ∨ a ∈ flexible) :
    ∃ route, annotate meter day raw path = .ok route := by
  obtain ⟨speed, hspeed, hminutes⟩ := h.speed
  obtain ⟨speed', hspeed', hmeter⟩ := Result.bind_eq_ok.mp hmeter
  obtain ⟨stay, _, hmeter⟩ := Result.bind_eq_ok.mp hmeter
  rw [Result.pure_eq_ok] at hmeter
  cases hspeed.symm.trans hspeed'
  subst hmeter
  refine Result.exists_bind_eq_ok ?_ fun segments _ => ⟨_, rfl⟩
  apply Result.exists_mapM_eq_ok
  intro l hl
  obtain ⟨hfirst, hsecond⟩ := List.of_mem_zip hl
  have hfirst := List.mem_append.mpr (hpath l.1 hfirst)
  have hsecond := List.mem_append.mpr (hpath l.2 (List.mem_of_mem_tail hsecond))
  exact Result.exists_bind_eq_ok (hminutes l.1 hfirst l.2 hsecond) fun minutes _ => ⟨_, rfl⟩

/-- A day that is ready has a route. -/
theorem exists_routeStops (h : p.Ready s mode anchors flexible)
    (hflexible : (flexible.map (·.visit)).Nodup) :
    ∃ route, p.routeStops s mode day anchors flexible = .ok route := by
  have hlegible : ∀ q ∈ (anchors ++ flexible).map (·.place), q.Legible :=
    h.legible_of_mem fun a ha => List.mem_append.mp ha
  have hfaithful := faithful_router s p hflexible
  apply Result.exists_bind_eq_ok ⟨(), checkAll_eq_ok hlegible⟩
  intro _ _
  apply Result.exists_bind_eq_ok (exists_orderDay hfaithful h.answers_router)
  intro ordered hordered
  have hpath : ∀ a ∈ ordered, a ∈ anchors ∨ a ∈ flexible := fun a ha =>
    List.mem_append.mp ((orderDay_keeps hfaithful hordered).1.mem_iff.mp ha)
  have hmeter : ∃ meter, p.routes.meter s mode = .ok meter := by
    obtain ⟨speed, hspeed, _⟩ := h.speed
    exact Result.exists_bind_eq_ok ⟨speed, hspeed⟩ fun _ _ =>
      Result.exists_bind_eq_ok h.stay fun _ _ => ⟨_, rfl⟩
  apply Result.exists_bind_eq_ok hmeter
  intro meter hmeter
  exact h.exists_annotate hmeter _ hpath

end Planner.Ready

end Plan

end Wayfare
