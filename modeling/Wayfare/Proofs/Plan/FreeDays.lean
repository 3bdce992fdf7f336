import Mathlib.Algebra.Order.BigOperators.Group.List
import Mathlib.Algebra.Order.Field.Basic
import Mathlib.Algebra.Order.Field.Rat
import Mathlib.Data.Rat.Floor
import Wayfare.Proofs.Plan.Routing
import Wayfare.Proofs.Route.Annotation
import Wayfare.Proofs.Route.Improvement

/-! # Days without fixed stops

Clusters may lead to a longer order than the given one. Such an order is given
up for the given one, which arranging does not make longer; so a day without
fixed stops is never longer than its stops as they were given.
-/

namespace Wayfare

open Wayfare.Cluster Wayfare.Geo Wayfare.Route

variable {P α : Type} [Field α] [LinearOrder α] [IsStrictOrderedRing α]

namespace Route

theorem length_nonneg {leg : P → P → α} (hleg : ∀ a b, 0 ≤ leg a b) (path : List P) :
    0 ≤ length leg path := by
  rw [length, total_eq_sum]
  apply List.sum_nonneg
  intro km hkm
  obtain ⟨l, _, rfl⟩ := List.mem_map.mp hkm
  exact hleg l.1 l.2

/-- The bounds of the saved share do not show where the rate is a share itself. -/
theorem Annotated.efficiency_eq {route : Annotated P α} (hlow : 0 ≤ route.rate)
    (hhigh : route.rate ≤ 1) : route.efficiency = 1 - route.rate := by
  rw [efficiency_eq_max_min, min_eq_right (sub_le_self 1 hlow), max_eq_right (sub_nonneg.mpr hhigh)]

/-- A route that is no longer than its raw length takes a share of it, and the rest is saved. -/
theorem annotate_rate_le_one {m : Meter P α} {day : Value} {raw : α} {stops : List P}
    {route : Annotated P α} (h : annotate m day (some raw) stops = .ok route)
    (hleg : ∀ a b, 0 ≤ m.leg a b) (hshorter : length m.leg stops ≤ raw) :
    route.rate ≤ 1 ∧ (0 < route.rawKm → route.efficiency = 1 - route.rate) := by
  obtain ⟨_, hkm, hraw, hrate⟩ := annotate_eq_ok h
  rw [Option.getD_some] at hraw
  have hle : route.km ≤ route.rawKm := by rwa [hkm, hraw]
  have hkm_nonneg : 0 ≤ route.km := by
    rw [hkm]
    exact length_nonneg hleg stops
  by_cases hpos : 0 < route.rawKm
  · rw [if_pos hpos] at hrate
    have hlow : 0 ≤ route.rate := hrate ▸ div_nonneg hkm_nonneg hpos.le
    have hhigh : route.rate ≤ 1 := hrate ▸ (div_le_one hpos).mpr hle
    exact ⟨hhigh, fun _ => Annotated.efficiency_eq hlow hhigh⟩
  · rw [if_neg hpos] at hrate
    exact ⟨hrate.le, fun h => absurd h hpos⟩

end Route

namespace Plan

/-- Every path can be arranged, and no path gets longer by that. -/
def Router.Shortens (r : Router P α) : Prop :=
  ∀ pins path, ∃ ordered, r.arrange pins path = .ok ordered ∧ length r.leg ordered ≤ length r.leg path

variable {r : Router P α} {flexible : List P}

omit [IsStrictOrderedRing α] in
/-- A day without fixed stops has an order that is no longer than its stops as they were given, whatever
order the clusters suggest. -/
theorem Router.Shortens.exists_orderFreely (hshortens : r.Shortens) (flexible clustered : List P) :
    ∃ ordered, orderFreely r flexible clustered = .ok ordered ∧
      length r.leg ordered ≤ length r.leg flexible := by
  obtain ⟨improved, himproved, _⟩ := hshortens {} clustered
  rw [orderFreely, himproved, Result.ok_bind]
  by_cases hlonger : length r.leg flexible < length r.leg improved
  · rw [if_pos hlonger]
    exact hshortens {} flexible
  · rw [if_neg hlonger]
    exact ⟨improved, rfl, not_lt.mp hlonger⟩

variable [BEq α]

omit [IsStrictOrderedRing α] in
theorem Router.Shortens.exists_orderDay (hshortens : r.Shortens)
    (hcluster : Number.int (Int.ofNat flexible.length) ≤ atLeast (.int 1) r.stopsPerCluster ∨
      ∀ k, ∃ a, r.cluster flexible k = .ok a) :
    ∃ ordered, orderDay r [] flexible = .ok ordered ∧
      length r.leg ordered ≤ length r.leg flexible := by
  have hanswers : r.Answers [] flexible :=
    ⟨hcluster, fun pins path _ => (hshortens pins path).imp fun _ h => h.1⟩
  obtain ⟨clustered, hclustered⟩ := exists_orderByClusters hanswers none
  obtain ⟨ordered, hordered, hle⟩ := hshortens.exists_orderFreely flexible clustered
  exact ⟨ordered, Result.bind_eq_ok.mpr ⟨clustered, hclustered, hordered⟩, hle⟩

/-- The two strategies by reversals arrange every path, and make none longer. -/
theorem Router.shortens_of_optimize {t : Terrain P α} {strategy : Strategy} {maxPasses : Int}
    (hleg : r.leg = t.leg)
    (harrange : ∀ pins path, r.arrange pins path = Route.optimize t strategy pins maxPasses path)
    (hstrategy : strategy = .distance ∨ strategy = .inputOrder)
    (hsymm : ∀ a b, t.leg a b = t.leg b a) (hslack : 0 ≤ t.slack) : r.Shortens := by
  intro pins path
  rw [harrange, hleg]
  exact exists_optimize_le hstrategy hsymm hslack pins maxPasses path

/-- A day without fixed stops has a route that is no longer than its stops in the order in which they
were given, by either strategy of reversals and whatever groups the stops are taken in. So its rate is
at most one, and the share that it saves is the rest. -/
theorem routeDay_never_longer {t : Terrain P α} {strategy : Strategy} {maxPasses : Int}
    {m : Meter P α} (hleg : r.leg = t.leg)
    (harrange : ∀ pins path, r.arrange pins path = Route.optimize t strategy pins maxPasses path)
    (hstrategy : strategy = .distance ∨ strategy = .inputOrder)
    (hsymm : ∀ a b, t.leg a b = t.leg b a) (hnonneg : ∀ a b, 0 ≤ t.leg a b) (hslack : 0 ≤ t.slack)
    (hmeter : m.leg = t.leg) (hminutes : ∀ km, 0 ≤ km → ∃ n, m.minutes km = .ok n)
    (hcluster : Number.int (Int.ofNat flexible.length) ≤ atLeast (.int 1) r.stopsPerCluster ∨
      ∀ k, ∃ a, r.cluster flexible k = .ok a) (day : Value) :
    ∃ route, routeDay r (.ok m) day [] flexible = .ok route ∧
      route.km = length t.leg route.stops ∧ route.km ≤ length t.leg flexible ∧
      route.rawKm = length t.leg flexible ∧ route.rate ≤ 1 ∧
      (0 < route.rawKm → route.efficiency = 1 - route.rate) := by
  have hshortens := r.shortens_of_optimize hleg harrange hstrategy hsymm hslack
  obtain ⟨ordered, hordered, hle⟩ := hshortens.exists_orderDay hcluster
  rw [hleg] at hle
  have hmetered : ∀ l ∈ legs ordered, ∃ n, m.minutes (m.leg l.1 l.2) = .ok n := by
    intro l _
    rw [hmeter]
    exact hminutes _ (hnonneg l.1 l.2)
  obtain ⟨route, hroute⟩ :
      ∃ route, annotate m day (some (length t.leg flexible)) ordered = .ok route :=
    exists_annotate hmetered
  obtain ⟨hstops, hkm, hraw, _⟩ := annotate_eq_ok hroute
  have hrate := annotate_rate_le_one hroute (by rwa [hmeter]) (by rwa [hmeter])
  subst hstops
  rw [hmeter] at hkm
  refine ⟨route, ?_, hkm, hkm.trans_le hle, hraw, hrate⟩
  refine Result.bind_eq_ok.mpr ⟨route.stops, hordered, ?_⟩
  rw [List.nil_append, hleg]
  exact hroute

/-- Four stops on a line, given to and fro and more than a cluster holds. -/
theorem routeDay_never_longer_line :
    let t : Terrain ℚ ℚ :=
      { leg := fun a b => |a - b|
        slack := 1 / 1000000000
        same := fun a b => a == b
        walkable := fun _ _ => false
        block := fun _ => .ok .morning
        minutes := fun km => travelMinutes (fun x => .ok ⌈x⌉) km 20
        congestion := fun _ => 1
        congestedAbove := 1
        rating := fun _ => none
        keyWeight := fun _ => 0
        sameCategory := fun _ _ => true
        lengthWeight := 1
        timeWeight := 1
        preferenceWeight := 1
        switchCost := 1 }
    let c : Clusterer ℚ ℚ :=
      { position := fun x => some ⟨x, 0⟩
        gap := fun a b => |a.lat - b.lat|
        maxIterations := 100
        tolerance := 1 / 1000
        seeds := fun points k => .ok (points.take k) }
    let r : Router ℚ ℚ :=
      { leg := t.leg
        slack := t.slack
        position := c.position
        gap := c.gap
        cluster := cluster c
        arrange := fun pins path => Route.optimize t .distance pins 10 path
        stopsPerCluster := .int 2 }
    let m : Meter ℚ ℚ :=
      { leg := t.leg
        minutes := t.minutes
        nearness := nearness 1 5
        stayMinutes := .int 90
        mode := .text "car" }
    ∃ route, routeDay r (.ok m) (.int 1) [] [1, 9, 2, 8] = .ok route ∧
      route.km ≤ 21 ∧ route.rawKm = 21 ∧ route.efficiency = 1 - route.rate := by
  intro t c r m
  have hsymm : ∀ a b, t.leg a b = t.leg b a := abs_sub_comm
  have hnonneg : ∀ a b, 0 ≤ t.leg a b := fun a b => abs_nonneg (a - b)
  have hslack : 0 ≤ t.slack := by norm_num [t]
  have hminutes : ∀ km, 0 ≤ km → ∃ n, m.minutes km = .ok n := by
    intro km _
    simp only [m, t, travelMinutes]
    split
    next => exact ⟨0, rfl⟩
    next => exact ⟨_, rfl⟩
  have hcluster : ∀ k, ∃ a, r.cluster [1, 9, 2, 8] k = .ok a := by
    intro k
    exact exists_cluster (fun k _ _ => ⟨_, rfl⟩) k
  obtain ⟨route, hroute, _, hkm, hraw, _, hefficiency⟩ :=
    routeDay_never_longer (r := r) (m := m) rfl (fun _ _ => rfl)
      (.inl rfl) hsymm hnonneg hslack rfl hminutes (.inr hcluster) (.int 1)
  have hlength : length t.leg [1, 9, 2, 8] = 21 := by
    decide +kernel
  rw [hlength] at hkm hraw
  exact ⟨route, hroute, hkm, hraw, hefficiency (by rw [hraw]; norm_num)⟩

end Plan

end Wayfare
