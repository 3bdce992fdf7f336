import Wayfare.Plan.Planner
import Wayfare.Proofs.Plan.Routing
import Wayfare.Proofs.Route.Strategies

/-! # The routes of days

A planned day loses none of its stops: those with a position are on its route,
with the sites of its bookings in the order of their starts, and the others are
listed beside it.
-/

namespace Wayfare.Plan

open Wayfare.Cluster Wayfare.Geo Wayfare.Route

/-! ## The parts of a planner's router -/

theorem distinguished_terrain (s : Settings) {stops : List Stop}
    (h : (stops.map (·.visit)).Nodup) : Distinguished (terrain s) stops where
  nodup := h.of_map
  same_iff a ha b hb := by
    rw [terrain, beq_iff_eq]
    exact ⟨fun heq => List.inj_on_of_nodup_map h ha hb heq, fun heq => heq ▸ rfl⟩

theorem clusterer_eq_ok {s : Settings} {o : ClusterOptions} {c : Clusterer Stop Float}
    (h : o.clusterer s = .ok c) : ∃ seed iterations tolerance,
      c = onGlobe s (fun a => a.place.location) o.seeding seed iterations tolerance := by
  rw [ClusterOptions.clusterer] at h
  -- Whatever the seed is read from, the rest is the same.
  split at h
  all_goals
    obtain ⟨seed, _, h⟩ := Result.bind_eq_ok.mp h
    obtain ⟨iterations, _, h⟩ := Result.bind_eq_ok.mp h
    obtain ⟨tolerance, _, h⟩ := Result.bind_eq_ok.mp h
    rw [Result.pure_eq_ok] at h
    exact ⟨seed, iterations, tolerance, h.symm⟩

theorem partitions_clusterOptions {s : Settings} {o : ClusterOptions} {stops : List Stop} {k : Int}
    {a : Assignment Stop Float} (h : o.cluster s stops k = .ok a) : a.Partitions stops := by
  simp only [ClusterOptions.cluster] at h
  split at h
  next =>
    rw [Result.pure_eq_ok] at h
    subst h
    exact partitions_apart _ stops
  next =>
    obtain ⟨_, h⟩ := Result.guard_eq_ok.mp h
    obtain ⟨c, hc, h⟩ := Result.bind_eq_ok.mp h
    obtain ⟨seed, iterations, tolerance, rfl⟩ := clusterer_eq_ok hc
    exact partitions_cluster (seeded_measuredBy _ _ _ _ _ _) h

theorem optimize_keeps {s : Settings} {o : RouteOptions} {pins : Pins}
    {head middle tail ordered : List Stop} (hpins : Pinned pins head tail)
    (hmiddle : (middle.map (·.visit)).Nodup)
    (h : o.optimize s pins (head ++ middle ++ tail) = .ok ordered) :
    Rearranged head tail middle ordered := by
  rw [RouteOptions.optimize] at h
  split at h
  next =>
    obtain ⟨_, _, h⟩ := Result.bind_eq_ok.mp h
    rw [Result.pure_eq_ok] at h
    subst h
    exact .refl head tail middle
  next =>
    obtain ⟨_, _, h⟩ := Result.bind_eq_ok.mp h
    obtain ⟨passes, _, h⟩ := Result.bind_eq_ok.mp h
    exact optimize_rearranged hpins (distinguished_terrain s hmiddle) h

theorem faithful_router (s : Settings) (p : Planner) {flexible : List Stop}
    (h : (flexible.map (·.visit)).Nodup) : (p.router s).Faithful flexible where
  cluster k a hcluster := by
    obtain ⟨_, hcluster⟩ := Result.guard_eq_ok.mp hcluster
    exact partitions_clusterOptions hcluster
  arrange pins head middle tail ordered hpins hmiddle harrange := by
    have hnodup : (middle.map (·.visit)).Nodup := by
      obtain ⟨part, hpart, hsub⟩ := hmiddle
      rw [← (hpart.map (·.visit)).nodup_iff]
      exact h.sublist (hsub.map _)
    exact optimize_keeps hpins hnodup harrange

theorem stops_annotate {m : Meter Stop Float} {day : Value} {raw : Option Float}
    {stops : List Stop} {route : Annotated Stop Float} (h : annotate m day raw stops = .ok route) :
    route.stops = stops := by
  obtain ⟨segments, _, h⟩ := Result.bind_eq_ok.mp h
  rw [Result.pure_eq_ok] at h
  rw [← h]

namespace Planner

variable {s : Settings} {p : Planner} {mode day : Value} {anchors flexible : List Stop}

/-- A route of a day has all its stops, each once, and its fixed stops as they stood. -/
theorem routeStops_keeps {route : Annotated Stop Float} (hflexible : (flexible.map (·.visit)).Nodup)
    (h : p.routeStops s mode day anchors flexible = .ok route) :
    route.stops.Perm (anchors ++ flexible) ∧ anchors.Sublist route.stops := by
  obtain ⟨_, _, h⟩ := Result.bind_eq_ok.mp h
  obtain ⟨ordered, hordered, h⟩ := Result.bind_eq_ok.mp h
  obtain ⟨meter, _, h⟩ := Result.bind_eq_ok.mp h
  rw [stops_annotate h]
  exact orderDay_keeps (faithful_router s p hflexible) hordered

end Planner

end Wayfare.Plan
