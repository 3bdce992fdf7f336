import Mathlib.Order.OrderDual
import Wayfare.Proofs.RealOrder
import Wayfare.Proofs.RunSort
import Wayfare.Proofs.SortByKey
import Wayfare.Proofs.Success

/-! # Rankings

A ranking has all places that were scored. If their scores are numbers, it goes
from the highest score to the lowest and keeps places with one score as they
stood, so that its first places are the best ones.
-/

namespace Wayfare.Score

open RealOrder

/-- The best places under a score: none has a higher one before it or left out, and places with one score
are the first of those that are offered. -/
structure Leads (score : Place → Float) (offered best : List Place) : Prop where
  descending : best.Pairwise fun p q => score q ≤ score p
  ties : ∀ x, (best.filter fun p => score p == x) <+: offered.filter fun p => score p == x
  optimal : ∀ p ∈ best, ∀ q ∈ offered, q ∉ best → score q ≤ score p

/-- So many of the offered places as are asked for, or all of them; the best ones if their scores are
numbers. -/
structure TopOf (score : Place → Float) (cut : Nat) (offered best : List Place) : Prop where
  length_eq : best.length = min cut offered.length
  subperm : best.Subperm offered
  leads : (∀ p ∈ offered, IsNumber (score p)) → Leads score offered best

/-- The score of a place beside some reference places, zero when there is none. -/
def scoreOf (s : Settings) (refs : List Place) (p : Place) : Float :=
  match comprehensive (rulesOf s) logAfter (appeal s refs p) with
  | .ok x => x
  | .error _ => 0

/-- Scores that are numbers are ranked from the highest to the lowest. -/
theorem sortedByKey_ranked {scores : List (Breakdown Place Float)}
    (hnumber : ∀ a ∈ scores, IsNumber a.total) :
    SortedByKey (fun a => OrderDual.toDual (place a.total)) scores (ranked scores) := by
  have hall : scores.all (fun a => a.total == a.total) = true := List.all_eq_true.mpr hnumber
  rw [ranked, hall, Bool.true_or, if_pos rfl]
  apply sortedByKey_mergeSort
  intro a ha b hb
  rw [decide_eq_decide, OrderDual.toDual_le_toDual, lt_iff (hnumber a ha) (hnumber b hb), not_lt]

/-- Places in the order of their scores have the best in front. -/
theorem leads_take {score : Place → Float} {offered ordered : List Place}
    (h : SortedByKey (fun p => OrderDual.toDual (place (score p))) offered ordered)
    (hnumber : ∀ p ∈ offered, IsNumber (score p)) (n : Nat) :
    Leads score offered (ordered.take n) := by
  have hmem : ∀ p ∈ ordered.take n, p ∈ offered := fun p hp =>
    h.perm.mem_iff.mp (List.mem_of_mem_take hp)
  have hle {p q : Place} (hp : p ∈ offered) (hq : q ∈ offered)
      (hpq : OrderDual.toDual (place (score p)) ≤ OrderDual.toDual (place (score q))) :
      score q ≤ score p :=
    (le_iff (hnumber q hq) (hnumber p hp)).mpr hpq
  refine ⟨?_, ?_, ?_⟩
  · exact (h.sorted.sublist (List.take_sublist n ordered)).imp_of_mem fun hp hq hpq =>
      hle (hmem _ hp) (hmem _ hq) hpq
  · intro x
    by_cases hx : IsNumber x
    · have hfilter (items : List Place) (hitems : ∀ p ∈ items, p ∈ offered) :
          items.filter (fun p => score p == x) = items.filter fun p =>
            decide (OrderDual.toDual (place (score p)) = OrderDual.toDual (place x)) := by
        apply List.filter_congr
        intro p hp
        rw [Bool.eq_iff_iff, decide_eq_true_iff]
        exact (beq_iff (hnumber p (hitems p hp)) hx).trans OrderDual.toDual_inj.symm
      rw [hfilter _ hmem, hfilter _ fun _ hp => hp]
      exact h.filter_take_prefix n _
    · -- No score is the same as what stands for no number.
      have hnone (items : List Place) : items.filter (fun p => score p == x) = [] :=
        List.filter_eq_nil_iff.mpr fun p _ hpx => hx (isNumber_of_beq hpx).2
      rw [hnone]
      exact List.nil_prefix
  · exact fun p hp q hq hout => hle (hmem p hp) hq (h.le_of_notMem_take hp hq hout)

variable {s : Settings} {refs places : List Place}

theorem ofPlace_eq_ok {p : Place} {score : Breakdown Place Float}
    (h : ofPlace s refs p = .ok score) : score.place = p ∧
      comprehensive (rulesOf s) logAfter (appeal s refs p) = .ok (scoreOf s refs p) ∧
      score.total = scoreOf s refs p := by
  obtain ⟨_, _, h⟩ := Result.bind_eq_ok.mp h
  obtain ⟨_, _, h⟩ := Result.bind_eq_ok.mp h
  obtain ⟨_, _, h⟩ := Result.bind_eq_ok.mp h
  obtain ⟨_, _, h⟩ := Result.bind_eq_ok.mp h
  obtain ⟨_, _, h⟩ := Result.bind_eq_ok.mp h
  obtain ⟨total, htotal, h⟩ := Result.bind_eq_ok.mp h
  rw [Result.pure_eq_ok] at h
  subst h
  have hscore : scoreOf s refs p = total := by rw [scoreOf, htotal]
  exact ⟨rfl, by rw [htotal, hscore], hscore.symm⟩

/-- A ranking has every place that was scored. -/
theorem rankPlaces_perm {ranking : List (Breakdown Place Float)}
    (h : rankPlaces s refs places = .ok ranking) : (ranking.map (·.place)).Perm places := by
  obtain ⟨scores, hscores, rfl⟩ := Result.map_eq_ok.mp h
  have hplaces := Result.map_eq_map_of_forall₂ (f := id)
    (Result.forall₂_of_mapM hscores fun p _ score h => (ofPlace_eq_ok h).1)
  rw [List.map_id] at hplaces
  rw [← hplaces]
  exact (ranked_perm scores).map _

/-- A ranking of numbers is in the order of the scores. -/
theorem sortedByKey_rankPlaces {ranking : List (Breakdown Place Float)}
    (h : rankPlaces s refs places = .ok ranking)
    (hnumber : ∀ p ∈ places, IsNumber (scoreOf s refs p)) :
    SortedByKey (fun p => OrderDual.toDual (place (scoreOf s refs p))) places
      (ranking.map (·.place)) := by
  obtain ⟨scores, hscores, rfl⟩ := Result.map_eq_ok.mp h
  have hplaces := Result.map_eq_map_of_forall₂ (f := id)
    (Result.forall₂_of_mapM hscores fun p _ score h => (ofPlace_eq_ok h).1)
  rw [List.map_id] at hplaces
  have htotal : ∀ a ∈ scores, a.total = scoreOf s refs a.place ∧ a.place ∈ places := by
    intro a ha
    obtain ⟨p, hp, hpa⟩ := Result.exists_of_mem_mapM hscores ha
    obtain ⟨rfl, _, htotal⟩ := ofPlace_eq_ok hpa
    exact ⟨htotal, hp⟩
  have hranked := sortedByKey_ranked fun a ha => by
    rw [(htotal a ha).1]
    exact hnumber _ (htotal a ha).2
  have hmap := hranked.map (f := (·.place)) (fun p => OrderDual.toDual (place (scoreOf s refs p)))
    fun a ha => by rw [(htotal a ha).1]
  rwa [hplaces] at hmap

/-- The best places of a ranking are scored, and they are the top of what was offered. -/
theorem topPlaces_eq_ok {limit : Value} {best : List Place}
    (h : topPlaces s refs places limit = .ok best) :
    ∃ cut, limit.asCut = .ok cut ∧
      (∀ p ∈ places, comprehensive (rulesOf s) logAfter (appeal s refs p) =
        .ok (scoreOf s refs p)) ∧
      TopOf (scoreOf s refs) cut places best := by
  obtain ⟨ranking, hranking, h⟩ := Result.bind_eq_ok.mp h
  obtain ⟨cut, hcut, h⟩ := Result.bind_eq_ok.mp h
  rw [Result.pure_eq_ok, List.map_take] at h
  subst h
  have hperm := rankPlaces_perm hranking
  refine ⟨cut, hcut, ?_, ?_, (List.take_sublist _ _).subperm.trans hperm.subperm, ?_⟩
  · obtain ⟨scores, hscores, _⟩ := Result.map_eq_ok.mp hranking
    intro p hp
    obtain ⟨score, _, hscore⟩ := Result.exists_eq_ok_of_mapM hscores hp
    exact (ofPlace_eq_ok hscore).2.1
  · rw [List.length_take, hperm.length_eq]
  · exact fun hnumber => leads_take (sortedByKey_rankPlaces hranking hnumber) hnumber cut

theorem topPlaces_subset {limit : Value} {best : List Place}
    (h : topPlaces s refs places limit = .ok best) : best ⊆ places := by
  obtain ⟨_, _, _, htop⟩ := topPlaces_eq_ok h
  exact htop.subperm.subset

/-! ## Whether places have scores -/

/-- If a place has a position at all, distances can be taken to it. -/
def WellPlaced (p : Place) : Prop :=
  p.isLocated = true → p.isMeasurable = true

theorem WellPlaced.of_unlocated {p : Place} (h : p.isLocated = false) : WellPlaced p := by
  intro hlocated
  rw [h] at hlocated
  exact absurd hlocated Bool.false_ne_true

/-- The fields of a place are of the kinds that a score reads: numbers for the position if one is given, a
text or nothing for the category, and numbers or nothing for the reviews and the rating. -/
structure Scorable (p : Place) : Prop where
  position : WellPlaced p
  category : ∃ text, p.readCategory = .ok text
  reviewCount : ∃ count, readReviews p.reviewCount = .ok count
  rating : ∃ stars, readRating p.rating = .ok stars

/-- No part of a score is divided by zero. -/
structure Divisible (s : Settings) : Prop where
  logBase : (s.reviewLogBase == 0) = false
  maxRating : (s.maxRating == 0) = false
  span : (s.farDistance - s.nearDistance == 0) = false

namespace Divisible

variable (hs : Divisible s) (a : Appeal Float)
include hs

theorem exists_base : ∃ x, base (rulesOf s) logAfter a = .ok x := by
  have hreviews : ∃ x, reviews (rulesOf s) logAfter a.reviewCount = .ok x := by
    rw [reviews]
    split
    next => exact ⟨0, rfl⟩
    next =>
      obtain ⟨q, hq⟩ := exists_divide (logAfter a.reviewCount) hs.logBase
      exact ⟨_, Result.map_eq_ok.mpr ⟨q, hq, rfl⟩⟩
  have hrating : ∃ x, rating (rulesOf s) a.rating = .ok x := by
    cases a.rating with
    | none => exact ⟨0, rfl⟩
    | some r =>
        rw [rating]
        split
        next => exact ⟨0, rfl⟩
        next =>
          obtain ⟨q, hq⟩ := exists_divide r hs.maxRating
          exact ⟨_, Result.map_eq_ok.mpr ⟨q, hq, rfl⟩⟩
  exact Result.exists_bind_eq_ok hreviews fun _ _ =>
    Result.exists_bind_eq_ok hrating fun _ _ => ⟨_, rfl⟩

theorem exists_distancePart : ∃ x, distancePart (rulesOf s) a = .ok x := by
  rw [distancePart]
  split
  next => exact ⟨0, rfl⟩
  next =>
    rw [distance]
    split
    next => exact ⟨1, rfl⟩
    next =>
      split
      next => exact ⟨0, rfl⟩
      next =>
        obtain ⟨q, hq⟩ := exists_divide (closest a - s.nearDistance) hs.span
        exact ⟨_, Result.map_eq_ok.mpr ⟨q, hq, rfl⟩⟩

theorem exists_comprehensive : ∃ x, comprehensive (rulesOf s) logAfter a = .ok x :=
  Result.exists_bind_eq_ok (hs.exists_distancePart a) fun _ _ =>
    Result.exists_bind_eq_ok (hs.exists_base a) fun _ _ => ⟨_, rfl⟩

end Divisible

theorem exists_ofPlace {p : Place} (hs : Divisible s) (hp : Scorable p)
    (hrefs : ∀ r ∈ refs, WellPlaced r) : ∃ score, ofPlace s refs p = .ok score := by
  have hmeasurable : refs.all (Geo.measurable p) = true := by
    rw [List.all_eq_true]
    intro r hr
    rw [Geo.measurable, Bool.or_eq_true, Bool.not_eq_true', Bool.and_eq_false_iff, Bool.and_eq_true]
    cases hlocated : p.isLocated with
    | false => exact .inl (.inl rfl)
    | true =>
        cases hr' : r.isLocated with
        | false => exact .inl (.inr rfl)
        | true => exact .inr ⟨hp.position hlocated, hrefs r hr hr'⟩
  have hcheck : Geo.checkRefs p refs = .ok () := by rw [Geo.checkRefs, if_pos hmeasurable]
  have hquality : ∃ u, checkQuality p = .ok u :=
    Result.exists_bind_eq_ok hp.reviewCount fun _ _ =>
      Result.exists_bind_eq_ok hp.rating fun _ _ => ⟨(), rfl⟩
  have hbreakdown : ∃ score, breakdown (rulesOf s) logAfter p (appeal s refs p) = .ok score :=
    Result.exists_bind_eq_ok (hs.exists_base _) fun _ _ =>
      Result.exists_bind_eq_ok (hs.exists_distancePart _) fun _ _ =>
        Result.exists_bind_eq_ok (hs.exists_comprehensive _) fun _ _ => ⟨_, rfl⟩
  exact Result.exists_bind_eq_ok ⟨(), hcheck⟩ fun _ _ =>
    Result.exists_bind_eq_ok hquality fun _ _ =>
      Result.exists_bind_eq_ok hp.category fun _ _ => hbreakdown

theorem exists_topPlaces {limit : Value} (hlimit : ∃ cut, limit.asCut = .ok cut) (hs : Divisible s)
    (hplaces : ∀ p ∈ places, Scorable p) (hrefs : ∀ r ∈ refs, WellPlaced r) :
    ∃ best, topPlaces s refs places limit = .ok best := by
  obtain ⟨scores, hscores⟩ := Result.exists_mapM_eq_ok fun p hp =>
    exists_ofPlace hs (hplaces p hp) hrefs
  have hranking : rankPlaces s refs places = .ok (ranked scores) :=
    Result.map_eq_ok.mpr ⟨scores, hscores, rfl⟩
  exact Result.exists_bind_eq_ok ⟨_, hranking⟩ fun _ _ =>
    Result.exists_bind_eq_ok hlimit fun _ _ => ⟨_, rfl⟩

end Wayfare.Score
