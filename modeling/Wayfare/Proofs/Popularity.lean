import Mathlib
import Wayfare.Proofs.Number
import Wayfare.Proofs.SortByKey
import Wayfare.Proofs.Success
import Wayfare.Shortlist

/-! # Popularity

Places are ranked by their numbers of reviews and then by their ratings. If these
are finite numbers or absent, any places can be ranked, and sorting them by their
popularity puts the most popular in front.
-/

namespace Wayfare

open Wayfare.Category

/-- Where a place stands among others: by its number of reviews, then by its rating, each zero if it is
absent. -/
def Place.rank (p : Place) : ℚ ×ₗ ℚ :=
  toLex (p.reviewCount.quantity, p.rating.quantity)

/-- A place whose rating and number of reviews are finite numbers or absent. -/
structure Place.Rated (p : Place) : Prop where
  rating : p.rating = .null ∨ p.rating.IsFinite
  reviews : p.reviewCount = .null ∨ p.reviewCount.IsFinite

/-- The most popular of some places: as many as are kept, or all of them. None stands before one of a
higher rank, those of one rank are the first ones, and none that is left out has a higher rank than one that
is kept. -/
structure MostPopular (kept : Nat) (given best : List Place) : Prop where
  length_eq : best.length = min kept given.length
  descending : best.Pairwise fun p q => q.rank ≤ p.rank
  ties : ∀ r, (best.filter fun p => decide (p.rank = r)) <+: given.filter fun p => decide (p.rank = r)
  optimal : ∃ left, (best ++ left).Perm given ∧ ∀ p ∈ best, ∀ q ∈ left, q.rank ≤ p.rank

namespace Selector

/-! ## Order -/

theorem given_or_zero {v zero : Value} (hv : v = .null ∨ v.IsFinite) (hzero : zero.IsFinite)
    (h : zero.quantity = 0) : (if v.isTruthy then v else zero).IsFinite ∧
      (if v.isTruthy then v else zero).quantity = v.quantity := by
  split
  next htruthy =>
    refine ⟨hv.resolve_left ?_, rfl⟩
    rintro rfl
    cases htruthy
  next hfalsy => exact ⟨hzero, by rw [h, Value.quantity_eq_zero (by simpa using hfalsy)]⟩

theorem popularity_reviews {p : Place} (h : p.Rated) :
    (popularity p).1.IsFinite ∧ (popularity p).1.quantity = p.reviewCount.quantity :=
  given_or_zero h.reviews ⟨_, rfl, trivial⟩ (Value.quantity_eq_zero rfl)

theorem popularity_rating {p : Place} (h : p.Rated) :
    (popularity p).2.IsFinite ∧ (popularity p).2.quantity = p.rating.quantity :=
  given_or_zero h.rating ⟨_, rfl, by decide +kernel, by decide +kernel⟩
    (Value.quantity_eq_zero (by decide +kernel))

/-- A place is less popular than another exactly if it has the lower rank. -/
theorem lessPopular_iff {p q : Place} (hp : p.Rated) (hq : q.Rated) :
    lessPopular (popularity p) (popularity q) = true ↔ p.rank < q.rank := by
  obtain ⟨hpReviews, hpCount⟩ := popularity_reviews hp
  obtain ⟨hqReviews, hqCount⟩ := popularity_reviews hq
  obtain ⟨hpRating, hpStars⟩ := popularity_rating hp
  obtain ⟨hqRating, hqStars⟩ := popularity_rating hq
  rw [lessPopular, Bool.or_eq_true, Bool.and_eq_true, Bool.not_eq_true', ← Bool.not_eq_true,
    Value.isBelow_iff hpReviews hqReviews, Value.isBelow_iff hqReviews hpReviews,
    Value.isBelow_iff hpRating hqRating, hpCount, hqCount, hpStars, hqStars, Place.rank, Place.rank,
    Prod.Lex.toLex_lt_toLex]
  dsimp only
  constructor
  · rintro (hlt | ⟨hle, hlt⟩)
    · exact .inl hlt
    · exact (lt_or_eq_of_le (not_lt.mp hle)).imp id fun heq => ⟨heq, hlt⟩
  · rintro (hlt | ⟨heq, hlt⟩)
    · exact .inl hlt
    · exact .inr ⟨heq.not_gt, hlt⟩

theorem sortedByKey_byPopularity {places : List Place} (h : ∀ p ∈ places, p.Rated) :
    SortedByKey (fun p => OrderDual.toDual p.rank) places (byPopularity places) := by
  apply sortedByKey_mergeSort
  intro p hp q hq
  rw [Bool.eq_iff_iff, Bool.not_eq_true', ← Bool.not_eq_true, lessPopular_iff (h p hp) (h q hq), not_lt,
    decide_eq_true_iff, OrderDual.toDual_le_toDual]

/-- The first of the places in the order of their popularity are the most popular. -/
theorem mostPopular_take {places : List Place} (h : ∀ p ∈ places, p.Rated) (kept : Nat) :
    MostPopular kept places ((byPopularity places).take kept) := by
  have hsorted := sortedByKey_byPopularity h
  have hdescending : (byPopularity places).Pairwise fun p q => q.rank ≤ p.rank := hsorted.sorted
  refine ⟨?_, hdescending.sublist (List.take_sublist _ _), fun r => ?_, (byPopularity places).drop kept,
    ?_, ?_⟩
  · rw [List.length_take, hsorted.perm.length_eq]
  · simpa using hsorted.filter_take_prefix kept (OrderDual.toDual r)
  · rw [List.take_append_drop]
    exact hsorted.perm
  · rw [← List.take_append_drop kept (byPopularity places), List.pairwise_append] at hdescending
    exact hdescending.2.2

/-! ## Places that can be ranked -/

theorem comparable_of_isFinite {v w : Value} (hv : v.IsFinite) (hw : w.IsFinite) :
    v.comparable w = true := by
  obtain ⟨_, hv, -⟩ := hv
  obtain ⟨_, hw, -⟩ := hw
  cases v with
  | null | text | list | record | moment => cases hv
  | bool | int | real => simp [Value.comparable, hv, hw]

theorem areComparable_of_isFinite {values : List Value} (h : ∀ v ∈ values, v.IsFinite) :
    Value.areComparable values = true := by
  induction values with
  | nil => rfl
  | cons v rest ih =>
      obtain ⟨hv, hrest⟩ := List.forall_mem_cons.mp h
      cases rest with
      | nil => rfl
      | cons w rest =>
          rw [Value.areComparable, comparable_of_isFinite hv (hrest w List.mem_cons_self), ih hrest]
          rfl

theorem areRankable_of_rated {places : List Place} (h : ∀ p ∈ places, p.Rated) :
    areRankable places = true := by
  rw [areRankable, List.map_map, Bool.and_eq_true]
  constructor
  · apply areComparable_of_isFinite
    intro v hv
    obtain ⟨p, hp, rfl⟩ := List.mem_map.mp hv
    exact (popularity_reviews (h p hp)).1
  · simp only [List.all_map, List.all_eq_true, Function.comp_apply, Bool.or_eq_true]
    exact fun p hp q hq =>
      .inr (comparable_of_isFinite (popularity_rating (h p hp)).1 (popularity_rating (h q hq)).1)

theorem checkStyles_of_rated {p : Place} (h : p.Rated) (styles : List Style) :
    checkStyles p styles = .ok () := by
  rw [checkStyles]
  split
  next =>
    obtain ⟨a, ha⟩ : ∃ a, p.rating.numberOrZero = .ok a := by
      obtain hnull | ⟨a, ha, -⟩ := h.rating
      · exact ⟨_, by rw [hnull]; rfl⟩
      · rw [Value.numberOrZero]
        split
        · exact ⟨a, by rw [Value.asNumber, ha]; rfl⟩
        · exact ⟨_, rfl⟩
    rw [ha]
    rfl
  next => rfl

end Selector

end Wayfare
