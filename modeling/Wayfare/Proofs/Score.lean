import Wayfare.Proofs.Decimal.Difference
import Wayfare.Proofs.Number
import Wayfare.Proofs.Numeric
import Wayfare.Proofs.Popularity
import Wayfare.Proofs.RealOrder
import Wayfare.Proofs.Success
import Wayfare.Score

/-! # What a score is worth

In exact numbers every part of a score has a closed form: a share that is cut
off at one, and of the distance a slope between two bounds. So a score lies
between zero and one, and it does not fall when a place is rated higher or
reviewed more often, or when there are more places to be close to. The slope is
only looked at between its bounds, which then are not the same.
-/

namespace Wayfare

/-- A value that is not given is no more than any other; else what the two stand for is compared. -/
def Value.NoMoreThan (v w : Value) : Prop :=
  v = .null ∨ v.quantity ≤ w.quantity

theorem Value.NoMoreThan.max_quantity_le {v w : Value} (h : v.NoMoreThan w) :
    max 0 v.quantity ≤ max 0 w.quantity := by
  rcases h with rfl | hle
  · exact max_le (le_max_left _ _) (le_max_left _ _)
  · exact max_le_max_left 0 hle

theorem Place.value_reviews (p : Place) : p.reviews.value = p.reviewCount.quantity := by
  rw [Place.reviews, Value.quantity]
  cases p.reviewCount.number? with
  | none => exact Int.cast_zero
  | some n => rfl

theorem Place.Rated.isFinite_reviews {p : Place} (h : p.Rated) : p.reviews.IsFinite := by
  rw [Place.reviews]
  rcases h.reviews with hnone | ⟨n, hn, hfinite⟩
  · rw [hnone]
    trivial
  · rw [hn]
    exact hfinite

namespace Score

variable {α : Type}

/-! ## Appeals -/

/-- The appeal of a place with a rating, beside reference places at given gaps. -/
def appealBeside (gap : Place → α) (stars : Option α) (refs : List Place) (p : Place) : Appeal α where
  reviewCount := p.reviews
  rating := stars
  category := p.categoryText
  distances := if p.isLocated then (refs.filter Place.isLocated).map gap else []

theorem appeal_eq_appealBeside (s : Settings) (refs : List Place) (p : Place) :
    appeal s refs p = appealBeside (Geo.distance s.earthRadius p) p.stars? refs p :=
  rfl

variable [Field α] [LinearOrder α] [IsStrictOrderedRing α]

/-- The rating of a place as an exact number, if there is one. -/
def exactStars (p : Place) : Option α :=
  if p.rating.isNull then none else some (p.rating.quantity : α)

def exactAppeal (gap : Place → α) (refs : List Place) (p : Place) : Appeal α :=
  appealBeside gap (exactStars p) refs p

/-- A function of one more than what a number stands for. -/
def exactLogAfter (log : α → α) (n : Number) : α :=
  log ((n.value : α) + 1)

/-- Positive normalisers, and weights that are not below zero and sum to one. -/
structure Rules.Balanced (rules : Rules α) : Prop where
  logBase_pos : 0 < rules.logBase
  maxRating_pos : 0 < rules.maxRating
  distanceWeight_nonneg : 0 ≤ rules.distanceWeight
  qualityWeight_nonneg : 0 ≤ rules.qualityWeight
  diversityWeight_nonneg : 0 ≤ rules.diversityWeight
  weights_sum : rules.distanceWeight + rules.qualityWeight + rules.diversityWeight = 1

variable {rules : Rules α} {log : α → α}

/-! ## Closed forms -/

omit [IsStrictOrderedRing α] in
theorem divide_eq_ok (x : α) {y : α} (hy : y ≠ 0) : divide x y = .ok (x / y) := by
  rw [divide, beq_eq_false_iff_ne.mpr hy]
  rfl

/-- The share of the reviews, up to one. -/
def reviewShare (rules : Rules α) (log : α → α) (a : Appeal α) : α :=
  min 1 (log (max 0 (a.reviewCount.value : α) + 1) / rules.logBase)

/-- The share of the highest rating, up to one. -/
def ratingShare (rules : Rules α) (a : Appeal α) : α :=
  min 1 (max 0 (a.rating.getD 0) / rules.maxRating)

/-- How close a distance is: one up to the near bound, zero from the far one on. -/
def closeness (rules : Rules α) (km : α) : α :=
  if km ≤ max 0 rules.near then 1
  else if rules.far ≤ km then 0 else (rules.far - km) / (rules.far - rules.near)

def closestShare (rules : Rules α) (a : Appeal α) : α :=
  if a.distances.isEmpty then 0 else closeness rules (closest a)

theorem reviews_eq (hrules : rules.Balanced) (hone : log 1 = 0) {a : Appeal α}
    (hcount : a.reviewCount.IsFinite) :
    reviews rules (exactLogAfter log) a.reviewCount = .ok (reviewShare rules log a) := by
  have hzero : a.reviewCount ≤ .int 0 ↔ (a.reviewCount.value : α) ≤ 0 := by
    rw [Number.le_iff (b := .int 0) hcount trivial]
    exact (Rat.cast_nonpos.trans (by rw [Number.value.eq_1, Int.cast_zero])).symm
  rw [reviews, reviewShare]
  split
  next hnone =>
    rw [max_eq_left (hzero.mp hnone), zero_add, hone, zero_div, min_eq_right zero_le_one]
  next hsome =>
    rw [max_eq_right (not_le.mp (mt hzero.mpr hsome)).le, divide_eq_ok _ hrules.logBase_pos.ne']
    exact congrArg Except.ok (atMost_eq_min _ _)

theorem rating_eq (hrules : rules.Balanced) (a : Appeal α) :
    rating rules a.rating = .ok (ratingShare rules a) := by
  rw [ratingShare]
  cases a.rating with
  | none => rw [rating, Option.getD_none, max_self, zero_div, min_eq_right zero_le_one]
  | some x =>
      rw [rating, Option.getD_some]
      split
      next hnone => rw [max_eq_left hnone, zero_div, min_eq_right zero_le_one]
      next hsome =>
        rw [max_eq_right (not_le.mp hsome).le, divide_eq_ok _ hrules.maxRating_pos.ne']
        exact congrArg Except.ok (atMost_eq_min _ _)

/-- Nothing is divided by zero: the slope is looked at only above the near and below the far bound. -/
theorem distance_eq (rules : Rules α) (km : α) : distance rules km = .ok (closeness rules km) := by
  rw [distance, closeness]
  simp only [le_max_iff]
  split
  next => rfl
  next hbeyond =>
    split
    next => rfl
    next hbefore =>
      have hspan : 0 < rules.far - rules.near :=
        sub_pos.mpr ((not_le.mp fun h => hbeyond (.inr h)).trans (not_le.mp hbefore))
      rw [divide_eq_ok _ hspan.ne']
      refine congrArg Except.ok ?_
      dsimp only
      rw [one_sub_div hspan.ne', sub_sub_sub_cancel_right]

theorem distancePart_eq (rules : Rules α) (a : Appeal α) :
    distancePart rules a = .ok (closestShare rules a) := by
  rw [distancePart, closestShare, distance_eq]
  split <;> rfl

/-- The score as a weighted sum of its shares. -/
def exactScore (rules : Rules α) (log : α → α) (a : Appeal α) : α :=
  rules.distanceWeight * closestShare rules a +
    rules.qualityWeight * (0.5 * reviewShare rules log a + 0.5 * ratingShare rules a) +
    rules.diversityWeight * diversity a.category

theorem comprehensive_eq (hrules : rules.Balanced) (hone : log 1 = 0) {a : Appeal α}
    (hcount : a.reviewCount.IsFinite) :
    comprehensive rules (exactLogAfter log) a = .ok (exactScore rules log a) := by
  rw [comprehensive, distancePart_eq, Result.ok_bind, base, reviews_eq hrules hone hcount,
    Result.ok_bind, rating_eq hrules, Result.ok_bind]
  rfl

/-! ## Between zero and one -/

theorem reviewShare_mem (hrules : rules.Balanced) (hlog : MonotoneOn log (Set.Ici 1))
    (hone : log 1 = 0) (a : Appeal α) :
    0 ≤ reviewShare rules log a ∧ reviewShare rules log a ≤ 1 := by
  have hcount : (1 : α) ≤ max 0 (a.reviewCount.value : α) + 1 := by
    linarith [le_max_left 0 (a.reviewCount.value : α)]
  have hnonneg := hlog Set.self_mem_Ici hcount hcount
  rw [hone] at hnonneg
  exact ⟨le_min zero_le_one (div_nonneg hnonneg hrules.logBase_pos.le), min_le_left _ _⟩

theorem ratingShare_mem (hrules : rules.Balanced) (a : Appeal α) :
    0 ≤ ratingShare rules a ∧ ratingShare rules a ≤ 1 :=
  ⟨le_min zero_le_one (div_nonneg (le_max_left _ _) hrules.maxRating_pos.le), min_le_left _ _⟩

theorem closeness_mem (rules : Rules α) (km : α) :
    0 ≤ closeness rules km ∧ closeness rules km ≤ 1 := by
  rw [closeness]
  split
  next => exact ⟨zero_le_one, le_rfl⟩
  next hbeyond =>
    split
    next => exact ⟨le_rfl, zero_le_one⟩
    next hbefore =>
      obtain ⟨-, hnear⟩ := max_lt_iff.mp (not_le.mp hbeyond)
      have hfar := not_le.mp hbefore
      have hspan : 0 < rules.far - rules.near := by linarith
      exact ⟨div_nonneg (by linarith) hspan.le, (div_le_one hspan).mpr (by linarith)⟩

theorem closestShare_mem (rules : Rules α) (a : Appeal α) :
    0 ≤ closestShare rules a ∧ closestShare rules a ≤ 1 := by
  rw [closestShare]
  split
  next => exact ⟨le_rfl, zero_le_one⟩
  next => exact closeness_mem rules _

theorem diversity_mem (category : String) :
    0 ≤ diversity (α := α) category ∧ diversity (α := α) category ≤ 1 := by
  have hweights : ∀ w ∈ categoryWeights (α := α), 0 ≤ w.2 ∧ w.2 ≤ 1 := by
    norm_num [categoryWeights]
  rw [diversity]
  split
  next => exact ⟨le_rfl, zero_le_one⟩
  next =>
    cases hweight : (Category.ofText? category).bind
        fun key => (categoryWeights (α := α)).lookup key with
    | none => norm_num
    | some w =>
        obtain ⟨key, _, hlookup⟩ := Option.bind_eq_some_iff.mp hweight
        obtain ⟨before, after, hlist, _⟩ := List.lookup_eq_some_iff.mp hlookup
        refine hweights (key, w) ?_
        rw [hlist]
        exact List.mem_append_right _ List.mem_cons_self

theorem exactScore_mem (hrules : rules.Balanced) (hlog : MonotoneOn log (Set.Ici 1))
    (hone : log 1 = 0) (a : Appeal α) :
    0 ≤ exactScore rules log a ∧ exactScore rules log a ≤ 1 := by
  obtain ⟨hdistance, hdistance'⟩ := closestShare_mem rules a
  obtain ⟨hreviews, hreviews'⟩ := reviewShare_mem hrules hlog hone a
  obtain ⟨hrating, hrating'⟩ := ratingShare_mem hrules a
  obtain ⟨hdiversity, hdiversity'⟩ := diversity_mem (α := α) a.category
  have := hrules.distanceWeight_nonneg
  have := hrules.qualityWeight_nonneg
  have := hrules.diversityWeight_nonneg
  constructor
  · rw [exactScore]
    positivity
  · calc exactScore rules log a
        ≤ rules.distanceWeight * 1 + rules.qualityWeight * (0.5 * 1 + 0.5 * 1) +
            rules.diversityWeight * 1 := by
          rw [exactScore]
          gcongr
      _ = 1 := by linarith [hrules.weights_sum]

/-! ## Better appeals -/

/-- An appeal is outdone by one of the same category with no fewer reviews, no lower rating and no fewer
distances to reference places. -/
structure Appeal.OutdoneBy (a b : Appeal α) : Prop where
  reviews : max 0 (a.reviewCount.value : α) ≤ max 0 (b.reviewCount.value : α)
  rating : max 0 (a.rating.getD 0) ≤ max 0 (b.rating.getD 0)
  category : a.category = b.category
  distances : a.distances ⊆ b.distances

theorem closeness_antitone (rules : Rules α) : Antitone (closeness rules) := by
  intro x y hxy
  obtain ⟨hlow, -⟩ := closeness_mem rules x
  by_cases hnear : x ≤ max 0 rules.near
  · rw [closeness.eq_def rules x, if_pos hnear]
    exact (closeness_mem rules y).2
  · have hnear' : ¬ y ≤ max 0 rules.near := fun h => hnear (hxy.trans h)
    by_cases hfar : rules.far ≤ y
    · rw [closeness.eq_def rules y, if_neg hnear', if_pos hfar]
      exact hlow
    · have hfar' : ¬ rules.far ≤ x := fun h => hfar (h.trans hxy)
      have hspan : 0 ≤ rules.far - rules.near := by
        obtain ⟨-, hbeyond⟩ := max_lt_iff.mp (not_le.mp hnear')
        linarith
      rw [closeness, closeness, if_neg hnear', if_neg hfar, if_neg hnear, if_neg hfar']
      gcongr

omit [IsStrictOrderedRing α] in
theorem closest_mem {a : Appeal α} (h : a.distances ≠ []) : closest a ∈ a.distances := by
  rw [closest]
  cases hdistances : a.distances with
  | nil => exact absurd hdistances h
  | cons d ds => exact leastOf_mem d ds

omit [IsStrictOrderedRing α] in
theorem closest_le {a : Appeal α} {d : α} (hd : d ∈ a.distances) : closest a ≤ d := by
  rw [closest]
  cases hdistances : a.distances with
  | nil =>
      rw [hdistances] at hd
      cases hd
  | cons e es => exact leastOf_le (hdistances ▸ hd)

/-- More places to be close to do not make a place less close. -/
theorem closestShare_le {a b : Appeal α} (h : a.distances ⊆ b.distances) :
    closestShare rules a ≤ closestShare rules b := by
  rw [closestShare]
  split
  next => exact (closestShare_mem rules b).1
  next hsome =>
    have hmem : closest a ∈ b.distances := h (closest_mem (by simpa using hsome))
    have hsome' : ¬ b.distances.isEmpty = true := by
      simpa using List.ne_nil_of_mem hmem
    rw [closestShare, if_neg hsome']
    exact closeness_antitone rules (closest_le hmem)

theorem exactScore_le (hrules : rules.Balanced) (hlog : MonotoneOn log (Set.Ici 1))
    {a b : Appeal α} (h : a.OutdoneBy b) : exactScore rules log a ≤ exactScore rules log b := by
  have hdistance : closestShare rules a ≤ closestShare rules b := closestShare_le h.distances
  have hreviews : reviewShare rules log a ≤ reviewShare rules log b := by
    have hmore : log (max 0 (a.reviewCount.value : α) + 1) ≤ log (max 0 (b.reviewCount.value : α) + 1) := by
      refine hlog ?_ ?_ (by linarith [h.reviews])
      · exact le_add_of_nonneg_left (le_max_left _ _)
      · exact le_add_of_nonneg_left (le_max_left _ _)
    exact min_le_min_left 1 (div_le_div_of_nonneg_right hmore hrules.logBase_pos.le)
  have hrating : ratingShare rules a ≤ ratingShare rules b :=
    min_le_min_left 1 (div_le_div_of_nonneg_right h.rating hrules.maxRating_pos.le)
  have := hrules.distanceWeight_nonneg
  have := hrules.qualityWeight_nonneg
  rw [exactScore, exactScore, h.category]
  gcongr

omit [LinearOrder α] [IsStrictOrderedRing α] in
theorem getD_exactStars (p : Place) : (exactStars p).getD 0 = (p.rating.quantity : α) := by
  rw [exactStars]
  split
  next hnone =>
    rw [Value.eq_null_of_isNull hnone]
    exact Rat.cast_zero.symm
  next => rfl

/-- A place is outdone by itself with a rating and reviews that are no fewer, beside more places. -/
theorem outdoneBy_exactAppeal (gap : Place → α) {refs refs' : List Place} (hrefs : refs ⊆ refs')
    {p : Place} {stars count : Value} (hstars : p.rating.NoMoreThan stars)
    (hcount : p.reviewCount.NoMoreThan count) :
    (exactAppeal gap refs p).OutdoneBy
      (exactAppeal gap refs' { p with rating := stars, reviewCount := count }) where
  reviews := by
    have hle : max 0 p.reviews.value ≤
        max 0 ({ p with rating := stars, reviewCount := count } : Place).reviews.value := by
      rw [Place.value_reviews, Place.value_reviews]
      exact hcount.max_quantity_le
    exact_mod_cast hle
  rating := by
    change max 0 ((exactStars p).getD 0) ≤
      max 0 ((exactStars { p with rating := stars, reviewCount := count }).getD 0)
    rw [getD_exactStars, getD_exactStars]
    exact_mod_cast hstars.max_quantity_le
  category := rfl
  distances := by
    change (if p.isLocated then (refs.filter Place.isLocated).map gap else []) ⊆
      if p.isLocated then (refs'.filter Place.isLocated).map gap else []
    split
    next => exact List.map_subset gap (List.filter_subset _ hrefs)
    next => exact List.Subset.refl _

/-! ## The program's own numbers -/

/-- With rounding too nothing is divided by zero, as long as the distance is a number. -/
theorem exists_distance {rules : Rules Float} {km : Float} (hkm : RealOrder.IsNumber km) :
    ∃ x, distance rules km = .ok x := by
  rw [distance]
  split
  next => exact ⟨1, rfl⟩
  next hbeyond =>
    split
    next => exact ⟨0, rfl⟩
    next hbefore =>
      have hspan : (rules.far - rules.near == 0) = false := by
        refine Decimal.sub_beq_zero fun hle => hbefore ?_
        obtain ⟨hfar, hnear⟩ := RealOrder.isNumber_of_le hle
        have hpast : ¬ km ≤ rules.near := fun h => hbeyond (.inr h)
        rw [RealOrder.le_iff hkm hnear, not_le] at hpast
        rw [RealOrder.le_iff hfar hnear] at hle
        exact (RealOrder.le_iff hfar hkm).mpr (hle.trans hpast.le)
      obtain ⟨q, hq⟩ := exists_divide (km - rules.near) hspan
      exact ⟨_, Result.map_eq_ok.mpr ⟨q, hq, rfl⟩⟩

/-- Every place has a score between zero and one, whatever its rating and reviews are and whatever it is
compared with. The score does not fall when the place gets a rating or more reviews, or better ones, and
not when there are more reference places. Whatever the bounds of a distance are, it has a score. -/
theorem score_bounded_monotone (hrules : rules.Balanced) (hlog : MonotoneOn log (Set.Ici 1))
    (hone : log 1 = 0) :
    (∀ gap refs (p : Place), p.Rated →
      ∃ x, comprehensive rules (exactLogAfter log) (exactAppeal gap refs p) = .ok x ∧
        0 ≤ x ∧ x ≤ 1) ∧
    (∀ gap refs refs' (p : Place) stars count x y, p.Rated →
      Place.Rated { p with rating := stars, reviewCount := count } →
      p.rating.NoMoreThan stars → p.reviewCount.NoMoreThan count → refs ⊆ refs' →
      comprehensive rules (exactLogAfter log) (exactAppeal gap refs p) = .ok x →
      comprehensive rules (exactLogAfter log)
        (exactAppeal gap refs' { p with rating := stars, reviewCount := count }) = .ok y →
      x ≤ y) ∧
    (∀ (rules : Rules α) (km : α), ∃ x, distance rules km = .ok x) ∧
    ∀ (rules : Rules Float) (km : Float), RealOrder.IsNumber km →
      ∃ x, distance rules km = .ok x := by
  have hscore (gap : Place → α) (refs : List Place) {p : Place} (hp : p.Rated) :
      comprehensive rules (exactLogAfter log) (exactAppeal gap refs p) =
        .ok (exactScore rules log (exactAppeal gap refs p)) :=
    comprehensive_eq hrules hone hp.isFinite_reviews
  refine ⟨?_, ?_, fun rules km => ⟨_, distance_eq rules km⟩, fun _ _ => exists_distance⟩
  · intro gap refs p hp
    exact ⟨_, hscore gap refs hp, exactScore_mem hrules hlog hone _⟩
  · intro gap refs refs' p stars count x y hp hp' hstars hcount hrefs hx hy
    rw [hscore gap refs hp] at hx
    rw [hscore gap refs' hp'] at hy
    cases hx
    cases hy
    exact exactScore_le hrules hlog (outdoneBy_exactAppeal gap hrefs hstars hcount)

/-- A museum that is rated but not reviewed, with nothing to be close to, and the same museum rated
higher, reviewed, and seven kilometres from a hotel. -/
theorem score_bounded_monotone_museum :
    let rules : Rules ℝ := ⟨5, 10, 4, 5, 0.4, 0.4, 0.2⟩
    let museum : Place :=
      { id := .text "m", name := .text "m", category := .text "attraction", latitude := .int 48,
        longitude := .int 2, rating := .int 4 }
    let hotel : Place :=
      { id := .text "h", name := .text "h", latitude := .int 48, longitude := .int 3 }
    let reviewed : Place := { museum with rating := .int 5, reviewCount := .int 120 }
    rules.Balanced ∧ MonotoneOn (Real.logb 10) (Set.Ici 1) ∧ Real.logb 10 1 = 0 ∧
      (∃ x y,
        comprehensive rules (exactLogAfter (Real.logb 10)) (exactAppeal (fun _ => 7) [] museum) =
          .ok x ∧
        comprehensive rules (exactLogAfter (Real.logb 10)) (exactAppeal (fun _ => 7) [hotel] reviewed) =
          .ok y ∧
        0 ≤ x ∧ x ≤ y ∧ y ≤ 1) ∧
      ∃ z, distance { rulesOf {} with near := 7.0, far := 7.0 } 7.5 = .ok z := by
  intro rules museum hotel reviewed
  have hrules : rules.Balanced := by constructor <;> norm_num [rules]
  have hlog : MonotoneOn (Real.logb 10) (Set.Ici 1) := by
    intro x hx y _ hxy
    exact Real.logb_le_logb_of_le (by norm_num) (zero_lt_one.trans_le hx) hxy
  have hone : Real.logb 10 1 = 0 := Real.logb_one
  obtain ⟨hbounded, hmonotone, -, hdistance⟩ := score_bounded_monotone hrules hlog hone
  have hmuseum : museum.Rated := ⟨.inr ⟨_, rfl, trivial⟩, .inl rfl⟩
  have hreviewed : reviewed.Rated := ⟨.inr ⟨_, rfl, trivial⟩, .inr ⟨_, rfl, trivial⟩⟩
  obtain ⟨x, hx, hlow, -⟩ := hbounded (fun _ => 7) [] museum hmuseum
  obtain ⟨y, hy, -, hhigh⟩ := hbounded (fun _ => 7) [hotel] reviewed hreviewed
  have hle := hmonotone (fun _ => 7) [] [hotel] museum (.int 5) (.int 120) x y hmuseum hreviewed
    (.inr (by decide +kernel)) (.inl rfl) (List.nil_subset _) hx hy
  exact ⟨hrules, hlog, hone, ⟨x, y, hx, hy, hlow, hle, hhigh⟩, hdistance _ _ (by decide +kernel)⟩

end Score

end Wayfare
