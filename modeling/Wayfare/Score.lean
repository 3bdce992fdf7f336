import Wayfare.Category.Taxonomy
import Wayfare.Geo.Distance
import Wayfare.RunSort
import Wayfare.Settings

/-! # Scores

How well a place would fill a gap in a day: by its reviews and its rating, by
how close it is to what the day already holds, and by its category. All parts
lie between zero and one.
-/

namespace Wayfare.Score

open Wayfare.Text

/-- The bounds and weights of a score. -/
structure Rules (α : Type) where
  /-- Up to this distance the distance score is one. -/
  near : α
  /-- From this distance on the distance score is zero. -/
  far : α
  logBase : α
  maxRating : α
  distanceWeight : α
  qualityWeight : α
  diversityWeight : α

/-- What a score depends on: the distances are those to the reference places whose position is known,
and there are none if the place's own position is not known. -/
structure Appeal (α : Type) where
  reviewCount : Number
  rating : Option α
  category : String
  distances : List α

section

variable {α : Type} [Zero α] [One α] [Add α] [Sub α] [Mul α] [Div α] [LT α] [DecidableLT α] [LE α]
  [DecidableLE α] [BEq α] [OfScientific α]

/-- The review score grows with the logarithm of one more than the number of reviews, up to one. -/
def reviews (rules : Rules α) (logAfter : Number → α) (count : Number) : Result α :=
  if count ≤ .int 0 then .ok 0 else atMost 1 <$> divide (logAfter count) rules.logBase

/-- The rating score is the share of the highest rating, up to one. -/
def rating (rules : Rules α) (r : Option α) : Result α :=
  match r with
  | none => .ok 0
  | some x => if x ≤ 0 then .ok 0 else atMost 1 <$> divide x rules.maxRating

/-- The base score weighs reviews and rating equally. -/
def base (rules : Rules α) (logAfter : Number → α) (a : Appeal α) : Result α := do
  let fromReviews ← reviews rules logAfter a.reviewCount
  let fromRating ← rating rules a.rating
  return 0.5 * fromReviews + 0.5 * fromRating

/-- The distance score falls from one at the near bound to zero at the far bound. -/
def distance (rules : Rules α) (km : α) : Result α :=
  if km ≤ 0 ∨ km ≤ rules.near then .ok 1
  else if rules.far ≤ km then .ok 0
  else (1 - ·) <$> divide (km - rules.near) (rules.far - rules.near)

def categoryWeights : List (String × α) :=
  [("restaurant", 0.9), ("attraction", 0.8), ("cafe", 0.7), ("activity", 0.6), ("shopping", 0.5)]

/-- The diversity score is the weight of the category; a place without a category has none. -/
def diversity (category : String) : α :=
  if isBlank category then 0
  else ((Category.ofText? category).bind fun key => categoryWeights.lookup key).getD 0.4

def closest (a : Appeal α) : α :=
  match a.distances with
  | [] => 0
  | d :: ds => leastOf d ds

/-- The distance part of a score, zero without a reference place. -/
def distancePart (rules : Rules α) (a : Appeal α) : Result α :=
  if a.distances.isEmpty then .ok 0 else distance rules (closest a)

/-- The whole score: the weighted sum of distance, quality and diversity. -/
def comprehensive (rules : Rules α) (logAfter : Number → α) (a : Appeal α) : Result α := do
  let fromDistance ← distancePart rules a
  let quality ← base rules logAfter a
  return rules.distanceWeight * fromDistance + rules.qualityWeight * quality +
    rules.diversityWeight * diversity a.category

/-- The parts of a score. -/
structure Breakdown (P α : Type) where
  place : P
  base : α
  km : α
  distance : α
  diversity : α
  total : α

/-- The parts of the score of a place with a given appeal. -/
def breakdown {P : Type} (rules : Rules α) (logAfter : Number → α) (place : P) (a : Appeal α) :
    Result (Breakdown P α) := do
  return {
    place := place
    base := ← base rules logAfter a
    km := closest a
    distance := ← distancePart rules a
    diversity := diversity a.category
    total := ← comprehensive rules logAfter a }

/-- Ranks scored things from the highest to the lowest; equal ones keep their order. Among totals that
are no numbers the outcome is that of sorting by runs, from the lowest to the highest and back. -/
def ranked {P : Type} (scores : List (Breakdown P α)) : List (Breakdown P α) :=
  if scores.all (fun a => a.total == a.total) || mergeLength ≤ scores.length then
    scores.mergeSort fun a b => decide (¬ a.total < b.total)
  else (runSort (fun a b => decide (a.total < b.total)) scores.reverse).reverse

end

/-- The decimal logarithm of a whole number of any size. -/
def log10OfInt (n : Int) : Float :=
  let x := Float.ofInt n
  if x.isInf then
    let shift := n.toNat.log2 - 1000
    Float.log10 (Float.ofInt (n / Int.ofNat (Nat.pow 2 shift))) + (shift : Float) * Float.log10 2.0
  else Float.log10 x

def logAfter : Number → Float
  | .int n => log10OfInt (n + 1)
  | .real x => Float.log10 (x + 1.0)

def rulesOf (s : Settings) : Rules Float where
  near := s.nearDistance
  far := s.farDistance
  logBase := s.reviewLogBase
  maxRating := s.maxRating
  distanceWeight := s.distanceWeight
  qualityWeight := s.qualityWeight
  diversityWeight := s.diversityWeight

def appeal (s : Settings) (refs : List Place) (p : Place) : Appeal Float where
  reviewCount := p.reviews
  rating := p.stars?
  category := p.categoryText
  distances := Geo.distancesTo s.earthRadius p refs

/-- A number of reviews as it counts for a score. -/
def readReviews (count : Value) : Result Number :=
  count.numberOrZero

/-- A rating as it counts for a score: one of at most zero counts as zero. -/
def readRating (rating : Value) : Result (Option Float) :=
  if rating.isNull then .ok none
  else do
    let n ← rating.asNumber
    if n ≤ .int 0 then return some 0.0 else some <$> n.toReal?

/-- Refuses a place whose reviews or rating do not count. -/
def checkQuality (p : Place) : Result Unit := do
  let _ ← readReviews p.reviewCount
  let _ ← readRating p.rating

/-- The parts of the score of a place beside some reference places. -/
def ofPlace (s : Settings) (refs : List Place) (p : Place) : Result (Breakdown Place Float) := do
  Geo.checkRefs p refs
  checkQuality p
  let _ ← p.readCategory
  breakdown (rulesOf s) logAfter p (appeal s refs p)

/-- The places of a list with their scores beside some reference places, best first. -/
def rankPlaces (s : Settings) (refs places : List Place) : Result (List (Breakdown Place Float)) :=
  ranked <$> places.mapM (ofPlace s refs)

/-- The best `limit` places. -/
def topPlaces (s : Settings) (refs places : List Place) (limit : Value) : Result (List Place) := do
  let ranked ← rankPlaces s refs places
  return (ranked.take (← limit.asCut)).map (·.place)

end Wayfare.Score
