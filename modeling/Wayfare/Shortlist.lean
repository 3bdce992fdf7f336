import Wayfare.Category.Style
import Wayfare.Numeric
import Wayfare.Pool
import Wayfare.Request

/-! # Shortlists

The first stage: for every region and every category of the request, the most
popular places of the pool that keep the input contract, belong to the category
and suit the traveller's styles.
-/

namespace Wayfare

open Wayfare.Category

/-- The candidates of every region, by category, in the order of the request and of the taxonomy. -/
structure Shortlist where
  threadId : Value := .text ""
  destinations : List String := []
  regions : List (String × List (String × List Place)) := []
  total : Nat := 0

namespace Shortlist

/-- The candidates of one category, region by region. -/
def candidatesFor (s : Shortlist) (category : String) : List Place :=
  s.regions.flatMap fun r => (r.2.lookup category).getD []

/-- All candidates, region by region and category by category. -/
def all (s : Shortlist) : List Place :=
  s.regions.flatMap fun r => r.2.flatMap (·.2)

end Shortlist

/-- How the shortlists are made. -/
structure Selector where
  perCategory : Value
  /-- How many times as many places are fetched as are kept; at least one. -/
  fetchMultiplier : Number
  categories : List Value := Category.categories.map .text

namespace Selector

def make (perCategory fetchMultiplier : Value) (categories : List Value) : Result Selector := do
  return ⟨perCategory, atLeast (.int 1) (← fetchMultiplier.asNumber), categories⟩

/-- How popular a place is: its number of reviews, then its rating, as they are given. -/
def popularity (p : Place) : Value × Value :=
  (if p.reviewCount.isTruthy then p.reviewCount else .int 0,
   if p.rating.isTruthy then p.rating else .real 0.0)

def lessPopular (a b : Value × Value) : Bool :=
  a.1.isBelow b.1 || (!b.1.isBelow a.1 && a.2.isBelow b.2)

/-- Whether the popularities of some places can be ordered: the numbers of reviews, and the ratings of
places with as many. -/
def areRankable (places : List Place) : Bool :=
  let keys := places.map popularity
  Value.areComparable (keys.map (·.1)) &&
    keys.all fun a => keys.all fun b =>
      a.1.isBelow b.1 || b.1.isBelow a.1 || a.2.comparable b.2

/-- Places from the most to the least popular; equal ones keep their order. -/
def byPopularity (places : List Place) : List Place :=
  places.mergeSort fun a b => !lessPopular (popularity a) (popularity b)

/-- How many places are fetched for a category before they are looked at. -/
def fetchLimit (s : Selector) : Result Number := do
  match ← s.perCategory.asNumber, s.fetchMultiplier with
  | .int a, .int b => return .int (a * b)
  | a, b => return .real ((← a.toReal?) * (← b.toReal?))

/-- The places of a shortlist out of those that keep the contract: those of the category that suit one
of the styles, the most popular first, as many as are kept. -/
def shorten (kept : Nat) (category : String) (styles : List Style) (valid : List Place) :
    List Place :=
  (byPopularity (valid.filter fun p => placeMatches p category && suitsAny p styles)).take kept

/-- Refuses the places of a category of which the popularity cannot be told, or whether they suit the
styles. The styles are read only when there is a place that asks for them. -/
def checkMatched (category : String) (styles : List Value) (valid : List Place) :
    Result (List Style) := do
  let inCategory := valid.filter fun p => placeMatches p category
  if inCategory.isEmpty then return []
  let known := knownStyles (← Value.givenTexts styles)
  inCategory.forM fun p => checkStyles p known
  let matched := inCategory.filter fun p => suitsAny p known
  if 1 < matched.length && !areRankable matched then throw .wrongKind
  return known

/-- The shortlist of a category in a region, and the warnings about places that break the contract. -/
def selectCategory (s : Selector) (pool : Pool) (region : Value) (category : String)
    (styles : Value) : Result (List Place × List String) := do
  let keywords := Value.list ((keywordsOf category).map .text)
  let fetched ← pool.queryWith region keywords (← s.fetchLimit)
  let (valid, warnings) ← Validation.filter Validation.place Place.toRecord fetched
  let known ← checkMatched category (← Validation.entries styles) valid
  match ← s.perCategory.asNumber with
  | .int kept => return (shorten kept.toNat category known valid, warnings)
  | .real _ => throw .wrongKind

/-- The shortlists of a category that is named by a value, with its name. Nothing is asked for by a
category that counts as not given, or when nothing may be fetched; any other that is not a text is a
fault. -/
def selectNamed (s : Selector) (pool : Pool) (region styles name : Value) :
    Result (List (String × List Place) × List String) :=
  match name with
  | .text category => do
      let (places, warnings) ← s.selectCategory pool region category styles
      return ([(category, places)], warnings)
  | .list _ | .record _ => .error .wrongKind
  | _ => do
      let limit ← s.fetchLimit
      if name.isTruthy && !decide (limit ≤ .int 0) then throw .missingMember
      let (_, warnings) ← s.selectCategory pool region "" styles
      return ([], warnings)

/-- The shortlists of some categories in a region. A category that is named again keeps its first place
with its last list. -/
def selectAll (s : Selector) (pool : Pool) (region : String) (styles : List Value) :
    List Value → Result (List (String × List Place) × List String)
  | [] => .ok ([], [])
  | name :: rest => do
      let (entry, warnings) ← s.selectNamed pool (.text region) (.list styles) name
      let (entries, more) ← s.selectAll pool region styles rest
      let kept := entry.map fun e => (e.1, (entries.lookup e.1).getD e.2)
      return (kept ++ entries.filter fun e => !entry.any (·.1 == e.1), warnings ++ more)

/-- The shortlists of a region; every category has one, however short. -/
def selectRegion (s : Selector) (pool : Pool) (region : String) (styles : List Value) :
    Result (List (String × List Place) × List String) := do
  let _ ← Value.givenTexts styles
  s.selectAll pool region styles s.categories

/-- The shortlists for a request, and the warnings of all regions. -/
def select (s : Selector) (pool : Pool) (request : TripRequest) :
    Result (Shortlist × List String) := do
  request.check
  let regions ← request.regions
  let styles ← Validation.entries request.styles
  let lists ← regions.mapM fun region => do
    let (entries, warnings) ← s.selectRegion pool region styles
    return ((region, entries), warnings)
  let entries := lists.map (·.1)
  let shortlist : Shortlist :=
    { threadId := request.threadId
      destinations := regions
      regions := entries
      total := sumNat (entries.map fun r => sumNat (r.2.map fun c => c.2.length)) }
  return (shortlist, lists.flatMap (·.2))

end Selector

end Wayfare
