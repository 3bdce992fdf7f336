import Wayfare.Category.Taxonomy

/-! # Travel styles

A style is a wish of the traveller. A place suits a request if it suits one of
its styles; unknown styles are ignored, and a request without a known style
suits every place.
-/

namespace Wayfare.Category

open Wayfare.Text

/-- The styles with a rule of their own. -/
inductive Style where
  | relaxing
  | active
  | culture
  | foodie
  | shopping
  deriving DecidableEq, Repr

namespace Style

def all : List Style :=
  [relaxing, active, culture, foodie, shopping]

def name : Style → String
  | relaxing => "relaxing"
  | active => "active"
  | culture => "culture"
  | foodie => "foodie"
  | shopping => "shopping"

/-- The style of a name, whatever its case. -/
def ofName? (s : String) : Option Style :=
  all.find? (·.name == lower s)

/-- The text in which the words of a style are looked for: the category and the name of a place. -/
def describe (p : Place) : String :=
  p.category.display ++ " " ++ p.name.display

/-- Whether a place is described by one of some words. -/
def described (p : Place) (words : List String) : Bool :=
  (Keywords.ofList words).occursIn (describe p)

def suits (p : Place) : Style → Bool
  | relaxing => decide (4.0 ≤ p.stars)
  | active => described p ["activity", "experience", "액티비티", "체험"]
  | culture => described p ["culture", "museum", "heritage", "traditional", "문화", "전통"]
  | foodie => described p ["restaurant", "food", "맛집", "음식"]
  | shopping => described p ["shopping", "market", "쇼핑", "시장"]

end Style

/-- The known styles of a request, in its order. -/
def knownStyles (names : List String) : List Style :=
  names.filterMap Style.ofName?

/-- Whether a place suits one of some styles; no style suits every place. -/
def suitsAny (p : Place) (styles : List Style) : Bool :=
  styles.isEmpty || styles.any (Style.suits p)

/-- The styles that are tried on a place: up to the first that it suits. -/
def triedStyles (p : Place) (styles : List Style) : List Style :=
  styles.take ((styles.takeWhile fun style => !style.suits p).length + 1)

/-- Refuses a place whose rating is looked at for some styles and is no number. -/
def checkStyles (p : Place) (styles : List Style) : Result Unit := do
  if (triedStyles p styles).contains .relaxing then
    let _ ← p.rating.numberOrZero

end Wayfare.Category
