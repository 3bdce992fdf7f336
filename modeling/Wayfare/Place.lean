import Wayfare.Ident

/-! # Places

A place that can be visited. The fields of a place are kept as they were given:
a name may be missing, a position unknown, and a rating may be no number. What
the planner needs of a field is read from it here, in a form that every place
has, and each such reading has a check that refuses the places on which it
would be made up.
-/

namespace Wayfare

/-- A position on the globe, in degrees. -/
structure Point (α : Type) where
  lat : α
  lon : α
  deriving BEq, DecidableEq, Repr

/-- Where a place entered the plan. -/
inductive Source where
  | candidate
  | userSelected
  | aiRecommended
  | confirmed
  deriving DecidableEq, Repr

namespace Source

def all : List Source :=
  [candidate, userSelected, aiRecommended, confirmed]

def name : Source → String
  | candidate => "candidate"
  | userSelected => "user_selected"
  | aiRecommended => "ai_recommended"
  | confirmed => "confirmed"

def ofName? (s : String) : Option Source :=
  all.find? (·.name == s)

end Source

/-- A place. -/
structure Place where
  id : Value
  name : Value
  category : Value := .text ""
  latitude : Value := .null
  longitude : Value := .null
  address : Value := .text ""
  rating : Value := .null
  reviewCount : Value := .null
  priceLevel : Value := .null
  openNow : Value := .null
  source : Source := .candidate
  region : Value := .text ""
  /-- When the place has to be visited, for the site of a booking. -/
  fixedTime : Value := .null
  deriving BEq

instance instInhabitedPlace : Inhabited Place := ⟨{ id := .null, name := .null }⟩

namespace Place

def key (p : Place) : Ident :=
  p.id.ident?.getD .absent

/-- What tells a place apart; a list or a record cannot. -/
def readKey (p : Place) : Result Ident :=
  Result.ofOption .wrongKind p.id.ident?

/-- The category text, empty unless the category is a text. -/
def categoryText (p : Place) : String :=
  p.category.textOrEmpty

/-- The category text, empty when none counts as given; a category of another kind is a fault. -/
def readCategory (p : Place) : Result String := do
  return (← p.category.givenText?).getD ""

def isLocated (p : Place) : Bool :=
  !p.latitude.isNull && !p.longitude.isNull

/-- A coordinate in degrees, zero when it does not read as a number. -/
def degrees (v : Value) : Float :=
  match v.toReal with
  | .ok x => x
  | .error _ => 0.0

/-- The position of a place, if it is known. -/
def location (p : Place) : Option (Point Float) :=
  if p.isLocated then some ⟨degrees p.latitude, degrees p.longitude⟩ else none

@[simp] theorem isSome_location (p : Place) : p.location.isSome = p.isLocated := by
  unfold location
  split <;> simp_all

/-- Whether distances can be taken to the position of a place: a coordinate given as a text is a
position, but not one to measure from. -/
def isMeasurable (p : Place) : Bool :=
  p.latitude.number?.isSome && p.longitude.number?.isSome

/-- The rating, zero when there is none. -/
def stars (p : Place) : Float :=
  (p.rating.number?.map Number.toReal).getD 0.0

/-- The rating, if there is one. -/
def stars? (p : Place) : Option Float :=
  if p.rating.isNull then none else some p.stars

/-- The number of reviews, zero when there is none. -/
def reviews (p : Place) : Number :=
  p.reviewCount.number?.getD (.int 0)

def withSource (p : Place) (source : Source) : Place :=
  { p with source := source }

end Place

end Wayfare
