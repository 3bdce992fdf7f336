import Wayfare.Numeric
import Wayfare.Place

/-! # Distances on the globe

Great-circle distances in kilometres. An end whose position is not known is at
no distance from anything; a distance that would have to be measured from a
position that is only a text is refused beforehand.
-/

namespace Wayfare.Geo

def pi : Float := 3.141592653589793

def radians (degrees : Float) : Float :=
  degrees * (pi / 180.0)

/-- The square of half the chord between two points of a unit sphere. -/
def chordSquare (a b : Point Float) : Float :=
  let dLat := radians (b.lat - a.lat)
  let dLon := radians (b.lon - a.lon)
  Float.pow (Float.sin (dLat / 2.0)) 2.0 +
    Float.cos (radians a.lat) * Float.cos (radians b.lat) * Float.pow (Float.sin (dLon / 2.0)) 2.0

/-- The great-circle distance between two points on a sphere. Rounding can make the chord of antipodes
a little too long, so it is cut off at the diameter. -/
def greatCircle (radius : Float) (a b : Point Float) : Float :=
  2.0 * radius * Float.asin (Float.sqrt (atMost 1.0 (chordSquare a b)))

/-- The great-circle distance between points that need not lie on the globe. The differences are taken
before anything is rounded. There is no distance when an angle is infinite or the chord has no length. -/
def greatCircle? (radius : Float) (a b : Point Number) : Result Float := do
  let lat1 ← a.lat.toReal?
  let lat2 ← b.lat.toReal?
  let dLat ← (← b.lat.sub a.lat).toReal?
  let dLon ← (← b.lon.sub a.lon).toReal?
  let phi1 := radians lat1
  let phi2 := radians lat2
  let half1 := radians dLat / 2.0
  let half2 := radians dLon / 2.0
  let chord := Float.pow (Float.sin half1) 2.0 +
    Float.cos phi1 * Float.cos phi2 * Float.pow (Float.sin half2) 2.0
  if [phi1, phi2, half1, half2].any Float.isInf || atMost 1.0 chord < 0.0 then throw .unreadable
  return 2.0 * radius * Float.asin (Float.sqrt (atMost 1.0 chord))

/-- The distance between two places, zero unless both positions are known. -/
def distance (radius : Float) (a b : Place) : Float :=
  match a.location, b.location with
  | some x, some y => greatCircle radius x y
  | _, _ => 0.0

/-- The distance between two ends either of which may be missing. -/
def distance? (radius : Float) (a b : Option Place) : Float :=
  match a, b with
  | some a, some b => distance radius a b
  | _, _ => 0.0

/-- Whether the distance between two places needs no position that is only a text. -/
def measurable (a b : Place) : Bool :=
  !(a.isLocated && b.isLocated) || a.isMeasurable && b.isMeasurable

/-- Refuses a distance between two ends that would be measured from a text. -/
def checkPair (a b : Option Place) : Result Unit :=
  match a, b with
  | some a, some b => if measurable a b then .ok () else .error .wrongKind
  | _, _ => .ok ()

/-- Refuses places of which two are located and one of these only by a text. -/
def checkAll (places : List Place) : Result Unit :=
  let located := places.filter Place.isLocated
  if located.length ≤ 1 || located.all Place.isMeasurable then .ok () else .error .wrongKind

/-- Refuses a list in which the distance from a place to the next would be measured from a text. -/
def checkLegs (places : List Place) : Result Unit :=
  if (places.zip places.tail).all fun l => measurable l.1 l.2 then .ok () else .error .wrongKind

/-- Refuses reference places to which the distance would be measured from a text. -/
def checkRefs (p : Place) (refs : List Place) : Result Unit :=
  if refs.all (measurable p) then .ok () else .error .wrongKind

/-- The distances from a place to those reference places whose position is known. -/
def distancesTo (radius : Float) (p : Place) (refs : List Place) : List Float :=
  if p.isLocated then (refs.filter Place.isLocated).map (distance radius p) else []

/-- The distance to the closest reference place, zero when there is none. -/
def closest (radius : Float) (p : Place) (refs : List Place) : Float :=
  match distancesTo radius p refs with
  | [] => 0.0
  | d :: ds => leastOf d ds

/-- The mean distance to the reference places, zero when there are none. -/
def meanDistance (radius : Float) (p : Place) (refs : List Place) : Float :=
  match distancesTo radius p refs with
  | [] => 0.0
  | ds => total ds / (ds.length : Float)

end Wayfare.Geo
