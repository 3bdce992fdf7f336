import Wayfare.Calendar.IsoText
import Wayfare.Place
import Wayfare.Place.Coordinates

/-! # Records of places

A place is made from its fields, each under its own name, or decoded from a
record in which several fields go by more than one name, texts are written out
and numbers are read. Either way it has to have an identifier and coordinates
that can be.
-/

namespace Wayfare.Place

open Wayfare.Text

/-- The fields of a place with the names under which a record may hold each. -/
def recordNames : List (String × List String) :=
  [("place_id", ["place_id", "placeId", "id"]), ("name", ["name"]), ("category", ["category"]),
   ("latitude", ["latitude", "lat"]), ("longitude", ["longitude", "lon", "lng"]),
   ("address", ["address"]), ("rating", ["rating"]),
   ("review_count", ["review_count", "reviewCount"]), ("price_level", ["price_level", "priceLevel"]),
   ("open_now", ["open_now", "openNow"]), ("source", ["source"]), ("region", ["region"]),
   ("fixed_time", ["fixed_time", "fixedTime"])]

def fieldNames : List String :=
  recordNames.map (·.1)

/-- The first field of several names that is not absent. -/
def pick (record : Fields) (names : List String) : Value :=
  ((names.map record.field).find? (!·.isNull)).getD .null

/-- A record with every field of a place under its own name. -/
def normalized (record : Fields) : Fields :=
  recordNames.map fun (name, names) => (name, pick record names)

def toRecord (p : Place) : Fields :=
  [("place_id", p.id), ("name", p.name), ("category", p.category), ("latitude", p.latitude),
   ("longitude", p.longitude), ("address", p.address), ("rating", p.rating),
   ("review_count", p.reviewCount), ("price_level", p.priceLevel), ("open_now", p.openNow),
   ("source", .text p.source.name), ("region", p.region), ("fixed_time", p.fixedTime)]

/-- The text of a place: its fields under their names, and its source by both of its names. -/
def text (p : Place) : String :=
  let tag := p.source.name
  let source := "<PlaceSource." ++ tag.toUpper ++ ": " ++ (Value.text tag).quoted ++ ">"
  let parts := p.toRecord.map fun (name, v) =>
    name ++ "=" ++ (if name == "source" then source else v.quoted)
  "Place(" ++ ", ".intercalate parts ++ ")"

/-- Refuses a place without an identifier or with coordinates that cannot be. -/
def check (p : Place) : Result Unit := do
  if !p.id.isTruthy || isBlank p.id.display then
    throw (.rejected "ERROR_MISSING_PLACE_ID" ["place " ++ p.name.quoted ++ " has no place_id"])
  let errors ← coordinateErrors p.latitude p.longitude
  if errors.isEmpty then return ()
  else
    throw (.rejected "ERROR_INVALID_COORDINATES"
      (errors.map fun e => "place " ++ p.id.display ++ ": " ++ e))

/-- The place, unless it is refused. -/
def checked (p : Place) : Result Place := do
  p.check
  return p

/-- A text field: anything given is written out, anything else is empty. -/
def textOf (v : Value) : Value :=
  .text (if v.isTruthy then v.display else "")

/-- A number field: absent or read as a number. -/
def numberOf (v : Value) : Result Value :=
  if v.isNull then .ok .null else .real <$> v.toReal

/-- A count: absent or read as a whole number. -/
def countOf (v : Value) : Result Value :=
  if v.isNull then .ok .null else .int <$> v.toInt

def sourceNamed : Value → Result Source
  | .text s => Result.ofOption .unreadable (Source.ofName? s)
  | _ => .error .unreadable

/-- A source: a candidate unless a source is named. -/
def sourceOf (v : Value) : Result Source :=
  if v.isTruthy then sourceNamed v else .ok .candidate

def ofRecord (record : Fields) : Result Place := do
  let r := normalized record
  let latitude ← numberOf (r.field "latitude")
  let longitude ← numberOf (r.field "longitude")
  let rating ← numberOf (r.field "rating")
  let reviewCount ← countOf (r.field "review_count")
  let source ← sourceOf (r.field "source")
  let p : Place :=
    { id := textOf (r.field "place_id")
      name := textOf (r.field "name")
      category := textOf (r.field "category")
      latitude := latitude
      longitude := longitude
      address := textOf (r.field "address")
      rating := rating
      reviewCount := reviewCount
      priceLevel := r.field "price_level"
      openNow := r.field "open_now"
      source := source
      region := textOf (r.field "region")
      fixedTime := r.field "fixed_time" }
  p.checked

/-- A time given as a text, or none. -/
def timeOf : Value → Result Value
  | .null => .ok .null
  | .text s => .moment <$> Result.ofOption .unreadable (Calendar.Moment.read s)
  | _ => .error .wrongKind

/-- The place of given fields, each under its own name. The name of the place is its identifier unless
another is given. An unknown field or a missing identifier is a fault. -/
def ofArguments (fields : Fields) : Result Place := do
  let given (name : String) (default : Value) : Value := (fields.lookup name).getD default
  let source ← sourceNamed (given "source" (.text Source.candidate.name))
  let fixedTime ← timeOf (given "fixed_time" .null)
  fields.onlyNamed fieldNames
  let id ← Result.ofOption .wrongKind (fields.lookup "place_id")
  let p : Place :=
    { id := id
      name := given "name" id
      category := given "category" (.text "")
      latitude := given "latitude" .null
      longitude := given "longitude" .null
      address := given "address" (.text "")
      rating := given "rating" .null
      reviewCount := given "review_count" .null
      priceLevel := given "price_level" .null
      openNow := given "open_now" .null
      source := source
      region := given "region" (.text "")
      fixedTime := fixedTime }
  p.checked

end Wayfare.Place
