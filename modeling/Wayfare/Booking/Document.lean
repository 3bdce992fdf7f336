import Wayfare.Booking

/-! # Documents

A booking is made from its fields one by one, or from a document: a journey by
train or plane, a stay at a hotel, an event. It has to have a title and a start,
must not end before it starts, and lasts an hour if no end is given.
-/

namespace Wayfare

open Wayfare.Text Wayfare.Calendar

/-- How long a booking lasts when its end is not given, in microseconds. -/
def defaultDuration : Int := Int.ofNat Calendar.hour

/-- How long an event lasts, in microseconds. -/
def eventDuration : Int := 3 * Int.ofNat Calendar.hour

namespace Booking

def refused (reason : String) : Fault :=
  .rejected "ERROR_INVALID_SCHEDULE" [reason]

def checkTitle (title : Value) : Result Unit := do
  match ← title.givenText? with
  | none => throw (refused "title must not be empty")
  | some s => if isBlank s then throw (refused "title must not be empty") else return ()

def checkStart (b : Booking) : Result Moment :=
  match b.start with
  | .null => .error (refused (b.title.quoted ++ " has no start_time"))
  | .moment m => .ok m
  | _ => .error .wrongKind

/-- The end of a booking, which is an hour after its start unless it is given. A booking that ends
before it starts is refused. -/
def checkFinish (b : Booking) (start : Moment) : Result Moment := do
  let finish ← match b.finish with
    | .null => Result.ofOption .tooLarge (start.add? defaultDuration)
    | .moment m => .ok m
    | _ => throw .wrongKind
  if ← Result.ofOption .wrongKind (finish.before? start) then
    throw (refused (b.title.quoted ++ " ends (" ++ finish.text ++ ") before it starts (" ++
      start.text ++ ")"))
  return finish

/-- A new booking: checked, and with an end. -/
def made (b : Booking) : Result Booking := do
  checkTitle b.title
  let start ← b.checkStart
  let finish ← b.checkFinish start
  let errors ← coordinateErrors b.latitude b.longitude
  if errors.isEmpty then return { b with finish := .moment finish }
  else
    throw (.rejected "ERROR_INVALID_COORDINATES"
      (errors.map fun e => b.title.quoted ++ ": " ++ e))

/-- The fields of a booking under their names, with what follows from its kind. -/
def toRecord (b : Booking) : Result Fields := do
  let kind ← b.readKind
  return [("schedule_id", b.id), ("title", b.title), ("start_time", b.start), ("end_time", b.finish),
    ("location", b.location), ("document_type", .text kind.name), ("address", b.address),
    ("latitude", b.latitude), ("longitude", b.longitude),
    ("priority", .int (Int.ofNat kind.priority)), ("fixed", .bool true)]

/-- What follows from the fields of a booking and cannot be changed by itself. -/
def derivedNames : List String :=
  ["fixed", "priority", "category", "has_coordinates", "time_block"]

/-- The booking with one field changed and nothing checked. Only kinds of documents are kinds; whatever
else is put in their place leaves a booking without one. -/
def amend (b : Booking) (field : String) (v : Value) : Result Booking :=
  match field with
  | "title" => .ok { b with title := v }
  | "start_time" => .ok { b with start := v }
  | "end_time" => .ok { b with finish := v }
  | "location" => .ok { b with location := v }
  | "address" => .ok { b with address := v }
  | "latitude" => .ok { b with latitude := v }
  | "longitude" => .ok { b with longitude := v }
  | "schedule_id" => .ok { b with id := v }
  | "details" => .ok { b with details := v }
  | "document_type" => .ok { b with kind := none }
  | _ => if derivedNames.contains field then .error .missingMember else .ok b

def momentNames : List String :=
  ["start_time", "end_time", "departure", "arrival", "check_in", "check_out", "start"]

def readMoments (given : Fields) : Result Fields :=
  given.mapM fun (name, v) => do
    return (name, ← if momentNames.contains name then Place.timeOf v else .ok v)

/-- The kind of document that is named, if one is named. -/
def namedKind (given : Fields) : Result (Option BookingKind) :=
  match given.lookup "document_type" with
  | none => .ok none
  | some (.text s) => some <$> Result.ofOption .unreadable (BookingKind.ofName? s)
  | some _ => .error .unreadable

/-- The fields that a document may leave open, filled in from what is given. -/
def withRest (b : Booking) (given : Fields) : Booking :=
  let field (name : String) (default : Value) := (given.lookup name).getD default
  { b with
    address := field "address" b.address
    latitude := field "latitude" b.latitude
    longitude := field "longitude" b.longitude
    id := field "schedule_id" b.id
    details := field "details" b.details }

/-- The names of the fields that every document may give. -/
def restNames : List String :=
  ["address", "latitude", "longitude", "schedule_id", "details"]

def required (given : Fields) (name : String) : Result Value :=
  Result.ofOption .wrongKind (given.lookup name)

/-- A journey by train or plane, titled by its number and its two ends. -/
def journey (kind : BookingKind) (word numberField : String) (given : Fields) : Result Booking := do
  given.onlyNamed ([numberField, "departure", "arrival", "origin", "destination"] ++ restNames)
  let number ← required given numberField
  let departure ← required given "departure"
  let origin := (given.lookup "origin").getD (.text "")
  let destination := (given.lookup "destination").getD (.text "")
  let ends :=
    if origin.isTruthy && destination.isTruthy then
      " " ++ origin.display ++ " → " ++ destination.display
    else ""
  let b : Booking :=
    { title := .text (word ++ " " ++ number.display ++ ends)
      start := departure
      finish := given.field "arrival"
      location := origin
      kind := some kind }
  return b.withRest given

/-- A stay at a hotel, which begins at check-in. -/
def stay (given : Fields) : Result Booking := do
  given.onlyNamed (["hotel_name", "check_in", "check_out"] ++ restNames)
  let hotel ← required given "hotel_name"
  let checkIn ← required given "check_in"
  let b : Booking :=
    { title := .text ("Check-in: " ++ hotel.display)
      start := checkIn
      finish := given.field "check_out"
      location := hotel
      kind := some .hotel }
  return b.withRest given

/-- An event, which lasts three hours. -/
def happening (given : Fields) : Result Booking := do
  given.onlyNamed (["event_name", "start", "venue"] ++ restNames)
  let title ← required given "event_name"
  let start ← Result.ofOption .wrongKind (← required given "start").moment?
  let finish ← Result.ofOption .tooLarge (start.add? eventDuration)
  let b : Booking :=
    { title := title
      start := .moment start
      finish := .moment finish
      location := (given.lookup "venue").getD (.text "")
      kind := some .event }
  return b.withRest given

def plain (kind : Option BookingKind) (given : Fields) : Result Booking := do
  given.onlyNamed
    (["title", "start_time", "end_time", "location", "document_type"] ++ restNames)
  let title ← required given "title"
  let start ← required given "start_time"
  let b : Booking :=
    { title := title
      start := start
      finish := given.field "end_time"
      location := (given.lookup "location").getD (.text "")
      kind := some (kind.getD .unknown) }
  return b.withRest given

/-- A new booking from a document of the given sort, or from its fields. -/
def ofDocument (sort : String) (given : Fields) : Result Booking := do
  let given ← readMoments given
  let kind ← namedKind given
  let b ← match sort with
    | "flight" => journey .flight "Flight" "flight_number" given
    | "train" => journey .train "Train" "train_number" given
    | "hotel" => stay given
    | "event" => happening given
    | _ => plain kind given
  b.made

end Booking

end Wayfare
