import Wayfare.Booking.Document

/-! # Input contracts

What a record of a place, a booking or a trip request must satisfy. Only
genuine violations count; thin data are accepted. Every check that fails adds
its reasons, and the first one gives the code.
-/

namespace Wayfare

open Wayfare.Text

/-- The outcome of checking a record: whether it stands, the reasons against it and the code of the
first. -/
structure Verdict where
  valid : Bool
  errors : List String := []
  code : String := ""
  deriving DecidableEq, Repr

namespace Verdict

/-- The outcome of several checks, each a code with its reasons. -/
def ofChecks (checks : List (String × List String)) : Verdict :=
  let errors := checks.flatMap (·.2)
  { valid := errors.isEmpty
    errors := errors
    code := ((checks.find? fun c => !c.2.isEmpty).map (·.1)).getD "" }

/-- Refuses a record that is not valid, under the first of the codes given that is not empty. -/
def require (v : Verdict) (code : Option String) : Result Unit :=
  if v.valid then .ok ()
  else
    let code := ([code.getD "", v.code].find? (!·.isEmpty)).getD "ERROR_INVALID_INPUT"
    .error (.rejected code v.errors)

end Verdict

namespace Validation

/-- A reason if a text is absent or blank. -/
def missingText (record : Fields) (name : String) : List String :=
  let v := record.field name
  if v.isNull || isBlank v.display then [name ++ " must not be empty or NULL"] else []

/-- Reasons from a number that may not be readable; a number beyond all range is a fault. -/
def numberErrors {α : Type} (v : Value) (read : Value → Result α) (judge : α → List String)
    (unreadable : String) : Result (List String) :=
  if v.isNull then .ok []
  else
    match read v with
    | .ok x => .ok (judge x)
    | .error .tooLarge => .error .tooLarge
    | .error _ => .ok [unreadable]

def ratingErrors (v : Value) : Result (List String) :=
  numberErrors v Value.toReal
    (fun r =>
      if 0.0 ≤ r ∧ r ≤ 5.0 then []
      else ["rating=" ++ Decimal.shortest r ++ " is outside valid range [0, 5]"])
    ("rating=" ++ v.quoted ++ " must be numeric")

def reviewErrors (v : Value) : Result (List String) :=
  numberErrors v Value.toInt
    (fun n => if n < 0 then ["review_count=" ++ v.display ++ " must be >= 0"] else [])
    ("review_count=" ++ v.quoted ++ " must be an integer")

def place (record : Fields) : Result Verdict := do
  let coordinates ← coordinateErrors (record.field "latitude") (record.field "longitude")
  let rating ← ratingErrors (record.field "rating")
  let reviews ← reviewErrors (record.field "review_count")
  return Verdict.ofChecks
    [("ERROR_MISSING_PLACE_ID", missingText record "place_id"),
     ("ERROR_MISSING_PLACE_NAME", missingText record "name"),
     ("ERROR_INVALID_COORDINATES", coordinates),
     ("ERROR_INVALID_RATING", rating),
     ("ERROR_INVALID_REVIEW_COUNT", reviews)]

/-- What is wrong with the start and the end of a booking. -/
def timeErrors (start finish : Value) : Result (List String) :=
  match start with
  | .null => .ok ["start_time must not be NULL"]
  | .moment a =>
      match finish with
      | .null => .ok []
      | .moment b =>
          match b.before? a with
          | none => .error .wrongKind
          | some true =>
              .ok ["end_time=" ++ b.text ++ " is before start_time=" ++ a.text]
          | some false => .ok []
      | v => .ok ["end_time=" ++ v.quoted ++ " must be a datetime"]
  | v => .ok ["start_time=" ++ v.quoted ++ " must be a datetime"]

def booking (record : Fields) : Result Verdict := do
  let times ← timeErrors (record.field "start_time") (record.field "end_time")
  let coordinates ← coordinateErrors (record.field "latitude") (record.field "longitude")
  return Verdict.ofChecks
    [("ERROR_INVALID_SCHEDULE", missingText record "title"),
     ("ERROR_INVALID_SCHEDULE", times),
     ("ERROR_INVALID_COORDINATES", coordinates)]

/-- The entries of a value that can be gone through: the items of a list, the characters of a text, the
names of a record. -/
def entries : Value → Result (List Value)
  | .list items => .ok items
  | .text s => .ok (s.toList.map fun c => .text (String.singleton c))
  | .record fields => .ok (fields.map fun f => .text f.1)
  | _ => .error .wrongKind

/-- What is wrong with the destinations of a trip; a value that counts as not given has none. -/
def destinationErrors (v : Value) : Result (List String) := do
  let given ← if v.isTruthy then entries v else .ok []
  if given.any fun d => d.isTruthy && !isBlank d.display then return []
  else return ["at least one destination is required"]

/-- What is wrong with the number of days of a trip. -/
def tripDaysErrors (v : Value) : Result (List String) :=
  if v.isNull then .ok ["trip_days=" ++ v.quoted ++ " must be >= 1"]
  else
    numberErrors v Value.toInt
      (fun n => if n ≤ 0 then ["trip_days=" ++ v.quoted ++ " must be >= 1"] else [])
      ("trip_days=" ++ v.quoted ++ " must be a positive integer")

def request (record : Fields) : Result Verdict := do
  let destinations ← destinationErrors (record.field "destinations")
  let days ← tripDaysErrors (record.field "trip_days")
  return Verdict.ofChecks
    [("ERROR_MISSING_THREAD_ID", missingText record "thread_id"),
     ("ERROR_MISSING_DESTINATION", destinations),
     ("ERROR_INVALID_TRIP_DAYS", days)]

/-- The records that pass a check, and a warning for each that does not, with a last one for their
number. Each item comes with its record. -/
def filter {α : Type} (check : Fields → Result Verdict) (record : α → Fields) (items : List α) :
    Result (List α × List String) := do
  let judged ← items.mapM fun item => do return (item, ← check (record item))
  let kept := (judged.filter (·.2.valid)).map (·.1)
  let rejected := judged.filter (!·.2.valid)
  let warnings := rejected.map fun (item, verdict) =>
    let r := record item
    let name := (r.lookup "name").getD ((r.lookup "title").getD (.text "?"))
    "Rejected " ++ name.quoted ++ ": " ++ "; ".intercalate verdict.errors
  let total :=
    if rejected.isEmpty then []
    else
      [toString rejected.length ++ "/" ++ toString items.length ++ " records rejected; " ++
        toString kept.length ++ " passed."]
  return (kept, warnings ++ total)

end Validation

end Wayfare
