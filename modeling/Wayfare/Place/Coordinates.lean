import Wayfare.Value.Number

/-! # Checking coordinates

A latitude and a longitude are both given or both absent, are numbers, and lie
within their ranges.
-/

namespace Wayfare

def gotPair (lat lon : Value) : String :=
  "(got lat=" ++ lat.quoted ++ ", lon=" ++ lon.quoted ++ ")"

/-- The numbers of a pair, or nothing when one of them is no number; a number beyond all range is a
fault. -/
def readPair (lat lon : Value) : Result (Option (Float × Float)) :=
  match lat.toReal with
  | .error .tooLarge => .error .tooLarge
  | .error _ => .ok none
  | .ok x =>
      match lon.toReal with
      | .error .tooLarge => .error .tooLarge
      | .error _ => .ok none
      | .ok y => .ok (some (x, y))

/-- What is wrong with a number outside its range, which is symmetric about zero. -/
def rangeErrors (name : String) (x bound : Float) (range : String) : List String :=
  if -bound ≤ x ∧ x ≤ bound then []
  else [name ++ "=" ++ Decimal.shortest x ++ " is outside valid range " ++ range]

/-- What is wrong with a latitude and a longitude; nothing if both are absent. -/
def coordinateErrors (lat lon : Value) : Result (List String) :=
  if lat.isNull && lon.isNull then .ok []
  else if lat.isNull || lon.isNull then
    .ok ["latitude/longitude must be given together " ++ gotPair lat lon]
  else
    match readPair lat lon with
    | .error fault => .error fault
    | .ok none => .ok ["latitude/longitude must be numeric " ++ gotPair lat lon]
    | .ok (some (x, y)) =>
        .ok (rangeErrors "latitude" x 90.0 "[-90, 90]" ++ rangeErrors "longitude" y 180.0 "[-180, 180]")

end Wayfare
