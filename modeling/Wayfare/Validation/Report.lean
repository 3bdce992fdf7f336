import Wayfare.Validation

/-! # Reports

The outcome of a check as callers hand it over again, with fields that can hold
anything, and the rejection that it leads to.
-/

namespace Wayfare

/-- The outcome of a check as it is handed over. -/
structure Report where
  valid : Value
  errors : Value := .list []
  record : Value := .record []
  code : Value := .text ""

/-- Reasons as they are handed over: a text is one reason, and a list has to hold texts. -/
def readReasons (errors : Value) : Result (List String) :=
  match errors with
  | .text s => .ok [s]
  | v => do
      (← Validation.entries v).mapM fun
        | .text s => .ok s
        | _ => .error .wrongKind

/-- A rejection for some reasons; a code that is no text cannot be told. -/
def reject (code errors : Value) : Result Unit := do
  let reasons ← readReasons errors
  match code with
  | .text s => throw (.rejected s reasons)
  | _ => throw .rejectedWithoutCode

namespace Report

/-- The report of given fields; whether the record is valid has to be among them. -/
def ofFields (fields : Fields) : Result Report := do
  fields.onlyNamed ["valid", "errors", "record", "code"]
  let valid ← Result.ofOption .wrongKind (fields.lookup "valid")
  return {
    valid := valid
    errors := (fields.lookup "errors").getD (.list [])
    record := (fields.lookup "record").getD (.record [])
    code := (fields.lookup "code").getD (.text "") }

/-- Refuses a record that is not valid, under the first of the codes that counts as given. -/
def require (r : Report) (code : Value) : Result Unit :=
  if r.valid.isTruthy then .ok ()
  else
    reject (([code, r.code].find? Value.isTruthy).getD (.text "ERROR_INVALID_INPUT")) r.errors

/-- Whether the report is one of a valid record; anything but a truth value does not tell. -/
def verdict (r : Report) : Result Bool :=
  match r.valid with
  | .bool b => .ok b
  | _ => .error .wrongKind

end Report

end Wayfare
