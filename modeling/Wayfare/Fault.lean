import Wayfare.Text.Quoted

/-! # Faults

The ways in which a request can fail, and the words in which those that concern
the caller are reported.
-/

namespace Wayfare

/-- Why a request fails. -/
inductive Fault where
  /-- A record breaks the input contract: a code and the reasons. -/
  | rejected (code : String) (errors : List String)
  /-- A record breaks the input contract under a code that is no text. -/
  | rejectedWithoutCode
  /-- No seeding for clusters has this name; the name is given as quoted. -/
  | unknownSeeding (name : String)
  /-- No route strategy has this name; the name is given as quoted. -/
  | unknownStrategy (name : String)
  /-- No way of choosing suggestions has this name; the name is given as quoted. -/
  | unknownSelection (name : String)
  /-- A selection is neither a place nor a record. -/
  | notAPlace (kind : String)
  | notABooking (kind : String)
  /-- A value is not the result of any stage. -/
  | noWireForm (kind : String)
  /-- Fields that the wire form cannot carry: their paths, each with the kind of mismatch. -/
  | wireMismatch (details : List (List String × String))
  /-- A value of the wrong kind takes part in a computation. -/
  | wrongKind
  /-- A text or a number that does not stand for what it should. -/
  | unreadable
  /-- A number or a date beyond the range of its type. -/
  | tooLarge
  | divisionByZero
  | emptyChoice
  /-- No block or day of this name. -/
  | missingKey
  /-- A value lacks the part that is asked for. -/
  | missingMember
  /-- A line of an event log does not read back. -/
  | damagedLog
  /-- No file can have the name that a session asks for. -/
  | nameTooLong
  deriving DecidableEq, Repr

/-- What a fault says to the caller; computations that go wrong say nothing. -/
def Fault.message : Fault → String
  | rejected code errors => code ++ ": " ++ "; ".intercalate errors
  | unknownSeeding name =>
      "ERROR_UNKNOWN_KMEANS_INIT: " ++ name ++ " (known: ['kmeans++', 'spread'])"
  | unknownStrategy name =>
      "ERROR_UNKNOWN_ROUTE_STRATEGY: " ++ name ++
        " (known: ['balanced', 'distance', 'input_order', 'time'])"
  | unknownSelection name => "ERROR_UNKNOWN_AI_SELECTION: " ++ name
  | notAPlace kind => "selection must be a Place or a dict, got " ++ kind
  | notABooking kind => "confirmed schedule expected, got " ++ kind
  | noWireForm kind => "no response model for " ++ kind
  | _ => ""

/-- A result of a computation that can fail. -/
abbrev Result (α : Type) := Except Fault α

/-- A result from a value that may be missing. -/
def Result.ofOption {α : Type} (fault : Fault) : Option α → Result α
  | some a => .ok a
  | none => .error fault

end Wayfare
