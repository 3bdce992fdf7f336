import Wayfare.Entries
import Wayfare.Value.Number
import Wayfare.Value.Read
import Wayfare.Value.Write

/-! # The event log

What the stages report is kept in files of one JSON record a line. The file of
a session is named after it, with everything unsafe in a file name replaced, so
two sessions can share a file; every record carries its session, and reading
keeps them apart. A file is opened for the first event that it gets and stays
open until it is closed; it is only ever written at its end. It is read back
line by line, and characters of a session or a report that end a line of text
also end a line of its file.

Left out is the time stamp. Every record begins with the moment at which it is
written, as a text without line ends, and no reading looks at it.
-/

namespace Wayfare

open Wayfare.Text

/-- Something reported for a session: its kind, and what there is to say about it. -/
structure Event where
  session : String
  kind : Value
  payload : Value

namespace Event

/-- The record of an event, without its time stamp. -/
def toValue (e : Event) : Value :=
  .record [("session_id", .text e.session), ("event_type", e.kind), ("payload", e.payload)]

def ofValue? : Value → Option Event
  | .record fields =>
      match Fields.field fields "session_id" with
      | .text session =>
          some ⟨session, Fields.field fields "event_type", Fields.field fields "payload"⟩
      | _ => none
  | _ => none

/-- The line of an event, with the character that ends it. -/
def line (e : Event) : String :=
  String.ofList (e.toValue.json ++ ['\n'])

end Event

/-- The files of an event log with their texts, in the order in which they were begun, and the names of
those that are open for writing. -/
structure Log where
  files : List (String × String) := []
  opened : List String := []

namespace Log

/-- Whether a character may stand in the name of a file. -/
def isSafe (c : Char) : Bool :=
  c.isAlphanum || c == '_' || c == '.' || c == '-'

def fileName (session : String) : String :=
  let safe := session.toList.map fun c => if isSafe c then c else '_'
  let stem := safe.dropWhile (· == '.')
  (if stem.isEmpty then "session" else String.ofList stem) ++ ".jsonl"

/-- The most characters that the name of a file can have. -/
def longestName : Nat := 255

/-- The name of the file of a session, if there can be a file of that name. -/
def usableName (session : String) : Result String :=
  let name := fileName session
  if name.length ≤ longestName then .ok name else .error .nameTooLong

/-- The text of a file, empty when there is none. -/
def textOf (log : Log) (name : String) : String :=
  (log.files.lookup name).getD ""

/-- Adds to the text of a file, which is begun if there is none. -/
def extend (log : Log) (name addition : String) : Log :=
  { log with files := changeEntry name (fun text => text.getD "" ++ addition) log.files }

/-- What is added to a file stands at its end. -/
@[simp] theorem textOf_extend (log : Log) (name addition : String) :
    (log.extend name addition).textOf name = log.textOf name ++ addition := by
  simp [extend, textOf]

theorem textOf_extend_of_ne {name other : String} (h : other ≠ name) (log : Log)
    (addition : String) : (log.extend name addition).textOf other = log.textOf other := by
  simp [extend, textOf, lookup_changeEntry_of_ne h]

/-- Opens a file for writing at its end, unless it is open. -/
def openFile (log : Log) (name : String) : Log :=
  if log.opened.contains name then log
  else { log.extend name "" with opened := log.opened ++ [name] }

@[simp] theorem textOf_openFile (log : Log) (name other : String) :
    (log.openFile name).textOf other = log.textOf other := by
  unfold openFile
  split
  · rfl
  · change (log.extend name "").textOf other = _
    by_cases h : other = name
    · rw [h, textOf_extend, String.append_empty]
    · exact textOf_extend_of_ne h log ""

def append (log : Log) (e : Event) : Result Log := do
  let name ← usableName e.session
  return (log.openFile name).extend name e.line

/-- Closes the file of a session, or all files. The next event of a session opens its file again. -/
def close (log : Log) : Option String → Log
  | some session => { log with opened := log.opened.filter (· != fileName session) }
  | none => { log with opened := [] }

@[simp] theorem textOf_close (log : Log) (session : Option String) (name : String) :
    (log.close session).textOf name = log.textOf name := by
  cases session <;> rfl

/-- The names of the files in alphabetical order. -/
def fileNames (log : Log) : List String :=
  (log.files.map (·.1)).mergeSort fun a b => decide (a ≤ b)

def readLine (line : String) : Result Event :=
  Result.ofOption .damagedLog ((Value.ofJson? line).bind Event.ofValue?)

/-- A session that has a file; anything but a text has none. -/
def readSession : Value → Result String
  | .text session => .ok session
  | _ => .error .wrongKind

/-- The events of a session, the oldest first, all of them or those of one kind. A line of its file
that does not read back is a fault. -/
def read (log : Log) (session kind : Value) : Result (List Event) := do
  let session ← readSession session
  let name ← usableName session
  let events ← ((lines (log.textOf name)).filter fun l => !isBlank l).mapM readLine
  return events.filter fun e => e.session == session && (kind.isNull || kind == e.kind)

end Log

end Wayfare
