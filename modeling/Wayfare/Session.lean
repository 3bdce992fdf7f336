import Wayfare.Synthesis
import Wayfare.Wire

/-! # Sessions

A session answers several requests with one synthesizer. Results are kept under
names for later requests, and between requests the pool, the bookings and a
kept grid can be changed. A booking that is changed in the source is changed on
the kept grids that hold it.
-/

namespace Wayfare

open Wayfare.Plan

/-- What a request is for. Shortlists and grids of earlier requests are given by name. -/
inductive Task where
  | shortlist
  | grid (selections : List Selection) (offers : Option (List Offer)) (candidates : Ident)
  | itinerary (grid : Ident) (places : List Selection)
  | whole (selections : List Selection) (offers : Option (List Offer))

/-- A list of a slot that can be added to. -/
inductive SlotPart where
  | selected
  | suggested

def Slot.add (s : Slot) (part : SlotPart) (p : Place) : Slot :=
  match part with
  | .selected => { s with selected := s.selected ++ [p] }
  | .suggested => { s with suggested := s.suggested ++ [p] }

def SlotPart.ofName? : Value → Option SlotPart
  | .text "user" => some selected
  | .text "ai" => some suggested
  | _ => none

/-- Puts a booking that was changed in the place of what it was, wherever that stands. -/
def Grid.renewBooking (g : Grid) (changed : Booking) : Grid :=
  let inSlot (s : Slot) : Slot :=
    { s with confirmed := s.confirmed.map fun b => if b.origin = changed.origin then changed else b }
  { g with
    days := g.days.map fun d =>
      { d with slots := PerBlock.ofFn fun b => inSlot (d.slots.get b) } }

/-- A synthesizer with what is left of earlier requests. -/
structure Session where
  synthesizer : Synthesizer
  log : Option Log := none
  saved : List (Ident × Outcome) := []

namespace Session

/-- The candidates that a name stands for, if it stands for anything. A result of another stage has none,
which shows when they are asked for. -/
def candidatesNamed (t : Session) (name : Ident) : Option (Result (List Place)) :=
  match t.saved.lookup name with
  | none => none
  | some (.shortlist l) => some (.ok l.all)
  | some _ => some (.error .wrongKind)

/-- The grid that a name stands for. A result of another stage has no days. -/
def gridNamed (t : Session) (name : Ident) : Result (Option Grid) :=
  match t.saved.lookup name with
  | none => .ok none
  | some (.grid g) => .ok (some g)
  | some _ => .error .missingMember

def outcome (t : Session) (request : TripRequest) (task : Task) : Reporting Outcome :=
  let y := t.synthesizer
  match task with
  | .shortlist => Outcome.shortlist <$> y.shortlist request
  | .grid selections offers candidates =>
      Outcome.grid <$> y.grid request selections offers (t.candidatesNamed candidates)
  | .itinerary grid places => do
      Reporting.ofResult request.check
      let grid ← Reporting.ofResult (t.gridNamed grid)
      Outcome.itinerary <$> y.itinerary request grid places
  | .whole selections offers => Outcome.itinerary <$> y.synthesize request selections offers

/-- Answers a request and keeps the result under a name, if one is given. -/
def perform (t : Session) (request : TripRequest) (task : Task) (name : Option Ident) :
    Session × Result Outcome :=
  let (result, log) := (t.outcome request task).run.run t.log
  match result, name with
  | .ok o, some name => ({ t with log := log, saved := (name, o) :: t.saved }, result)
  | _, _ => ({ t with log := log }, result)

/-- Adds an entry to the pool, which can be empty; the number of entries there. -/
def addPlace (t : Session) (p : Option Place) : Session × Nat :=
  let pool := t.synthesizer.pool ++ [p]
  ({ t with synthesizer := { t.synthesizer with pool := pool } }, pool.length)

def withSource (t : Session) (source : BookingSource) : Session :=
  { t with synthesizer := { t.synthesizer with source := some source } }

/-- Adds a booking to the source; the number of bookings of its thread. -/
def addBooking (t : Session) (thread : Value) (b : Booking) : Result (Session × Nat) := do
  let source ← Result.ofOption .missingMember t.synthesizer.source
  let thread ← Result.ofOption .wrongKind thread.ident?
  let source := source.add thread b
  return (t.withSource source, (source.forThread thread).length)

/-- A result with a booking changed; only grids hold bookings that can still be used. -/
def renewIn (changed : Booking) : Outcome → Outcome
  | .grid g => .grid (g.renewBooking changed)
  | o => o

/-- The position that a number stands for in a list of so many entries: from the front, or from the end
when it is negative. -/
def positionIn (length : Nat) (index : Int) : Result Nat :=
  let i := if index < 0 then index + Int.ofNat length else index
  if 0 ≤ i ∧ i < Int.ofNat length then .ok i.toNat else .error .emptyChoice

/-- Changes a field of a booking of the source, unchecked, and with it the booking on kept grids. -/
def amendBooking (t : Session) (thread : Value) (index : Value) (field : Value) (v : Value) :
    Result Session := do
  let source ← Result.ofOption .missingMember t.synthesizer.source
  let thread ← Result.ofOption .wrongKind thread.ident?
  let held := source.forThread thread
  let i ← positionIn held.length (← index.asInt)
  let b ← Result.ofOption .emptyChoice held[i]?
  match field with
  | .text name => do
      let changed ← b.amend name v
      let t := t.withSource (source.put thread (held.set i changed))
      return { t with saved := t.saved.map fun e => (e.1, renewIn changed e.2) }
  | _ => throw .wrongKind

def dayLabelled (g : Grid) (label : Value) : Result DayPlan := do
  let label ← Result.ofOption .wrongKind label.ident?
  Result.ofOption .missingKey (g.days.find? fun d => Ident.whole d.number == label)

/-- Adds a place to a kept grid; the slot that it was added to. -/
def addToGrid (t : Session) (name : Ident) (label block part : Value) (p : Place) :
    Result (Session × Slot) := do
  let g ← Result.ofOption .missingKey (← t.gridNamed name)
  let day ← dayLabelled g label
  let b ← Block.named block
  let part ← Result.ofOption .missingKey (SlotPart.ofName? part)
  let g := { g with days := modifyDay g.days day.number b (·.add part p) }
  return ({ t with saved := (name, .grid g) :: t.saved }, (day.slots.get b).add part p)

/-- The events of a thread, all of them or those of one kind. -/
def events (t : Session) (thread kind : Value) : Result (List Event) :=
  t.log.elim (.ok []) fun log => log.read thread kind

end Session

end Wayfare
