import Wayfare.Block
import Wayfare.Place.Record

/-! # Bookings

A booking is fixed: it stands in the plan at its own time and is never moved or
dropped. When its site is known, the day's route passes through it. A booking
can be changed after it was made, and then its fields can hold anything; what is
read from them here has a check of its own.
-/

namespace Wayfare

open Wayfare.Calendar

/-- The document that a booking comes from. -/
inductive BookingKind where
  | flight
  | hotel
  | train
  | event
  | restaurant
  | unknown
  deriving DecidableEq, Repr

namespace BookingKind

def all : List BookingKind :=
  [flight, hotel, train, event, restaurant, unknown]

def name : BookingKind → String
  | flight => "flight_reservation"
  | hotel => "hotel_reservation"
  | train => "train_ticket"
  | event => "event_ticket"
  | restaurant => "restaurant_reservation"
  | unknown => "unknown"

def ofName? (s : String) : Option BookingKind :=
  all.find? (·.name == s)

/-- How firm a booking is: one for travel and lodging, two for tickets and tables, three otherwise. -/
def priority : BookingKind → Nat
  | flight | hotel | train => 1
  | event | restaurant => 2
  | unknown => 3

def category : BookingKind → String
  | flight => "flight"
  | hotel => "accommodation"
  | train => "transport"
  | event => "event"
  | restaurant => "restaurant"
  | unknown => "other"

end BookingKind

/-- A booking. -/
structure Booking where
  title : Value
  start : Value
  finish : Value := .null
  location : Value := .text ""
  /-- The kind of document; there is none once something else was put in its place. -/
  kind : Option BookingKind := some .unknown
  address : Value := .text ""
  latitude : Value := .null
  longitude : Value := .null
  id : Value := .text ""
  details : Value := .record []
  /-- The thread and the position at which a source holds the booking. -/
  origin : Option (Ident × Nat) := none

instance instInhabitedBooking : Inhabited Booking := ⟨{ title := .null, start := .null }⟩

/-- The moment that a value is, if it is one. -/
def Value.moment? : Value → Option Moment
  | .moment m => some m
  | _ => none

namespace Booking

/-- When a booking begins, as a position on the time line. -/
def instant (b : Booking) : Int :=
  (b.start.moment?.map Moment.instant).getD 0

/-- The day on which a booking begins. A value that is no moment has none. -/
def startDate? (b : Booking) : Option Date :=
  b.start.moment?.map (·.date)

def block (b : Booking) : Block :=
  Block.ofHour ((b.start.moment?.map fun m => Int.ofNat m.hour).getD 0)

/-- How firm a booking is. -/
def priority (b : Booking) : Nat :=
  (b.kind.getD .unknown).priority

/-- The kind of document of a booking; without one there is nothing to ask. -/
def readKind (b : Booking) : Result BookingKind :=
  Result.ofOption .missingMember b.kind

/-- When a booking begins; it has to be a moment. -/
def readStart (b : Booking) : Result Moment :=
  Result.ofOption .missingMember b.start.moment?

def isLocated (b : Booking) : Bool :=
  !b.latitude.isNull && !b.longitude.isNull

/-- Whether one moment comes before another; moments that cannot be ordered are a fault, and so is
anything that is no moment. -/
def before (a b : Value) : Result Bool :=
  match a, b with
  | .moment a, .moment b => Result.ofOption .wrongKind (a.before? b)
  | _, _ => .error .wrongKind

/-- Whether the times of two bookings overlap. A booking covers its start but not its end. -/
def overlaps (a b : Booking) : Result Bool := do
  if ← before a.start b.finish then before b.start a.finish else return false

/-- The identifier of the site of a booking: from the identifier of the booking if it has one, else
from its kind and its start. -/
def siteId (b : Booking) : Result String :=
  if b.id.isTruthy then .ok ("confirmed:" ++ b.id.display)
  else do
    let kind ← b.readKind
    let start ← b.readStart
    return "confirmed:" ++ kind.name ++ ":" ++ start.text

/-- The site of a booking as a place, if its position is known. -/
def site (b : Booking) : Result (Option Place) :=
  if b.isLocated then do
    let id ← b.siteId
    let kind ← b.readKind
    let p : Place :=
      { id := .text id
        name := b.title
        category := .text kind.category
        latitude := b.latitude
        longitude := b.longitude
        address := if b.address.isTruthy then b.address else b.location
        source := .confirmed
        fixedTime := b.start }
    some <$> p.checked
  else .ok none

def sites (bookings : List Booking) : Result (List Place) := do
  return (← bookings.mapM site).filterMap fun p => p

end Booking

end Wayfare
