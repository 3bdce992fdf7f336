import Wayfare.Booking.Document
import Wayfare.Entries
import Wayfare.Validation

/-! # Intake

What callers hand over is checked before the planner sees it: a selection is a
place or a record of one, and a booking is checked again, since it may have
been changed after it was made.
-/

namespace Wayfare

/-- A selection as it is handed over. -/
inductive Selection where
  | place (p : Place)
  | value (v : Value)

/-- The place of a selection. A record has to keep the input contract. -/
def Selection.toPlace : Selection → Result Place
  | place p => .ok p
  | value (.record fields) => do
      (← Validation.place (Place.normalized fields)).require none
      Place.ofRecord fields
  | value v => .error (.notAPlace v.kindName)

/-- A booking as it is handed over. -/
inductive Offer where
  | booking (b : Booking)
  | value (v : Value)

/-- The booking of an offer. It has to keep the input contract. -/
def Offer.toBooking : Offer → Result Booking
  | booking b => do
      (← Validation.booking (← b.toRecord)).require none
      return b
  | value v => .error (.notABooking v.kindName)

/-- The bookings of every thread, in the order in which they were added. -/
abbrev BookingSource := List (Ident × List Booking)

namespace BookingSource

def forThread (source : BookingSource) (thread : Ident) : List Booking :=
  (source.lookup thread).getD []

def put (source : BookingSource) (thread : Ident) (bookings : List Booking) : BookingSource :=
  changeEntry thread (fun _ => bookings) source

@[simp] theorem forThread_put (source : BookingSource) (thread : Ident)
    (bookings : List Booking) : (source.put thread bookings).forThread thread = bookings := by
  simp [put, forThread]

theorem forThread_put_of_ne {thread other : Ident} (h : other ≠ thread)
    (source : BookingSource) (bookings : List Booking) :
    (source.put thread bookings).forThread other = source.forThread other := by
  simp [put, forThread, lookup_changeEntry_of_ne h]

/-- Adds a booking to a thread and marks where it is held. -/
def add (source : BookingSource) (thread : Ident) (b : Booking) : BookingSource :=
  let held := source.forThread thread
  source.put thread (held ++ [{ b with origin := some (thread, held.length) }])

def ofThreads (threads : List (Ident × List Booking)) : BookingSource :=
  threads.foldl (fun source t => t.2.foldl (fun source b => source.add t.1 b) source) []

end BookingSource

end Wayfare
