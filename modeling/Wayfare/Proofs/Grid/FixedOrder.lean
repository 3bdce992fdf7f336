import Wayfare.Proofs.Grid.FixedPass

/-! # The grid after the bookings

A booking stands in the cell of its day and of the block of its hour. Days,
hours and blocks all follow the clock, so a trip that covers its bookings shows
them in the order of time when it is read from the first cell to the last.
-/

namespace Wayfare

open Wayfare.Calendar

namespace Block

end Block

namespace Calendar.Moment

end Calendar.Moment

namespace Grid

open Booking

/-- The bookings of a cell are taken out of those of the day. -/
theorem bookingsAt_eq_filter (day : Booking → Int) (bookings : List Booking) (n : Int) (b : Block) :
    bookingsAt day bookings n b =
      (bookings.filter fun x => day x = n).filter fun x => x.block = b := by
  rw [bookingsAt, List.filter_filter]
  apply List.filter_congr
  intro x _
  rw [← Bool.decide_and]
  apply decide_eq_decide.mpr
  rw [Prod.mk.injEq]
  exact And.comm

section Reading

variable {index : DayIndex} {tripStart : Option Date} {tripDays : Int}
variable {empty after : List DayPlan} {order : List Booking} {warnings : List String}

theorem get_slots_placeInOrder {day : Booking → Int}
    (hempty : Distributor.emptyDays tripStart tripDays = .ok empty)
    (hplaced : placeInOrder day [] empty order = .ok (after, warnings)) {d : DayPlan}
    (hd : d ∈ after) (b : Block) :
    d.slots.get b = { confirmed := bookingsAt day order d.number b } := by
  rw [placeInOrder_days hplaced] at hd
  obtain ⟨e, he, rfl⟩ := List.mem_map.mp hd
  rw [DayPlan.get_slots_withConfirmed, Distributor.get_slots_emptyDays hempty he]
  rfl

theorem map_number_placeInOrder {day : Booking → Int}
    (hempty : Distributor.emptyDays tripStart tripDays = .ok empty)
    (hplaced : placeInOrder day [] empty order = .ok (after, warnings)) :
    after.map (·.number) = Distributor.dayNumbers tripDays := by
  rw [placeInOrder_days hplaced, List.map_map]
  exact Distributor.number_emptyDays hempty

/-- What is read off the days, one after the other and block by block. -/
theorem flatMap_confirmed_placeInOrder {day : Booking → Int}
    (hempty : Distributor.emptyDays tripStart tripDays = .ok empty)
    (hplaced : placeInOrder day [] empty order = .ok (after, warnings)) :
    after.flatMap (·.confirmed) =
      (Distributor.dayNumbers tripDays).flatMap fun n => Block.all.flatMap (bookingsAt day order n) := by
  rw [← map_number_placeInOrder hempty hplaced, List.flatMap_map]
  apply List.flatMap_congr
  intro d hd
  rw [DayPlan.confirmed_eq]
  apply List.flatMap_congr
  intro b _
  rw [get_slots_placeInOrder hempty hplaced hd]

theorem flatMap_bookingsAt_perm {day : Booking → Int}
    (hday : ∀ x ∈ order, day x ∈ Distributor.dayNumbers tripDays) :
    ((Distributor.dayNumbers tripDays).flatMap fun n =>
      Block.all.flatMap (bookingsAt day order n)).Perm order := by
  refine List.Perm.trans ?_ (flatMap_filter_perm (Distributor.nodup_dayNumbers tripDays) hday)
  apply List.Perm.flatMap_left
  intro n _
  rw [funext (bookingsAt_eq_filter day order n)]
  exact flatMap_filter_perm Block.nodup_all fun x _ => Block.mem_all _

end Reading

end Grid

end Wayfare
