import Wayfare.Proofs.Plan.TripRoutes
import Wayfare.Proofs.Plan.Visits

/-! # The visits of a trip

The days of a plan are one stretch of visits after the other, from nothing used
on. Beside the visits a day only stops at the sites of its bookings.
-/

namespace Wayfare.Plan

open Wayfare.Booking (sites_append)

def PlannedDay.visited (day : PlannedDay) : List Place :=
  day.slots.flatMap (·.places)

/-- Where a planned day stops, located or not. -/
def PlannedDay.stops (day : PlannedDay) : List Place :=
  day.route.stops ++ day.unrouted

def PlannedDay.confirmed (day : PlannedDay) : List Booking :=
  day.slots.flatMap (·.confirmed)

namespace Planner

variable {s : Settings} {p : Planner} {mode : Value} {planned : List PlannedDay}

theorem visits_planDays {used : List Ident} {days : List (Value × DayPlan)}
    (h : p.planDays s mode used days = .ok planned) :
    Visits (days.flatMap (·.2.selected)) (days.flatMap (·.2.suggested)) used
        (planned.flatMap (·.visited)) ∧
      planned.map (·.confirmed) = days.map (·.2.confirmed) := by
  induction days generalizing used planned with
  | nil =>
      cases h
      exact ⟨Visits.nil used, rfl⟩
  | cons d rest ih =>
      obtain ⟨⟨day, used'⟩, hday, h⟩ := Result.bind_eq_ok.mp h
      obtain ⟨later, hlater, h⟩ := Result.bind_eq_ok.mp h
      rw [Result.pure_eq_ok] at h
      subst h
      obtain ⟨hvisits, rfl, hconfirmed⟩ := visits_selectDay (planDay_eq_ok hday).1
      obtain ⟨hrest, hconfirmed'⟩ := ih hlater
      refine ⟨?_, ?_⟩
      · rw [List.flatMap_cons, List.flatMap_cons, List.flatMap_cons]
        exact hvisits.append hrest
      · rw [List.map_cons, List.map_cons, hconfirmed']
        exact congrArg (· :: _) hconfirmed

/-- Days stop at the sites of their bookings and at what they visit. -/
theorem stops_of_routed {days : List DayPlan} (h : List.Forall₂ Routed days planned) :
    ∃ sites, Booking.sites (days.flatMap (·.confirmed)) = .ok sites ∧
      (planned.flatMap (·.stops)).Perm (sites ++ planned.flatMap (·.visited)) := by
  induction h with
  | nil => exact ⟨[], rfl, List.Perm.refl _⟩
  | @cons d day days planned hday _ ih =>
      obtain ⟨sites, anchors, hsites, _, hanchors, _, _, hstops, _, _⟩ := hday
      obtain ⟨later, hlater, hrest⟩ := ih
      refine ⟨sites ++ later, ?_, ?_⟩
      · rw [List.flatMap_cons]
        exact sites_append hsites hlater
      · have hstops : day.stops.Perm (sites ++ day.visited) :=
          hstops.trans (hanchors.append_right _)
        rw [List.flatMap_cons, List.flatMap_cons]
        refine (hstops.append hrest).trans ?_
        rw [List.append_assoc, List.append_assoc]
        exact (List.perm_append_comm_assoc _ _ _).append_left sites

theorem visits_planGrid {grid : Grid} {request : TripRequest}
    (h : p.planGrid s grid request = .ok planned) :
    Visits (grid.inOrder.flatMap (·.selected)) (grid.inOrder.flatMap (·.suggested)) []
        (planned.flatMap (·.visited)) ∧
      planned.map (·.confirmed) = grid.inOrder.map (·.confirmed) ∧
      ∃ sites, Booking.sites (grid.inOrder.flatMap (·.confirmed)) = .ok sites ∧
        (planned.flatMap (·.stops)).Perm (sites ++ planned.flatMap (·.visited)) := by
  have hrouted := planDays_routed h
  rw [List.forall₂_map_left_iff] at hrouted
  obtain ⟨hvisits, hconfirmed⟩ := visits_planDays h
  rw [List.flatMap_map, List.flatMap_map] at hvisits
  rw [List.map_map] at hconfirmed
  exact ⟨hvisits, hconfirmed, stops_of_routed (hrouted.imp fun d day hday => hday.2)⟩

end Planner

end Wayfare.Plan
