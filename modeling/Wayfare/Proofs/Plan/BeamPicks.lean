import Wayfare.Plan.Selection
import Wayfare.Proofs.Booking
import Wayfare.Proofs.Grid.Days
import Wayfare.Proofs.Grid.Distinct
import Wayfare.Proofs.Plan.BeamSearch

/-! # What a beam search picks

The search over a day leads past the sites of its bookings and its located
selections, and picks for each block one of its located suggestions. It has an
outcome when identifiers, sites and costs are known.
-/

namespace Wayfare.Plan

open Wayfare.Geo
open Wayfare.Booking (sites_eq)
open Wayfare.Grid (checkKeys_eq_ok)

variable {s : Settings} {capacity : Int} {used : List Ident} {d : DayPlan}

theorem optionsOf_eq_ok {excluded : List Ident} {slot : Slot} {options : List Place}
    (h : optionsOf capacity excluded slot = .ok options) :
    ∀ q ∈ options, q ∈ slot.suggested ∧ q.isLocated = true := by
  rw [optionsOf] at h
  split at h
  next =>
    cases h
    exact List.forall_mem_nil _
  next =>
    obtain ⟨_, _, h⟩ := Result.bind_eq_ok.mp h
    rw [Result.pure_eq_ok] at h
    subst h
    exact fun q hq => List.mem_filter.mp (List.mem_filter.mp hq).1

/-- The layer of a block passes the sites of its bookings and its located selections, and offers some of
its suggestions. -/
theorem layersOf_eq_ok {layers : List (Layer Place)} (h : layersOf capacity used d = .ok layers) :
    ∀ l ∈ layers, (∃ sites, Booking.sites (d.slots.get l.block).confirmed = .ok sites ∧
        l.fixed = sites ++ (d.slots.get l.block).selected.filter Place.isLocated) ∧
      ∀ q ∈ l.options, q ∈ (d.slots.get l.block).suggested ∧ q.isLocated = true := by
  obtain ⟨_, _, h⟩ := Result.bind_eq_ok.mp h
  intro l hl
  obtain ⟨b, _, hb⟩ := Result.exists_of_mem_mapM h hl
  obtain ⟨sites, hsites, hb⟩ := Result.bind_eq_ok.mp hb
  obtain ⟨options, hoptions, hb⟩ := Result.bind_eq_ok.mp hb
  rw [Result.pure_eq_ok] at hb
  subst hb
  exact ⟨⟨sites, hsites, rfl⟩, optionsOf_eq_ok hoptions⟩

/-- The partial day of a search over a day is that of a search over its layers. -/
theorem searchDay_eq_ok {α : Type} [Zero α] [Add α] [LT α] [DecidableLT α] [BEq α]
    {step : Option Place → Place → Result α} {width : Value} {best : Partial Place α}
    (h : searchDay step capacity width used d = .ok best) :
    ∃ layers n, layersOf capacity used d = .ok layers ∧
      searchBeam (·.key) step n layers = .ok best := by
  obtain ⟨layers, hlayers, h⟩ := Result.bind_eq_ok.mp h
  dsimp only at h
  split at h <;> obtain ⟨n, _, hbest⟩ := Result.bind_eq_ok.mp h <;>
    exact ⟨layers, n, hlayers, hbest⟩

/-! ## The layers of a day that can be read -/

theorem readKey_of_text {q : Place} {id : String} (h : q.id = .text id) :
    q.readKey = .ok (.text id) := by
  rw [Place.readKey, h]
  rfl

/-- What a search reads of a day whatever its steps cost: identifiers and the sites of bookings. -/
structure SearchReadable (d : DayPlan) : Prop where
  selected : ∀ q ∈ d.selected, ∃ k, q.readKey = .ok k
  suggested : ∀ q ∈ d.suggested, ∃ id, q.id = .text id
  sites : ∀ b ∈ d.confirmed, ∃ site, b.site = .ok site

/-- The layer of a block of a day: the sites of its bookings and its located selections are passed, and if
there is room it offers the located suggestions that are neither used nor selected on the day. -/
def layerAt (capacity : Int) (used : List Ident) (d : DayPlan) (b : Block) : Layer Place :=
  let slot := d.slots.get b
  { block := b
    fixed := slot.confirmed.filterMap (fun c => c.site.toOption.join) ++
      slot.selected.filter Place.isLocated
    options :=
      if slot.room capacity = 0 then []
      else slot.suggested.filter fun p =>
        p.isLocated && !(used ++ d.selected.map (·.key)).contains p.key }

def dayLayers (capacity : Int) (used : List Ident) (d : DayPlan) : List (Layer Place) :=
  Block.all.map (layerAt capacity used d)

namespace SearchReadable

theorem optionsOf_eq (h : SearchReadable d) (b : Block) :
    optionsOf capacity (used ++ d.selected.map (·.key)) (d.slots.get b) =
      .ok (layerAt capacity used d b).options := by
  rw [optionsOf, layerAt]
  split
  next => rfl
  next =>
    have hkeys : Grid.checkKeys ((d.slots.get b).suggested.filter Place.isLocated) = .ok () := by
      apply checkKeys_eq_ok
      intro q hq
      obtain ⟨id, hid⟩ :=
        h.suggested q (DayPlan.mem_suggested.mpr ⟨b, (List.mem_filter.mp hq).1⟩)
      exact ⟨_, readKey_of_text hid⟩
    dsimp only
    rw [hkeys]
    refine congrArg Except.ok (List.filter_filter.trans (List.filter_congr fun q _ => ?_))
    exact Bool.and_comm _ _

theorem layersOf_eq (h : SearchReadable d) :
    layersOf capacity used d = .ok (dayLayers capacity used d) := by
  refine Result.bind_eq_ok.mpr ⟨(), checkKeys_eq_ok h.selected, ?_⟩
  rw [dayLayers, Result.mapM_eq_ok, List.forall₂_map_right_iff, List.forall₂_same]
  intro b _
  have hsites := sites_eq fun c hc => h.sites c (DayPlan.mem_confirmed.mpr ⟨b, hc⟩)
  exact Result.bind_eq_ok.mpr ⟨_, hsites, Result.bind_eq_ok.mpr ⟨_, h.optionsOf_eq b, rfl⟩⟩

end SearchReadable

/-! ## What is picked -/

/-- What is picked for a block is one of its suggestions. -/
theorem beamPicks_eq_ok {speed : Float} {width : Value} {picks : List (Block × Place)}
    (h : beamPicks s speed capacity width used d = .ok picks) :
    ∀ b, ∀ p ∈ picks.lookup b, p ∈ (d.slots.get b).suggested := by
  obtain ⟨best, hsearch, hpicks⟩ := Result.bind_eq_ok.mp h
  obtain rfl := Result.pure_eq_ok.mp hpicks
  obtain ⟨layers, n, hlayers, hbest⟩ := searchDay_eq_ok hsearch
  intro b p hp
  obtain ⟨before, after, hsplit, _⟩ := List.lookup_eq_some_iff.mp hp
  have hpick : (b, p) ∈ best.picks := hsplit ▸ List.mem_append_right _ List.mem_cons_self
  obtain ⟨l, hl, rfl, hoption⟩ :=
    (keptBySteps_within _ layers).searchBeam (List.forall_mem_nil _) hbest _ hpick
  exact ((layersOf_eq_ok hlayers l hl).2 p hoption).1

/-- A step has a cost if the way can be measured and the rating be read. -/
theorem exists_stepCost {speed : Float} {previous : Option Place} {q : Place}
    (hdistance : (s.beamDistanceUnit == 0) = false) (htime : (s.beamTimeUnit == 0) = false)
    (hrating : q.rating.isNull = true ∨ ∃ x, q.rating.asReal = .ok x)
    (hway : ∀ p ∈ previous, checkPair (some p) (some q) = .ok () ∧
      ∃ minutes, travelMinutes ceilReal (distance s.earthRadius p q) speed = .ok minutes) :
    ∃ cost, stepCost s speed previous q = .ok cost := by
  have hstep : ∃ way, stepWay s speed previous q = .ok way := by
    cases previous with
    | none => exact ⟨_, rfl⟩
    | some p =>
        obtain ⟨hpair, hminutes⟩ := hway p rfl
        exact Result.exists_bind_eq_ok ⟨(), hpair⟩ fun _ _ =>
          Result.exists_bind_eq_ok hminutes fun _ _ => ⟨_, rfl⟩
  refine Result.exists_bind_eq_ok hstep fun way _ => ?_
  refine Result.exists_bind_eq_ok (exists_divide _ hdistance) fun _ _ => ?_
  refine Result.exists_bind_eq_ok (exists_divide _ htime) fun _ _ => ?_
  dsimp only
  split
  next => exact ⟨_, rfl⟩
  next hrated =>
    exact Result.exists_bind_eq_ok (hrating.resolve_left hrated) fun _ _ => ⟨_, rfl⟩

/-- A place that a search over a day can come by: the site of a booking, or a located place. -/
def IsPassed (d : DayPlan) (q : Place) : Prop :=
  (∃ b ∈ d.confirmed, b.site = .ok (some q)) ∨ (q ∈ d.selected ∨ q ∈ d.suggested) ∧ q.isLocated = true

/-- All that a search over a day asks for is known: identifiers, the sites of bookings, and the costs of
going from one place to another. -/
structure SearchReady (s : Settings) (speed : Float) (d : DayPlan) : Prop where
  selected : ∀ q ∈ d.selected, ∃ k, q.readKey = .ok k
  suggested : ∀ q ∈ d.suggested, ∃ id, q.id = .text id
  sites : ∀ b ∈ d.confirmed, ∃ site, b.site = .ok site
  steps : ∀ previous : Option Place, (∀ q ∈ previous, IsPassed d q) → ∀ q, IsPassed d q →
    ∃ cost, stepCost s speed previous q = .ok cost

namespace SearchReady

variable {speed : Float}

theorem readable (h : SearchReady s speed d) : SearchReadable d :=
  ⟨h.selected, h.suggested, h.sites⟩

theorem isPassed_of_layersOf {layers : List (Layer Place)}
    (hlayers : layersOf capacity used d = .ok layers) : ∀ q ∈ passed layers, IsPassed d q := by
  intro q hq
  obtain ⟨l, hl, hq⟩ := List.mem_flatMap.mp hq
  obtain ⟨⟨sites, hsites, hfixed⟩, hoptions⟩ := layersOf_eq_ok hlayers l hl
  rcases List.mem_append.mp hq with hq | hq
  · rw [hfixed] at hq
    rcases List.mem_append.mp hq with hq | hq
    · obtain ⟨found, hfound, hsites⟩ := Result.bind_eq_ok.mp hsites
      rw [Result.pure_eq_ok] at hsites
      subst hsites
      obtain ⟨site, hsite, rfl⟩ := List.mem_filterMap.mp hq
      obtain ⟨c, hc, hcq⟩ := Result.exists_of_mem_mapM hfound hsite
      exact .inl ⟨c, DayPlan.mem_confirmed.mpr ⟨_, hc⟩, hcq⟩
    · obtain ⟨hq, hlocated⟩ := List.mem_filter.mp hq
      exact .inr ⟨.inl (DayPlan.mem_selected.mpr ⟨_, hq⟩), hlocated⟩
  · obtain ⟨hq, hlocated⟩ := hoptions q hq
    exact .inr ⟨.inr (DayPlan.mem_suggested.mpr ⟨_, hq⟩), hlocated⟩

theorem searchable (h : SearchReady s speed d) {layers : List (Layer Place)}
    (hlayers : layersOf capacity used d = .ok layers) :
    Searchable (·.key) (stepCost s speed) layers where
  first q hq := h.steps none nofun q (isPassed_of_layersOf hlayers q hq)
  next p hp q hq := by
    refine h.steps (some p) ?_ q (isPassed_of_layersOf hlayers q hq)
    intro r hr
    obtain rfl := Option.mem_some_iff.mp hr
    exact isPassed_of_layersOf hlayers p hp
  text l hl q hq := by
    obtain ⟨id, hid⟩ := h.suggested q
      (DayPlan.mem_suggested.mpr ⟨_, ((layersOf_eq_ok hlayers l hl).2 q hq).1⟩)
    rw [Place.key, hid]
    rfl

/-- A day that is ready for a search has its picks. -/
theorem exists_beamPicks (h : SearchReady s speed d) {width : Value}
    (hwidth : ∃ n, width.asRepeats = .ok n) :
    ∃ picks, beamPicks s speed capacity width used d = .ok picks := by
  refine Result.exists_bind_eq_ok ?_ fun _ _ => ⟨_, rfl⟩
  refine Result.exists_bind_eq_ok ⟨_, h.readable.layersOf_eq⟩ fun layers hlayers => ?_
  have hsearch := (h.searchable hlayers).exists_searchBeam
  dsimp only
  split
  next => exact Result.exists_bind_eq_ok ⟨1, rfl⟩ fun n _ => hsearch n
  next => exact Result.exists_bind_eq_ok hwidth fun n _ => hsearch n

end SearchReady

end Wayfare.Plan
