import Wayfare.Proofs.Booking
import Wayfare.Proofs.Grid.RankedFill
import Wayfare.Proofs.Validation

/-! # Trips that are laid out

A request that is accepted need not be one that can be laid out. Its number of
days has to be a whole number that the calendar has room for, its destinations
have to be texts, and the times of the bookings have to be such that each can be
ordered with every other. If places and bookings hold what they are for, nothing
else stands in the way.
-/

namespace Wayfare

open Wayfare.Calendar Wayfare.Booking

/-! ## Requests -/

namespace TripRequest

variable {request : TripRequest}

/-- As far as the number of days of an accepted request is whole, it is not below one. -/
theorem one_le_days (hcheck : request.check = .ok ()) {n : Int} (hdays : request.days = .ok n) :
    1 ≤ n := by
  obtain ⟨record, hrecord, h⟩ := Result.bind_eq_ok.mp hcheck
  obtain ⟨verdict, hverdict, h⟩ := Result.bind_eq_ok.mp h
  have hpasses := Validation.passesRequest_of_valid hverdict (Verdict.require_eq_ok.mp h)
  obtain ⟨destinations, _, hrecord⟩ := Result.bind_eq_ok.mp hrecord
  obtain ⟨styles, _, hrecord⟩ := Result.bind_eq_ok.mp hrecord
  rw [Result.pure_eq_ok] at hrecord
  subst hrecord
  have herrors : Validation.tripDaysErrors request.tripDays = .ok [] := hpasses.days
  obtain ⟨m, hm, hpositive⟩ := Validation.tripDaysErrors_eq_ok_nil.mp herrors
  have hsame : n = m := by
    rw [days] at hdays
    cases hv : request.tripDays <;> rw [hv] at hdays hm <;> cases hdays <;> cases hm <;> rfl
  omega

/-- The names of the destinations are known if those that count as given are texts. -/
theorem exists_destinationNames_iff :
    (∃ names, request.destinationNames = .ok names) ↔
      ∃ items, Validation.entries request.destinations = .ok items ∧
        ∀ v ∈ items, v.isTruthy = true → ∃ t, v = .text t := by
  constructor
  · rintro ⟨names, h⟩
    obtain ⟨items, hitems, h⟩ := Result.bind_eq_ok.mp h
    refine ⟨items, hitems, fun v hv htruthy => ?_⟩
    obtain ⟨name, _, hname⟩ := Result.exists_eq_ok_of_mapM h hv
    cases v with
    | text t => exact ⟨t, rfl⟩
    | _ =>
        dsimp only at hname
        rw [if_pos htruthy] at hname
        cases hname
  · rintro ⟨items, hitems, htexts⟩
    refine Result.exists_bind_eq_ok ⟨items, hitems⟩ fun _ hitems' => ?_
    cases hitems.symm.trans hitems'
    apply Result.exists_mapM_eq_ok
    intro v hv
    by_cases htruthy : v.isTruthy = true
    · obtain ⟨t, rfl⟩ := htexts v hv htruthy
      exact ⟨_, rfl⟩
    · cases v with
      | text t => exact ⟨_, rfl⟩
      | _ => exact ⟨"", by dsimp only; rw [if_neg htruthy]⟩

end TripRequest

/-! ## Bookings -/

namespace Grid

/-- If each of some moments can be ordered with the one after it, all have an offset or none has. -/
theorem zoned_of_areComparable {values : List Value}
    (hmoments : ∀ v ∈ values, ∃ m, v = .moment m) (h : Value.areComparable values = true) :
    ∃ zoned : Bool, ∀ v ∈ values, ∀ m, v = .moment m → m.offset.isSome = zoned := by
  induction values with
  | nil => exact ⟨false, List.forall_mem_nil _⟩
  | cons v rest ih =>
      obtain ⟨⟨m, rfl⟩, hrest⟩ := List.forall_mem_cons.mp hmoments
      cases rest with
      | nil =>
          refine ⟨m.offset.isSome, List.forall_mem_singleton.mpr ?_⟩
          rintro _ ⟨rfl⟩
          rfl
      | cons w rest =>
          obtain ⟨n, rfl⟩ := hrest w List.mem_cons_self
          rw [Value.areComparable, Bool.and_eq_true] at h
          obtain ⟨zoned, hzoned⟩ := ih hrest h.2
          -- The zone of the first is that of the second, and so that of all others.
          have hfirst : m.offset.isSome = n.offset.isSome := eq_of_beq h.1
          refine ⟨zoned, List.forall_mem_cons.mpr ⟨?_, hzoned⟩⟩
          rintro _ ⟨rfl⟩
          rw [hfirst]
          exact hzoned _ List.mem_cons_self n rfl

/-- Bookings that were made can be ordered only if each can be compared with every other. -/
theorem mutuallyComparable_of_chronological {bookings order : List Booking}
    (hmade : ∀ b ∈ bookings, b.Made) (h : chronological bookings = .ok order) :
    MutuallyComparable bookings := by
  rw [chronological] at h
  split at h
  next hcomparable =>
    have hmoments : ∀ v ∈ bookings.map (·.start), ∃ m, v = .moment m := by
      intro v hv
      obtain ⟨b, hb, rfl⟩ := List.mem_map.mp hv
      obtain ⟨start, _, hstart, _⟩ := (hmade b hb).times
      exact ⟨start, hstart⟩
    obtain ⟨zoned, hzoned⟩ := zoned_of_areComparable hmoments hcomparable
    refine ⟨zoned, fun b hb => ?_⟩
    obtain ⟨start, finish, hstart, hfinish, hsame⟩ := (hmade b hb).times
    have hstart' := hzoned _ (List.mem_map_of_mem hb) start hstart
    exact ⟨start, finish, hstart, hfinish, hstart', hsame.trans hstart'⟩
  next => cases h

theorem exists_chronological {bookings : List Booking} (h : MutuallyComparable bookings) :
    ∃ order, chronological bookings = .ok order ∧ MutuallyComparable order := by
  refine ⟨_, chronological_eq_ok h, ?_⟩
  exact h.of_subset fun b hb => (List.mergeSort_perm _ _).mem_iff.mp hb

end Grid

namespace Distributor

/-! ## The calendar -/

theorem last_emptyDays {first : Date} {n : Int} (hn : 1 ≤ n) {days : List DayPlan}
    (h : emptyDays (some first) n = .ok days) : Int.ofNat first.ordinal + n ≤ lastDay + 1 := by
  rw [emptyDays_eq] at h
  obtain ⟨last, _, hlast⟩ := Result.exists_eq_ok_of_mapM h (mem_dayNumbers.mpr ⟨hn, le_rfl⟩)
  obtain ⟨date, hdate, _⟩ := Result.bind_eq_ok.mp hlast
  rw [Result.ofOption_eq_ok, Date.addDays?, Date.ofOrdinal?] at hdate
  split at hdate
  next hvalid => omega
  next => cases hdate

/-- A trip has its empty days exactly if the calendar does not end before them. -/
theorem exists_emptyDays_iff {start : Option Date} {n : Int} (hn : 1 ≤ n) :
    (∃ days, emptyDays start n = .ok days) ↔
      ∀ first, start = some first → Int.ofNat first.ordinal + n ≤ lastDay + 1 := by
  constructor
  · rintro ⟨days, h⟩ first rfl
    exact last_emptyDays hn h
  · intro h
    cases start with
    | some first => exact exists_emptyDays (h first rfl)
    | none =>
        rw [emptyDays_eq]
        exact Result.exists_mapM_eq_ok fun _ _ => ⟨_, rfl⟩

/-! ## What the passes need -/

/-- The numbers of a distributor can be used, no score is divided by zero, and bookings go to the days
of their starts. -/
structure Configured (s : Settings) (d : Distributor) : Prop where
  capacity : ∃ capacity, d.capacity.asCapacity = .ok capacity
  limit : ∃ cut, d.suggestionsPerBlock.asCut = .ok cut
  divisible : Score.Divisible s
  fixedDay : d.fixedDay = none

/-- A place holds what it is for: an identifier that tells it apart, and fields that scores can read. -/
structure Offerable (p : Place) : Prop where
  key : ∃ k, p.readKey = .ok k
  scorable : Score.Scorable p

theorem Offerable.withSource {p : Place} (h : Offerable p) (source : Source) :
    Offerable (p.withSource source) where
  key := h.key
  scorable := ⟨h.scorable.position, h.scorable.category, h.scorable.reviewCount, h.scorable.rating⟩

/-- A booking was made out of something that names a kind of document, and if it has a position,
distances can be taken to it. -/
structure Documented (b : Booking) : Prop where
  made : ∃ given : Booking, given.made = .ok b
  kind : b.kind.isSome = true
  position : b.isLocated = true → b.latitude.number?.isSome = true ∧ b.longitude.number?.isSome = true

theorem Documented.holds {b : Booking} (h : Documented b) : b.Made :=
  h.made.elim fun _ => made_eq_ok

variable {s : Settings} {d : Distributor} {request : TripRequest} {n : Int}
variable {selected : List Place} {bookings : List Booking}

theorem exists_checkSelections (hcapacity : ∃ capacity, d.capacity.asCapacity = .ok capacity)
    (hselected : ∀ p ∈ selected, Offerable p) :
    ∃ capacity, Grid.checkSelections d.capacity selected = .ok capacity := by
  cases selected with
  | nil => exact ⟨0, rfl⟩
  | cons p rest =>
      obtain ⟨hp, hrest⟩ := List.forall_mem_cons.mp hselected
      have hcategories : (rest.forM fun q => do let _ ← q.readCategory) = .ok () := by
        rw [Result.forM_eq_ok]
        intro q hq
        obtain ⟨text, htext⟩ := (hrest q hq).scorable.category
        exact Result.bind_eq_ok.mpr ⟨text, htext, rfl⟩
      exact Result.exists_bind_eq_ok hp.scorable.category fun _ _ =>
        Result.exists_bind_eq_ok hcapacity fun _ _ =>
          Result.exists_bind_eq_ok ⟨(), hcategories⟩ fun _ _ => ⟨_, rfl⟩

/-- Bookings and selections are placed if there are days and the bookings can be compared. -/
theorem exists_placeFixed (hdays : request.days = .ok n) (hfixed : d.fixedDay = none)
    (hempty : ∃ days, emptyDays (tripStart request bookings) n = .ok days)
    (hcomparable : MutuallyComparable bookings)
    (hcapacity : ∃ capacity, d.capacity.asCapacity = .ok capacity)
    (hselected : ∀ p ∈ selected, Offerable p) :
    ∃ placed, d.placeFixed request selected bookings = .ok placed := by
  have hindex : d.indexFor n bookings = .ok d.dayIndex := by
    simp only [indexFor, hfixed]
  obtain ⟨order, horder, hcomparable'⟩ := Grid.exists_chronological hcomparable
  have hconfirmed : ∀ days, ∃ placed,
      Grid.placeConfirmed (d.indexFor n bookings) (tripStart request bookings) n days bookings =
        .ok placed := by
    intro days
    let day := Grid.dayOf d.dayIndex (tripStart request bookings) n
    have hall : MutuallyComparable ([] ++ order) := hcomparable'
    obtain ⟨after, hafter⟩ := Grid.exists_placeInOrder day hall days
    rw [Grid.placeConfirmed, horder, hindex]
    exact ⟨_, hafter⟩
  exact Result.exists_bind_eq_ok ⟨n, hdays⟩ fun m hm => by
    cases hdays.symm.trans hm
    exact Result.exists_bind_eq_ok hempty fun days _ =>
      Result.exists_bind_eq_ok (hconfirmed days) fun _ _ =>
        Result.exists_bind_eq_ok (exists_checkSelections hcapacity hselected) fun _ _ => ⟨_, rfl⟩

/-- The sites of the bookings of a day are known, and distances can be taken to them. -/
theorem exists_sites {day : DayPlan} (hselected : ∀ p ∈ day.selected, Offerable p)
    (hconfirmed : ∀ b ∈ day.confirmed, Documented b) :
    ∃ sites, Booking.sites day.confirmed = .ok sites ∧
      ∀ p ∈ day.selected ++ sites, Score.WellPlaced p := by
  have hsites := sites_eq fun b hb => (hconfirmed b hb).holds.exists_site (hconfirmed b hb).kind
  refine ⟨_, hsites, fun p hp => ?_⟩
  rcases List.mem_append.mp hp with hp | hp
  · exact (hselected p hp).scorable.position
  · obtain ⟨b, hb, hsite⟩ := Result.exists_of_mem_forall₂ (sites_eq_ok hsites) hp
    have hb := (List.mem_filter.mp hb).1
    obtain ⟨hlocated, id, kind, _, _, rfl⟩ := site_eq_some hsite
    intro _
    rw [Place.isMeasurable, Bool.and_eq_true]
    exact (hconfirmed b hb).position hlocated

theorem exists_suggest {days : List DayPlan} {offered : List Place} (hd : Configured s d)
    (hregions : ∃ names, request.destinationNames = .ok names)
    (hselected : ∀ p ∈ selected, Offerable p) (hoffered : ∀ p ∈ offered, Offerable p)
    (hdays : ∀ day ∈ days, (∀ p ∈ day.selected, Offerable p) ∧ ∀ b ∈ day.confirmed, Documented b) :
    ∃ after, d.suggest s request selected offered days = .ok after := by
  have hkeys : Grid.checkKeys offered = .ok () :=
    Grid.checkKeys_eq_ok fun p hp => (hoffered p hp).key
  have hkeys' : Grid.checkKeys selected = .ok () :=
    Grid.checkKeys_eq_ok fun p hp => (hselected p hp).key
  have hknown : ∃ regions, request.regions = .ok regions :=
    Result.exists_bind_eq_ok hregions fun _ _ => ⟨_, rfl⟩
  refine Result.exists_bind_eq_ok ⟨(), hkeys⟩ fun _ _ => ?_
  refine Result.exists_bind_eq_ok hknown fun regions _ => ?_
  split
  next => exact ⟨_, rfl⟩
  next =>
    refine Result.exists_bind_eq_ok ⟨(), hkeys'⟩ fun _ _ => ?_
    refine Result.exists_bind_eq_ok hd.capacity fun capacity _ => ?_
    apply Result.exists_mapM_eq_ok
    intro day hday
    obtain ⟨hchosen, hconfirmed⟩ := hdays day hday
    have hpool : ∀ p ∈ Grid.distinctPlaces [] offered, Score.Scorable p := fun p hp =>
      (hoffered p ((Grid.distinctPlaces_sublist [] offered).subset hp)).scorable
    have hfillable : Grid.Fillable s d.suggestionsPerBlock (Grid.distinctPlaces [] offered) selected
        day :=
      { cut := hd.limit
        divisible := hd.divisible
        scorable := hpool
        selected := fun p hp => (hselected p hp).scorable.position
        own := exists_sites hchosen hconfirmed }
    exact hfillable.exists_fillDay capacity

/-- An accepted request for which places and bookings hold what they are for is laid out exactly if its
number of days is whole and ends within the calendar, all starts and ends of the bookings have an offset
or none has, and the destinations that count as given are texts. -/
theorem distribute_outcome_iff {selections offered : List Place} (hd : Configured s d)
    (hcheck : request.check = .ok ()) (hselections : ∀ p ∈ selections, Offerable p)
    (hoffered : ∀ p ∈ offered, Offerable p) (hbookings : ∀ b ∈ bookings, Documented b) :
    (∃ grid warnings, d.distribute s request selections bookings (.ok offered) =
        .ok (grid, warnings)) ↔
      (∃ n, request.tripDays.asInt = .ok n ∧ ∀ first, tripStart request bookings = some first →
        Int.ofNat first.ordinal + n ≤ lastDay + 1) ∧
      MutuallyComparable bookings ∧
      ∃ items, Validation.entries request.destinations = .ok items ∧
        ∀ v ∈ items, v.isTruthy = true → ∃ t, v = .text t := by
  rw [← TripRequest.exists_destinationNames_iff]
  constructor
  · rintro ⟨grid, warnings, h⟩
    obtain ⟨_, _, _, hplaced, hsuggest⟩ := passes_of_distribute h
    obtain ⟨n, hdays, hplaced⟩ := Result.bind_eq_ok.mp hplaced
    obtain ⟨empty, hempty, hplaced⟩ := Result.bind_eq_ok.mp hplaced
    obtain ⟨_, hconfirmed, _⟩ := Result.bind_eq_ok.mp hplaced
    obtain ⟨order, horder, _⟩ := Result.bind_eq_ok.mp hconfirmed
    obtain ⟨_, _, hsuggest⟩ := Result.bind_eq_ok.mp hsuggest
    obtain ⟨regions, hregions, _⟩ := Result.bind_eq_ok.mp hsuggest
    obtain ⟨names, hnames, _⟩ := Result.bind_eq_ok.mp hregions
    have hn := TripRequest.one_le_days hcheck hdays
    exact ⟨⟨n, hdays, (exists_emptyDays_iff hn).mp ⟨empty, hempty⟩⟩,
      Grid.mutuallyComparable_of_chronological (fun b hb => (hbookings b hb).holds) horder,
      names, hnames⟩
  · rintro ⟨⟨n, hdays, hcalendar⟩, hcomparable, hnames⟩
    have hn := TripRequest.one_le_days hcheck hdays
    have hselected : ∀ p ∈ selections.map (·.withSource .userSelected), Offerable p := by
      intro p hp
      obtain ⟨q, hq, rfl⟩ := List.mem_map.mp hp
      exact (hselections q hq).withSource _
    obtain ⟨⟨days, warnings⟩, hplaced⟩ := exists_placeFixed hdays hd.fixedDay
      ((exists_emptyDays_iff hn).mpr hcalendar) hcomparable hd.capacity hselected
    obtain ⟨hconfirmed, hchosen, _⟩ := placeFixed_eq_ok hdays hn hplaced
    -- What stands on a day before the suggestions was handed over with the request.
    have hstanding : ∀ day ∈ days,
        (∀ p ∈ day.selected, Offerable p) ∧ ∀ b ∈ day.confirmed, Documented b := by
      refine fun day hday => ⟨fun p hp => hselected p ?_, fun b hb => hbookings b ?_⟩
      · exact hchosen.mem_iff.mp (List.mem_flatMap.mpr ⟨day, hday, hp⟩)
      · exact hconfirmed.mem_iff.mp (List.mem_flatMap.mpr ⟨day, hday, hb⟩)
    obtain ⟨after, hafter⟩ := exists_suggest hd hnames hselected hoffered hstanding
    exact ⟨_, _, Result.bind_eq_ok.mpr ⟨(), hcheck, Result.bind_eq_ok.mpr ⟨_, hplaced,
      Result.bind_eq_ok.mpr ⟨offered, rfl, Result.bind_eq_ok.mpr ⟨after, hafter, rfl⟩⟩⟩⟩⟩

/-- A flight and a meal on one day, both told by clocks without an offset, are laid out. -/
theorem distribute_outcome_iff_two_bookings :
    let s : Settings := { speeds := [], defaultSpeed := 0.0 }
    let d : Distributor :=
      { capacity := .int 2, selectionsPerDay := .int 3, suggestionsPerBlock := .int 1 }
    let request : TripRequest := { threadId := .text "t", destinations := .list [.text "Seoul"] }
    let date : Date := ⟨739000, by decide, by decide⟩
    let flight : Booking :=
      { title := .text "KE 1"
        start := .moment ⟨date, 8 * hour, none, by decide⟩
        finish := .moment ⟨date, 9 * hour, none, by decide⟩
        kind := some .flight }
    let lunch : Booking :=
      { title := .text "Lunch"
        start := .moment ⟨date, 13 * hour, none, by decide⟩
        finish := .moment ⟨date, 14 * hour, none, by decide⟩
        kind := some .restaurant }
    let cafe : Place := { id := .text "cafe", name := .text "Cafe", category := .text "cafe" }
    ∃ grid warnings,
      d.distribute s request [cafe] [flight, lunch] (.ok [cafe]) = .ok (grid, warnings) := by
  intro s d request date flight lunch cafe
  have hd : Configured s d :=
    { capacity := ⟨2, rfl⟩
      limit := ⟨1, rfl⟩
      divisible := ⟨by decide, by decide, by decide⟩
      fixedDay := rfl }
  have hcafe : ∀ p ∈ [cafe], Offerable p := by
    rw [List.forall_mem_singleton]
    exact ⟨⟨_, rfl⟩, .of_unlocated rfl, ⟨_, rfl⟩, ⟨_, rfl⟩, ⟨_, rfl⟩⟩
  have hbookings : ∀ b ∈ [flight, lunch], Documented b := by
    intro b hb
    rcases List.mem_pair.mp hb with rfl | rfl
    · have hmade := made_of_times (b := flight) (by decide) rfl rfl (by decide) rfl
      exact ⟨⟨flight, hmade⟩, rfl, fun h => absurd h (by decide)⟩
    · have hmade := made_of_times (b := lunch) (by decide) rfl rfl (by decide) rfl
      exact ⟨⟨lunch, hmade⟩, rfl, fun h => absurd h (by decide)⟩
  refine (distribute_outcome_iff hd (by decide) hcafe hcafe hbookings).mpr ⟨⟨1, rfl, ?_⟩, ?_, ?_⟩
  · rintro first ⟨rfl⟩
    decide
  · refine ⟨false, fun b hb => ?_⟩
    rcases List.mem_pair.mp hb with rfl | rfl <;> exact ⟨_, _, rfl, rfl, rfl, rfl⟩
  · exact ⟨_, rfl, List.forall_mem_singleton.mpr fun _ => ⟨_, rfl⟩⟩

/-- The same flight is not laid out beside a meal that is told by a clock with an offset, though the
request is accepted and both bookings can be made. -/
theorem not_distributed_across_clocks :
    let s : Settings := { speeds := [], defaultSpeed := 0.0 }
    let d : Distributor :=
      { capacity := .int 2, selectionsPerDay := .int 3, suggestionsPerBlock := .int 1 }
    let request : TripRequest := { threadId := .text "t", destinations := .list [.text "Seoul"] }
    let date : Date := ⟨739000, by decide, by decide⟩
    let flight : Booking :=
      { title := .text "KE 1"
        start := .moment ⟨date, 8 * hour, none, by decide⟩
        finish := .moment ⟨date, 9 * hour, none, by decide⟩
        kind := some .flight }
    let lunch : Booking :=
      { title := .text "Lunch"
        start := .moment ⟨date, 13 * hour, some (9 * hour), by decide⟩
        finish := .moment ⟨date, 14 * hour, some (9 * hour), by decide⟩
        kind := some .restaurant }
    request.check = .ok () ∧ flight.made = .ok flight ∧ lunch.made = .ok lunch ∧
      d.distribute s request [] [flight, lunch] (.ok []) = .error .wrongKind := by
  intro s d request date flight lunch
  have hcheck : request.check = .ok () := by decide
  have hstart : tripStart request [flight, lunch] = some date := by decide
  have hcalendar : Int.ofNat date.ordinal + 1 ≤ lastDay + 1 := by decide
  obtain ⟨days, hdays⟩ := exists_emptyDays hcalendar
  have horder : Grid.chronological [flight, lunch] = .error .wrongKind := by
    rw [Grid.chronological, if_neg (by decide)]
  have hplaced : d.placeFixed request [] [flight, lunch] = .error .wrongKind := by
    rw [placeFixed, hstart, show request.days = .ok 1 from rfl, Result.ok_bind, hdays, Result.ok_bind,
      Grid.placeConfirmed, horder]
    rfl
  refine ⟨hcheck, made_of_times (by decide) rfl rfl (by decide) rfl,
    made_of_times (by decide) rfl rfl (by decide) rfl, ?_⟩
  rw [distribute, hcheck, List.map_nil, Result.ok_bind]
  dsimp only
  rw [hplaced]
  rfl

end Distributor

end Wayfare
