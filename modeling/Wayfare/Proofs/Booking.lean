import Mathlib.Data.List.Perm.Basic
import Wayfare.Booking.Document
import Wayfare.Proofs.Place.Construction

/-! # Bookings and their sites

A booking that was made has a start and an end on clocks that can be compared,
and coordinates that are in order. Its site is a place at these coordinates,
fixed at the start of the booking, if the booking has any.
-/

namespace Wayfare.Booking

open Wayfare.Calendar

/-! ## Bookings that were made -/

/-- What holds of a booking once it was made: it begins and ends at moments that can be ordered, and its
coordinates are in order. -/
structure Made (b : Booking) : Prop where
  times : ∃ start finish : Moment, b.start = .moment start ∧ b.finish = .moment finish ∧
    finish.offset.isSome = start.offset.isSome
  coordinates : coordinateErrors b.latitude b.longitude = .ok []

theorem comparable_of_before? {m n : Moment} {earlier : Bool} (h : m.before? n = some earlier) :
    m.offset.isSome = n.offset.isSome := by
  rw [Moment.before?] at h
  split at h
  next hcomparable => exact eq_of_beq hcomparable
  next => cases h

theorem before?_of_checkFinish {b : Booking} {start finish : Moment}
    (h : b.checkFinish start = .ok finish) : finish.before? start = some false := by
  unfold checkFinish at h
  -- Wherever the end comes from, it has to be no earlier than the start.
  split at h
  all_goals
    obtain ⟨end_, _, h⟩ := Result.bind_eq_ok.mp h
    obtain ⟨earlier, hearlier, h⟩ := Result.bind_eq_ok.mp h
    obtain ⟨hnot, h⟩ := Result.guard_eq_ok.mp h
    rw [Result.pure_eq_ok] at h
    subst h
    rwa [Bool.eq_false_iff.mpr hnot, Result.ofOption_eq_ok] at hearlier

theorem made_eq_ok {b c : Booking} (h : b.made = .ok c) : c.Made := by
  obtain ⟨_, _, h⟩ := Result.bind_eq_ok.mp h
  obtain ⟨start, hstart, h⟩ := Result.bind_eq_ok.mp h
  obtain ⟨finish, hfinish, h⟩ := Result.bind_eq_ok.mp h
  obtain ⟨errors, herrors, h⟩ := Result.bind_eq_ok.mp h
  have hmoment : b.start = .moment start := by
    rw [checkStart] at hstart
    split at hstart
    next => cases hstart
    next m hm =>
      cases hstart
      exact hm
    next => cases hstart
  have hcomparable := comparable_of_before? (before?_of_checkFinish hfinish)
  cases errors with
  | nil =>
      rw [List.isEmpty_nil, if_pos rfl, Result.pure_eq_ok] at h
      subst h
      exact ⟨⟨start, finish, hmoment, rfl, hcomparable⟩, herrors⟩
  | cons e rest => cases h

/-- A booking with a title, an end that is not before its start, and coordinates in order is made as it
stands. -/
theorem made_of_times {b : Booking} {start finish : Moment} (htitle : checkTitle b.title = .ok ())
    (hstart : b.start = .moment start) (hfinish : b.finish = .moment finish)
    (horder : finish.before? start = some false)
    (hcoordinates : coordinateErrors b.latitude b.longitude = .ok []) : b.made = .ok b := by
  have hchecked : b.checkStart = .ok start := by
    rw [checkStart, hstart]
  have hended : b.checkFinish start = .ok finish := by
    rw [checkFinish, hfinish]
    dsimp only
    rw [Result.ok_bind, horder]
    rfl
  have hsame : { b with finish := .moment finish } = b := by
    rw [← hfinish]
  rw [made, htitle, Result.ok_bind, hchecked, Result.ok_bind, hended, Result.ok_bind, hcoordinates,
    Result.ok_bind, if_pos List.isEmpty_nil, Result.pure_eq_ok]
  exact hsame

/-! ## Sites -/

theorem moment?_eq_some {v : Value} {m : Moment} : v.moment? = some m ↔ v = .moment m := by
  cases v <;> simp [Value.moment?]

/-- A kind of document and a start, as they stand for a booking without an identifier. -/
def spelling (kind : BookingKind) (start : Moment) : String :=
  kind.name ++ ":" ++ start.text

/-- What the site of a booking is called: after the identifier of the booking if it has one, else after
its kind and its start. -/
def Identifies (b : Booking) (id : String) : Prop :=
  (b.id.isTruthy = true ∧ id = "confirmed:" ++ b.id.display) ∨
    (b.id.isTruthy = false ∧ ∃ kind start, b.kind = some kind ∧ b.start = .moment start ∧
      id = "confirmed:" ++ spelling kind start)

/-- A confirmed place at the position of a booking, under its title and fixed at its start. -/
def placeUnder (b : Booking) (id : String) (kind : BookingKind) : Place where
  id := .text id
  name := b.title
  category := .text kind.category
  latitude := b.latitude
  longitude := b.longitude
  address := if b.address.isTruthy then b.address else b.location
  source := .confirmed
  fixedTime := b.start

def IsSiteOf (b : Booking) (q : Place) : Prop :=
  ∃ id kind, b.Identifies id ∧ b.kind = some kind ∧ q = b.placeUnder id kind

/-- One site each for the bookings that have both coordinates, in their order. -/
def OneSiteEach (bookings : List Booking) (sites : List Place) : Prop :=
  List.Forall₂ IsSiteOf (bookings.filter fun b => !b.latitude.isNull && !b.longitude.isNull) sites

theorem siteId_eq_ok {b : Booking} {id : String} (h : b.siteId = .ok id) : b.Identifies id := by
  rw [siteId] at h
  split at h
  next hgiven =>
    cases h
    exact .inl ⟨hgiven, rfl⟩
  next hopen =>
    obtain ⟨kind, hkind, h⟩ := Result.bind_eq_ok.mp h
    obtain ⟨start, hstart, h⟩ := Result.bind_eq_ok.mp h
    rw [Result.pure_eq_ok] at h
    rw [readKind, Result.ofOption_eq_ok] at hkind
    rw [readStart, Result.ofOption_eq_ok] at hstart
    refine .inr ⟨Bool.eq_false_iff.mpr hopen, kind, start, hkind, moment?_eq_some.mp hstart, ?_⟩
    rw [← h, spelling, String.append_assoc, String.append_assoc, String.append_assoc]

/-- The site of a booking that has one, under its identifier. -/
theorem site_eq_some {b : Booking} {q : Place} (h : b.site = .ok (some q)) :
    b.isLocated = true ∧ ∃ id kind, b.siteId = .ok id ∧ b.kind = some kind ∧
      q = b.placeUnder id kind := by
  rw [site] at h
  split at h
  next hlocated =>
    obtain ⟨id, hid, h⟩ := Result.bind_eq_ok.mp h
    obtain ⟨kind, hkind, h⟩ := Result.bind_eq_ok.mp h
    obtain ⟨q', hq, h⟩ := Result.map_eq_ok.mp h
    cases h
    exact ⟨hlocated, id, kind, hid, Result.ofOption_eq_ok.mp hkind, (Place.checked_eq_ok.mp hq).1.symm⟩
  next => cases h

/-- The site of a booking is a located place, fixed at the start of the booking. -/
theorem site_eq_ok {b : Booking} {site : Option Place} (h : b.site = .ok site) :
    site.isSome = b.isLocated ∧ ∀ q ∈ site,
      q.isLocated = true ∧ q.source = .confirmed ∧ q.fixedTime = b.start := by
  cases site with
  | some q =>
      obtain ⟨hlocated, id, kind, _, _, rfl⟩ := site_eq_some h
      refine ⟨hlocated.symm, ?_⟩
      rintro _ ⟨rfl⟩
      exact ⟨hlocated, rfl, rfl⟩
  | none =>
      rw [Booking.site] at h
      split at h
      next =>
        obtain ⟨id, _, h⟩ := Result.bind_eq_ok.mp h
        obtain ⟨kind, _, h⟩ := Result.bind_eq_ok.mp h
        obtain ⟨q, _, h⟩ := Result.map_eq_ok.mp h
        cases h
      next hunlocated => exact ⟨(Bool.eq_false_iff.mpr hunlocated).symm, fun q hq => by cases hq⟩

theorem isBlank_confirmed (s : String) : Text.isBlank ("confirmed:" ++ s) = false := by
  have hletter : Text.isBlankChar 'c' = false := by decide
  simp [Text.isBlank, String.toList_append, hletter]

theorem siteId_eq_confirmed {b : Booking} {id : String} (h : b.siteId = .ok id) :
    ∃ s, id = "confirmed:" ++ s := by
  rcases siteId_eq_ok h with ⟨_, rfl⟩ | ⟨_, _, _, _, _, rfl⟩ <;> exact ⟨_, rfl⟩

theorem exists_siteId {b : Booking} (hkind : b.kind.isSome = true) {start : Moment}
    (hstart : b.start = .moment start) : ∃ id, b.siteId = .ok id := by
  obtain ⟨kind, hkind⟩ := Option.isSome_iff_exists.mp hkind
  rw [siteId]
  split
  next => exact ⟨_, rfl⟩
  next =>
    rw [readKind, hkind, readStart, hstart]
    exact ⟨_, rfl⟩

/-- A booking that was made and comes from a document has a site or needs none. -/
theorem Made.exists_site {b : Booking} (h : b.Made) (hkind : b.kind.isSome = true) :
    ∃ site, b.site = .ok site := by
  obtain ⟨start, _, hstart, _⟩ := h.times
  obtain ⟨id, hid⟩ := exists_siteId hkind hstart
  obtain ⟨kind, hkind⟩ := Option.isSome_iff_exists.mp hkind
  obtain ⟨s, rfl⟩ := siteId_eq_confirmed hid
  rw [site, hid, readKind, hkind]
  split
  next =>
    refine ⟨_, Result.map_eq_ok.mpr ⟨_, Place.checked_of_check ?_, rfl⟩⟩
    exact Place.check_of_text rfl (isBlank_confirmed s) h.coordinates
  next => exact ⟨none, rfl⟩

/-- The sites of bookings are those of the located ones, in their order. -/
theorem sites_eq_ok {bookings : List Booking} {sites : List Place}
    (h : Booking.sites bookings = .ok sites) :
    List.Forall₂ (fun b q => b.site = .ok (some q)) (bookings.filter isLocated) sites := by
  obtain ⟨found, hfound, h⟩ := Result.bind_eq_ok.mp h
  rw [Result.pure_eq_ok] at h
  subst h
  -- One booking after the other, each with a site of its own or with none.
  have hall := Result.mapM_eq_ok.mp hfound
  clear hfound h
  induction hall with
  | nil => exact .nil
  | @cons b site bookings found hhead _ ih =>
      have hsome := (site_eq_ok hhead).1
      cases site with
      | none =>
          rw [List.filter_cons_of_neg (by rw [← hsome]; decide)]
          exact ih
      | some q =>
          rw [List.filter_cons_of_pos hsome.symm]
          exact .cons hhead ih

theorem isSiteOf_of_site {b : Booking} {q : Place} (h : b.site = .ok (some q)) : b.IsSiteOf q := by
  obtain ⟨_, id, kind, hid, hkind, hq⟩ := site_eq_some h
  exact ⟨id, kind, siteId_eq_ok hid, hkind, hq⟩

theorem oneSiteEach_of_sites {bookings : List Booking} {sites : List Place}
    (h : Booking.sites bookings = .ok sites) : OneSiteEach bookings sites :=
  (sites_eq_ok h).imp fun _ _ => isSiteOf_of_site

theorem length_sites {bookings : List Booking} {sites : List Place}
    (h : Booking.sites bookings = .ok sites) : sites.length = bookings.countP isLocated := by
  rw [← (sites_eq_ok h).length_eq, List.countP_eq_length_filter]

theorem of_mem_sites {bookings : List Booking} {sites : List Place}
    (h : Booking.sites bookings = .ok sites) {q : Place} (hq : q ∈ sites) :
    q.isLocated = true ∧ q.source = .confirmed := by
  obtain ⟨b, _, hb⟩ := Result.exists_of_mem_forall₂ (sites_eq_ok h) hq
  obtain ⟨_, hsite⟩ := site_eq_ok hb
  exact ⟨(hsite q rfl).1, (hsite q rfl).2.1⟩

theorem sites_append {first second : List Booking} {sites sites' : List Place}
    (h : Booking.sites first = .ok sites) (h' : Booking.sites second = .ok sites') :
    Booking.sites (first ++ second) = .ok (sites ++ sites') := by
  obtain ⟨found, hfound, h⟩ := Result.bind_eq_ok.mp h
  obtain ⟨found', hfound', h'⟩ := Result.bind_eq_ok.mp h'
  rw [Result.pure_eq_ok] at h h'
  rw [Booking.sites, List.mapM_append, hfound, hfound', ← h, ← h', ← List.filterMap_append]
  rfl

/-- The order of bookings does not matter for which sites they have. -/
theorem sites_perm {bookings bookings' : List Booking} {sites : List Place}
    (hperm : bookings'.Perm bookings) (h : Booking.sites bookings = .ok sites) :
    ∃ sites', Booking.sites bookings' = .ok sites' ∧ sites'.Perm sites := by
  obtain ⟨found, hfound, h⟩ := Result.bind_eq_ok.mp h
  rw [Result.pure_eq_ok] at h
  obtain ⟨found', hfound', hperm'⟩ := List.perm_comp_forall₂ hperm (Result.mapM_eq_ok.mp hfound)
  refine ⟨found'.filterMap fun p => p, ?_, h ▸ hperm'.filterMap _⟩
  exact Result.bind_eq_ok.mpr ⟨found', Result.mapM_eq_ok.mpr hfound', rfl⟩

theorem sites_eq {bookings : List Booking} (h : ∀ b ∈ bookings, ∃ site, b.site = .ok site) :
    Booking.sites bookings = .ok (bookings.filterMap fun b => b.site.toOption.join) := by
  have hmapM : bookings.mapM Booking.site = .ok (bookings.map fun b => b.site.toOption.join) := by
    rw [Result.mapM_eq_ok, List.forall₂_map_right_iff, List.forall₂_same]
    intro b hb
    obtain ⟨site, hsite⟩ := h b hb
    rw [hsite]
    rfl
  rw [Booking.sites, hmapM]
  exact congrArg Except.ok List.filterMap_map

end Wayfare.Booking
