import Wayfare.Plan.Stop
import Wayfare.Proofs.Route.Strategies

/-! # Members of an order

Whatever the strategy, an order begins and ends as it is pinned, and its members
are those of the given list. A stop that is listed more than once may be listed
less often afterwards: in a congested block, and as the key stop of its block, it
is taken once.
-/

namespace Wayfare.Route

variable {P α : Type}

/-! ## Lists with pinned ends -/

/-- A list of two stops or more consists of the stops at its pinned ends and those between. -/
theorem exists_pinned (pins : Pins) {stops : List P} (hlong : 2 ≤ stops.length) :
    ∃ head middle tail, Pinned pins head tail ∧ stops = head ++ middle ++ tail := by
  obtain ⟨head, rest, hhead, rfl⟩ : ∃ head rest, head.length = pins.start.toNat ∧
      stops = head ++ rest := by
    refine ⟨stops.take pins.start.toNat, stops.drop pins.start.toNat, ?_,
      (List.take_append_drop _ _).symm⟩
    have := Bool.toNat_le pins.start
    rw [List.length_take]
    omega
  rw [List.length_append, hhead] at hlong
  have hstart := Bool.toNat_le pins.start
  have hfinish := Bool.toNat_le pins.finish
  refine ⟨head, rest.take (rest.length - pins.finish.toNat),
    rest.drop (rest.length - pins.finish.toNat), ⟨hhead, ?_⟩, ?_⟩
  · rw [List.length_drop]
    omega
  · rw [List.append_assoc, List.take_append_drop]

namespace Pinned

variable {pins : Pins} {head tail : List P}

theorem head? (h : Pinned pins head tail) (hpin : pins.start = true) (inner : List P) :
    (head ++ inner ++ tail).head? = head.head? := by
  have hstart := h.start
  rw [hpin] at hstart
  obtain ⟨x, rfl⟩ := List.length_eq_one_iff.mp hstart
  rfl

theorem getLast? (h : Pinned pins head tail) (hpin : pins.finish = true) (inner : List P) :
    (head ++ inner ++ tail).getLast? = tail.getLast? := by
  have hfinish := h.finish
  rw [hpin] at hfinish
  obtain ⟨x, rfl⟩ := List.length_eq_one_iff.mp hfinish
  rw [List.getLast?_concat, List.getLast?_singleton]

end Pinned

/-! ## Stops without positions -/

section

open Wayfare.Plan

theorem leg_of_unlocated (s : Settings) {a : Stop} (ha : a.place.location = none) (b : Stop) :
    (terrain s).leg a b = 0 := by
  change Geo.distance s.earthRadius a.place b.place = 0
  rw [Geo.distance, ha]
  rfl

theorem minutes_zero (s : Settings) : (terrain s).minutes 0 = .ok 0 := by
  have hzero : (0 : Float) ≤ 0 := by decide
  simp only [terrain, Geo.travelMinutes]
  rw [if_pos (.inl hzero)]

/-- Stops without positions are charted once their blocks are known. -/
theorem charted_of_unlocated {s : Settings} {stops : List Stop}
    (hblock : ∀ p ∈ stops, ∃ b, Category.visitBlock p.place = .ok b)
    (hunlocated : ∀ p ∈ stops, p.place.location = none) : Charted (terrain s) stops where
  block := hblock
  minutes p hp q _ := ⟨0, by rw [leg_of_unlocated s (hunlocated p hp), minutes_zero]⟩
  still := ⟨0, minutes_zero s⟩

end

/-! ## Orders of a list -/

/-- What an order has of the list that was ordered: its pinned ends, its members, and the whole list when it
is short. -/
structure KeepsList (pins : Pins) (stops ordered : List P) : Prop where
  short : stops.length ≤ 2 → ordered = stops
  start : pins.start = true → ordered.head? = stops.head?
  finish : pins.finish = true → ordered.getLast? = stops.getLast?
  subperm : ordered.Subperm stops
  subset : stops ⊆ ordered

theorem KeepsList.refl (pins : Pins) (stops : List P) : KeepsList pins stops stops :=
  ⟨fun _ => rfl, fun _ => rfl, fun _ => rfl, .refl stops, .refl stops⟩

theorem KeepsMembers.keepsList {pins : Pins} {head tail middle path : List P}
    (h : KeepsMembers head tail middle path) (hpins : Pinned pins head tail)
    (hlong : 2 < (head ++ middle ++ tail).length) :
    KeepsList pins (head ++ middle ++ tail) path where
  short hshort := absurd hshort (Nat.not_le_of_lt hlong)
  start hpin := by
    obtain ⟨inner, _, _, rfl⟩ := h
    rw [hpins.head? hpin, hpins.head? hpin]
  finish hpin := by
    obtain ⟨inner, _, _, rfl⟩ := h
    rw [hpins.getLast? hpin, hpins.getLast? hpin]
  subperm := h.subperm
  subset := h.subset

section

variable [Zero α] [Add α] [Sub α] [Mul α] [IntCast α] [LT α] [DecidableLT α] [BEq α]
variable {t : Terrain P α} {pins : Pins} {stops ordered : List P}

theorem optimize_keepsList {strategy : Strategy} {maxPasses : Int} (hsame : Identified t stops)
    (h : optimize t strategy pins maxPasses stops = .ok ordered) :
    KeepsList pins stops ordered := by
  rcases Nat.lt_or_ge 2 stops.length with hlong | hshort
  · obtain ⟨head, middle, tail, hpins, rfl⟩ := exists_pinned pins (Nat.le_of_lt hlong)
    have hmiddle : Identified t middle := hsame.of_subset fun p hp =>
      List.mem_append_left _ (List.mem_append_right _ hp)
    exact (optimize_keepsMembers hpins hmiddle h).keepsList hpins hlong
  · rw [optimize, if_pos hshort] at h
    cases h
    exact .refl pins stops

/-- The strategies that list a stop as often as it was given: those of reversals, and the one by blocks
where no block is congested. -/
def KeepsRepeats (t : Terrain P α) : Strategy → Prop
  | .distance | .inputOrder => True
  | .time => ∀ b, ¬ t.congestedAbove < t.congestion b
  | .balanced => False

theorem optimize_perm {strategy : Strategy} {maxPasses : Int} (hsame : Identified t stops)
    (honce : KeepsRepeats t strategy ∨ (splitPinned pins stops).2.1.Nodup)
    (h : optimize t strategy pins maxPasses stops = .ok ordered) : ordered.Perm stops := by
  rcases Nat.lt_or_ge 2 stops.length with hlong | hshort
  · obtain ⟨head, middle, tail, hpins, rfl⟩ := exists_pinned pins (Nat.le_of_lt hlong)
    rw [splitPinned_append hpins] at honce
    rcases honce with hkeeps | hnodup
    · cases strategy with
      | distance => exact (optimize_reversals_rearranged hpins (.inl rfl) h).perm
      | inputOrder => exact (optimize_reversals_rearranged hpins (.inr rfl) h).perm
      | time =>
          rw [optimize, if_neg (Nat.not_le_of_lt hlong)] at h
          exact (timeOrder_rearranged hpins hkeeps h).perm
      | balanced => exact hkeeps.elim
    · have hmiddle : Identified t middle := hsame.of_subset fun p hp =>
        List.mem_append_left _ (List.mem_append_right _ hp)
      exact (optimize_rearranged hpins ⟨hnodup, hmiddle⟩ h).perm
  · rw [optimize, if_pos hshort] at h
    cases h
    rfl

/-- Every strategy has an order of a charted list, and an order keeps the pinned ends and the members, and a
list of two stops or fewer as it is. It lists a stop less often than it was given only if the stop
was given more than once between the pinned ends, and only by the balanced strategy or where a block
is congested. -/
theorem optimize_keeps_members (hsame : Identified t stops) (strategy : Strategy) (pins : Pins)
    (maxPasses : Int) :
    ((strategy = .distance ∨ strategy = .inputOrder) ∨ Charted t stops →
      ∃ ordered, optimize t strategy pins maxPasses stops = .ok ordered) ∧
    ∀ ordered, optimize t strategy pins maxPasses stops = .ok ordered →
      KeepsList pins stops ordered ∧
      (KeepsRepeats t strategy ∨ (splitPinned pins stops).2.1.Nodup → ordered.Perm stops) := by
  constructor
  · rintro (hreversals | hcharted)
    · exact exists_optimize_reversals hreversals pins maxPasses stops
    · exact hcharted.exists_optimize strategy pins maxPasses
  · intro ordered h
    exact ⟨optimize_keepsList hsame h, fun honce => optimize_perm hsame honce h⟩

end

open Wayfare.Plan

set_option maxRecDepth 4000 in
/-- A round trip from a museum to a cafe and back. -/
theorem optimize_keeps_members_round_trip :
    let museum : Stop :=
      ⟨0, { id := .text "museum", name := .text "Museum", category := .text "culture" }⟩
    let cafe : Stop := ⟨1, { id := .text "cafe", name := .text "Cafe", category := .text "cafe" }⟩
    Identified (terrain {}) [museum, cafe, museum] ∧
      ∃ ordered, optimize (terrain {}) .balanced ⟨true, true⟩ 1000 [museum, cafe, museum] =
        .ok ordered ∧ ordered.Perm [museum, cafe, museum] ∧ ordered.head? = some museum := by
  intro museum cafe
  have hsame : Identified (terrain {}) [museum, cafe, museum] := by
    simp [Identified, terrain, museum, cafe]
  have hcharted : Charted (terrain {}) [museum, cafe, museum] := by
    apply charted_of_unlocated
    · simp only [List.forall_mem_cons]
      exact ⟨⟨.morning, rfl⟩, ⟨.afternoon, rfl⟩, ⟨.morning, rfl⟩, nofun⟩
    · simp only [List.forall_mem_cons]
      exact ⟨rfl, rfl, rfl, nofun⟩
  obtain ⟨hsome, hkept⟩ := optimize_keeps_members hsame .balanced ⟨true, true⟩ 1000
  obtain ⟨ordered, hordered⟩ := hsome (.inr hcharted)
  obtain ⟨hlist, hperm⟩ := hkept ordered hordered
  exact ⟨hsame, ordered, hordered, hperm (.inr (List.nodup_singleton cafe)), hlist.start rfl⟩

set_option maxRecDepth 4000 in
/-- Of two visits to a museum one is lost, as it is the key stop of its block, and so are two of three to an
inn in a congested block. -/
theorem optimize_drops_repeats :
    let museum : Stop :=
      ⟨0, { id := .text "museum", name := .text "Museum", category := .text "culture" }⟩
    let cafe : Stop := ⟨1, { id := .text "cafe", name := .text "Cafe", category := .text "cafe" }⟩
    let inn : Stop := ⟨0, {
      id := .text "inn"
      name := .text "Inn"
      fixedTime := .moment ⟨⟨739000, by decide, by decide⟩, 19 * Calendar.hour, none, by decide⟩ }⟩
    optimize (terrain {}) .balanced {} 1000 [museum, cafe, museum] = .ok [museum, cafe] ∧
      ¬ [museum, cafe].Perm [museum, cafe, museum] ∧
    optimize (terrain {}) .time {} 1000 [inn, inn, inn] = .ok [inn] ∧
      ¬ [inn].Perm [inn, inn, inn] := by
  intro museum cafe inn
  have hbalanced : optimize (terrain {}) .balanced {} 1000 [museum, cafe, museum] =
      .ok [museum, cafe] := by
    unfold museum cafe
    rfl
  have hdistinct : distinct (terrain {}).same [inn, inn, inn] = [inn] := by
    simp [distinct, show (terrain {}).same inn inn = true by rfl]
  have hblock (cost : Stop → Stop → Float) :
      blockOrder (terrain {}) cost .dinner [inn, inn, inn] = [inn] := by
    have hcongested : (terrain {}).congestedAbove < (terrain {}).congestion .dinner := by decide
    rw [blockOrder, if_pos hcongested, hdistinct]
    simp [walkableGroups, walk, walkFrom]
  have htime : optimize (terrain {}) .time {} 1000 [inn, inn, inn] = .ok [inn] := by
    rw [optimize, if_neg (by decide)]
    change timeOrder _ _ _ = _
    refine Result.bind_eq_ok.mpr ⟨_, by unfold inn; rfl, ?_⟩
    refine Result.bind_eq_ok.mpr ⟨_, by unfold inn; rfl, ?_⟩
    change Except.ok ([] ++ (blockOrder _ _ .dinner [inn, inn, inn] ++ []) ++ []) = _
    rw [hblock]
    rfl
  exact ⟨hbalanced, fun h => absurd h.length_eq (by decide), htime,
    fun h => absurd h.length_eq (by decide)⟩

end Wayfare.Route
