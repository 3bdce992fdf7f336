import Wayfare.Proofs.Plan.DayRoutes
import Wayfare.Proofs.Route.Membership

/-! # Walks by blocks

The order by blocks goes through the day block by block. In a congested block it
goes group by group: what lies in walking distance of the first stop of a group is
visited before the next group begins.
-/

namespace Wayfare.Route

variable {P α : Type}

/-! ## Runs -/

/-- Stops in runs: all others of a run are near its first stop, and none of a later run is. -/
inductive InRuns (near : P → P → Prop) : List P → Prop
  | nil : InRuns near []
  | run (first : P) {rest later : List P} (hnear : ∀ p ∈ rest, near first p)
      (hfar : ∀ p ∈ later, ¬ near first p) (h : InRuns near later) :
      InRuns near (first :: rest ++ later)

/-- Walking the groups one by one keeps the first stop of each in front, and the others behind it. -/
theorem inRuns_walkableGroups [LT α] [DecidableLT α] {walkable : P → P → Bool}
    {near : P → P → Prop} (hwalkable : ∀ a b, walkable a b = true ↔ near a b) (cost : P → P → α)
    (stops : List P) : InRuns near ((walkableGroups walkable stops).flatMap (walk cost)) := by
  induction stops using walkableGroups.induct walkable with
  | case1 =>
      rw [walkableGroups]
      exact .nil
  | case2 x rest ih =>
      simp only [List.unattach_filter, List.unattach_attach] at ih
      rw [walkableGroups, List.flatMap_cons, walk]
      refine .run x ?_ ?_ ih
      · intro p hp
        have hmem := (walkFrom_perm cost x _).mem_iff.mp hp
        exact (hwalkable x p).mp (List.mem_filter.mp hmem).2
      · intro p hp
        have hperm := (flatMap_perm_flatten (walk_perm cost)).trans
          (flatten_walkableGroups_perm walkable (rest.filter fun y => !walkable x y))
        have hfar : walkable x p = false := by
          simpa using (List.mem_filter.mp (hperm.mem_iff.mp hp)).2
        rw [← hwalkable, hfar]
        exact Bool.false_ne_true

/-! ## The order of the day -/

/-- Stops in the order of the day: all of them have a block, and it never comes before that of an earlier
stop. -/
def Chronological (block : P → Result Block) (stops : List P) : Prop :=
  stops.Pairwise fun p q => ∃ b c, block p = .ok b ∧ block q = .ok c ∧
    Block.all.idxOf b ≤ Block.all.idxOf c

theorem chronological_flatMap {block : P → Result Block} {part : Block → List P}
    (h : ∀ b, ∀ p ∈ part b, block p = .ok b) : Chronological block (Block.all.flatMap part) := by
  rw [Chronological, List.pairwise_flatMap]
  constructor
  · intro b _
    exact List.pairwise_of_forall_mem_list fun p hp q hq =>
      ⟨b, b, h b p hp, h b q hq, Nat.le_refl _⟩
  · have hblocks : Block.all.Pairwise fun b c => Block.all.idxOf b ≤ Block.all.idxOf c := by decide
    exact hblocks.imp fun hle p hp q hq => ⟨_, _, h _ p hp, h _ q hq, hle⟩

/-- The inner stops of an order by blocks are in the order of the day, and those of a congested block in
runs. -/
theorem timeOrder_by_blocks [Zero α] [Mul α] [IntCast α] [LT α] [DecidableLT α] {t : Terrain P α}
    {near : P → P → Prop} (hwalkable : ∀ a b, t.walkable a b = true ↔ near a b) {pins : Pins}
    {head middle tail ordered : List P} (hpins : Pinned pins head tail)
    (hmiddle : Distinguished t middle)
    (h : timeOrder t pins (head ++ middle ++ tail) = .ok ordered) :
    ∃ inner, ordered = head ++ inner ++ tail ∧ inner.Perm middle ∧ Chronological t.block inner ∧
      ∀ b, t.congestedAbove < t.congestion b →
        InRuns near (inner.filter fun p => t.block p = .ok b) := by
  obtain ⟨inner, hinner, hordered⟩ :=
    (timeOrder_keepsMembers hpins hmiddle.same_iff h).rearranged hmiddle.nodup
  obtain ⟨cost, group, _, hblock, hparts⟩ := timeOrder_eq_ok hpins h
  obtain rfl : inner = Block.all.flatMap fun b => blockOrder t cost b (group b) :=
    List.append_cancel_left (List.append_cancel_right (hordered.symm.trans hparts))
  have hpart : ∀ b, ∀ p ∈ blockOrder t cost b (group b), t.block p = .ok b := by
    intro b p hp
    have hvisited := (blockOrder_perm t cost b (group b)).mem_iff.mp hp
    exact hblock b p ((visitedIn_sublist t b (group b)).subset hvisited)
  refine ⟨_, hordered, hinner, chronological_flatMap hpart, ?_⟩
  intro b hcongested
  rw [filter_flatMap_eq Block.nodup_all (Block.mem_all b)]
  · rw [blockOrder, if_pos hcongested]
    exact inRuns_walkableGroups hwalkable cost _
  · exact fun p hp => decide_eq_true (hpart b p hp)
  · intro c hne p hp
    apply decide_eq_false
    rw [hpart c p hp]
    exact fun heq => hne (Except.ok.inj heq)

/-! ## Stops on the globe -/

open Wayfare.Plan

theorem walkable_terrain (s : Settings) (a b : Stop) :
    (terrain s).walkable a b = true ↔ Stop.distance s a b ≤ s.walkingDistance := by
  simp only [terrain, Geo.nearnessOf, Geo.nearness]
  split
  next hnear => simp [hnear]
  next hfar =>
    split
    next => simp [hfar]
    next => simp [hfar]

/-- Three stops or more, none of them listed twice, are taken between the pinned ends in the order of their
blocks. A congested block is walked in runs: the others of a run lie in walking distance of its first
stop, and no stop of a later run does. -/
theorem optimize_time_by_blocks (s : Settings) {stops : List Stop} (hlong : 3 ≤ stops.length)
    (honce : (stops.map (·.visit)).Nodup) (pins : Pins) (maxPasses : Int) :
    (Charted (terrain s) stops →
      ∃ ordered, optimize (terrain s) .time pins maxPasses stops = .ok ordered) ∧
    ∀ ordered, optimize (terrain s) .time pins maxPasses stops = .ok ordered →
      ∃ head middle tail inner, Pinned pins head tail ∧ stops = head ++ middle ++ tail ∧
        ordered = head ++ inner ++ tail ∧ inner.Perm middle ∧
        Chronological (fun p => Category.visitBlock p.place) inner ∧
        ∀ b, s.congestedAbove < s.congestion.get b →
          InRuns (fun first p => Stop.distance s first p ≤ s.walkingDistance)
            (inner.filter fun p => Category.visitBlock p.place = .ok b) := by
  constructor
  · exact fun hcharted => hcharted.exists_optimize .time pins maxPasses
  · intro ordered h
    obtain ⟨head, middle, tail, hpins, rfl⟩ := exists_pinned pins (Nat.le_of_succ_le hlong)
    have hmiddle : middle.Sublist (head ++ middle ++ tail) :=
      (List.sublist_append_right head middle).trans (List.sublist_append_left _ tail)
    have hdistinguished := distinguished_terrain s (honce.sublist (hmiddle.map _))
    rw [optimize, if_neg (by omega)] at h
    obtain ⟨inner, hordered, hperm, hchronological, hruns⟩ :=
      timeOrder_by_blocks (walkable_terrain s) hpins hdistinguished h
    exact ⟨head, middle, tail, inner, hpins, rfl, hordered, hperm, hchronological, hruns⟩

set_option maxRecDepth 4000 in
/-- An inn and a bar that are booked for the evening meal, and a museum that is listed between them. -/
theorem optimize_time_by_blocks_evening :
    let museum : Stop :=
      ⟨0, { id := .text "museum", name := .text "Museum", category := .text "culture" }⟩
    let inn : Stop := ⟨1, {
      id := .text "inn"
      name := .text "Inn"
      fixedTime := .moment ⟨⟨739000, by decide, by decide⟩, 19 * Calendar.hour, none, by decide⟩ }⟩
    let bar : Stop := ⟨2, {
      id := .text "bar"
      name := .text "Bar"
      fixedTime := .moment ⟨⟨739000, by decide, by decide⟩, 18 * Calendar.hour, none, by decide⟩ }⟩
    let s : Settings := {}
    ([inn, museum, bar].map (·.visit)).Nodup ∧ Charted (terrain s) [inn, museum, bar] ∧
      ∃ head inner tail,
        optimize (terrain s) .time {} 1000 [inn, museum, bar] = .ok (head ++ inner ++ tail) ∧
        Chronological (fun p => Category.visitBlock p.place) inner ∧
        InRuns (fun first p => Stop.distance s first p ≤ s.walkingDistance)
          (inner.filter fun p => Category.visitBlock p.place = .ok .dinner) := by
  intro museum inn bar s
  have honce : ([inn, museum, bar].map (·.visit)).Nodup := by decide
  have hcharted : Charted (terrain s) [inn, museum, bar] := by
    apply charted_of_unlocated
    · simp only [List.forall_mem_cons]
      exact ⟨⟨.dinner, rfl⟩, ⟨.morning, rfl⟩, ⟨.dinner, rfl⟩, nofun⟩
    · simp only [List.forall_mem_cons]
      exact ⟨rfl, rfl, rfl, nofun⟩
  have hcongested : s.congestedAbove < s.congestion.get .dinner := by decide
  obtain ⟨hsome, hblocks⟩ :=
    optimize_time_by_blocks s (by decide) honce {} 1000
  obtain ⟨_, hordered⟩ := hsome hcharted
  obtain ⟨head, _, tail, inner, _, _, rfl, _, hchronological, hruns⟩ := hblocks _ hordered
  exact ⟨honce, hcharted, head, inner, tail, hordered, hchronological, hruns .dinner hcongested⟩

end Wayfare.Route
