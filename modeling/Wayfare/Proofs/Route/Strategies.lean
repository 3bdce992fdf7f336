import Mathlib.Data.List.Flatten
import Mathlib.Data.List.Perm.Subperm
import Wayfare.Proofs.Grid.Days
import Wayfare.Proofs.Grouping
import Wayfare.Proofs.Route.Rearrangement
import Wayfare.Route.Strategy

/-! # What the strategies keep

Every strategy keeps the pinned ends in their places and returns no other stops
than it was given. Reversals return all of them as often as they were given; the
strategies that tell stops apart may return a stop less often, so they need stops
that are given once. Those that look travel times up need all of them to be known.
-/

namespace Wayfare.Route

variable {P α : Type}

/-! ## Pinned ends -/

theorem splitPinned_append {pins : Pins} {head tail : List P} (hpins : Pinned pins head tail)
    (middle : List P) : splitPinned pins (head ++ middle ++ tail) = (head, middle, tail) := by
  have hstart := hpins.start
  have hfinish := hpins.finish
  have hhead : (if pins.start then (head ++ middle ++ tail).take 1 else []) = head := by
    cases hs : pins.start with
    | true =>
        rw [hs, Bool.toNat_true] at hstart
        rw [if_pos rfl, List.append_assoc, ← hstart]
        exact List.take_left
    | false =>
        rw [hs] at hstart
        exact (List.length_eq_zero_iff.mp hstart).symm
  have htail : (if pins.finish && head.length < (head ++ middle ++ tail).length
      then (head ++ middle ++ tail).drop ((head ++ middle ++ tail).length - 1) else []) = tail := by
    cases hf : pins.finish with
    | true =>
        rw [hf, Bool.toNat_true] at hfinish
        have hlast : (head ++ middle ++ tail).length - 1 = (head ++ middle).length := by
          rw [List.length_append, hfinish, Nat.add_sub_cancel]
        -- A stop that is pinned at the start is not pinned at the end as well.
        have hlong : head.length < (head ++ middle ++ tail).length := by
          rw [List.length_append, List.length_append]
          omega
        rw [if_pos (by simpa using hlong), hlast, List.drop_left]
    | false =>
        rw [hf] at hfinish
        exact (List.length_eq_zero_iff.mp hfinish).symm
  have hmiddle : ((head ++ middle ++ tail).drop head.length).take
      ((head ++ middle ++ tail).length - head.length - tail.length) = middle := by
    have hcount : (head ++ middle ++ tail).length - head.length - tail.length = middle.length := by
      rw [List.length_append, List.length_append]
      omega
    rw [hcount, List.append_assoc, List.drop_left, List.take_left]
  simp only [splitPinned]
  rw [hhead, htail, hmiddle]

/-! ## Stops that can be told apart -/

/-- Among some stops only a stop itself is the same as it. -/
def Identified (t : Terrain P α) (stops : List P) : Prop :=
  ∀ a ∈ stops, ∀ b ∈ stops, t.same a b = true ↔ a = b

theorem Identified.of_subset {t : Terrain P α} {stops part : List P} (h : Identified t stops)
    (hsub : part ⊆ stops) : Identified t part :=
  fun a ha b hb => h a (hsub ha) b (hsub hb)

/-- Among some stops only a stop itself is the same as it, and none is listed twice. -/
structure Distinguished (t : Terrain P α) (stops : List P) : Prop where
  nodup : stops.Nodup
  same_iff : Identified t stops

theorem distinct_sublist (same : P → P → Bool) (stops : List P) :
    (distinct same stops).Sublist stops := by
  induction stops using distinct.induct same with
  | case1 =>
      rw [distinct]
  | case2 x rest ih =>
      simp only [List.unattach_filter, List.unattach_attach] at ih
      rw [distinct]
      exact (ih.trans List.filter_sublist).cons_cons x

/-- Of the mentions of a stop one is left. -/
theorem subset_distinct {t : Terrain P α} {stops : List P} (h : Identified t stops) :
    stops ⊆ distinct t.same stops := by
  induction stops using distinct.induct t.same with
  | case1 => exact List.nil_subset _
  | case2 x rest ih =>
      simp only [List.unattach_filter, List.unattach_attach] at ih
      have hothers := ih (h.of_subset (List.Subset.trans (List.filter_subset_self _)
        (List.subset_cons_self x rest)))
      intro p hp
      rw [distinct, List.mem_cons]
      by_cases hpx : p = x
      · exact .inl hpx
      · have hrest : p ∈ rest := (List.mem_cons.mp hp).resolve_left hpx
        have hother : t.same x p = false := by
          rw [← Bool.not_eq_true, h x List.mem_cons_self p hp]
          exact Ne.symm hpx
        exact .inr (hothers (List.mem_filter.mpr ⟨hrest, by rw [hother]; rfl⟩))

/-! ## Stops between fixed ends -/

/-- A path between two ends whose inner stops are some given ones: each of them is there, and none more
often than it was given. -/
def KeepsMembers (head tail middle path : List P) : Prop :=
  ∃ inner, inner.Subperm middle ∧ middle ⊆ inner ∧ path = head ++ inner ++ tail

theorem Rearranged.keepsMembers {head tail middle path : List P}
    (h : Rearranged head tail middle path) : KeepsMembers head tail middle path := by
  obtain ⟨inner, hinner, rfl⟩ := h
  exact ⟨inner, hinner.subperm, hinner.symm.subset, rfl⟩

namespace KeepsMembers

variable {head tail middle path : List P}

/-- Stops that are given once are returned once. -/
theorem rearranged (h : KeepsMembers head tail middle path) (hmiddle : middle.Nodup) :
    Rearranged head tail middle path := by
  obtain ⟨inner, hsub, hall, rfl⟩ := h
  exact ⟨inner, hsub.antisymm (hmiddle.subperm hall), rfl⟩

theorem subperm (h : KeepsMembers head tail middle path) : path.Subperm (head ++ middle ++ tail) := by
  obtain ⟨inner, hsub, _, rfl⟩ := h
  exact ((List.Subperm.refl head).append hsub).append (List.Subperm.refl tail)

theorem subset (h : KeepsMembers head tail middle path) : head ++ middle ++ tail ⊆ path := by
  obtain ⟨inner, _, hall, rfl⟩ := h
  intro p hp
  simp only [List.mem_append] at hp ⊢
  exact hp.imp_left (·.imp_right (hall ·))

end KeepsMembers

/-! ## Walks by blocks -/

theorem flatten_walkableGroups_perm (walkable : P → P → Bool) (stops : List P) :
    (walkableGroups walkable stops).flatten.Perm stops := by
  induction stops using walkableGroups.induct walkable with
  | case1 =>
      rw [walkableGroups]
      rfl
  | case2 x rest ih =>
      simp only [List.unattach_filter, List.unattach_attach] at ih
      rw [walkableGroups, List.flatten_cons, List.cons_append]
      refine List.Perm.cons x ?_
      exact (ih.append_left _).trans (List.filter_append_perm (walkable x) rest)

theorem flatMap_perm_flatten {groups : List (List P)} {f : List P → List P}
    (hf : ∀ g, (f g).Perm g) : (groups.flatMap f).Perm groups.flatten := by
  have hgroups := List.Perm.flatMap_left groups fun g _ => hf g
  rwa [List.flatMap_id'] at hgroups

/-- The stops of a block that are visited: in a congested one each is visited once. -/
def visitedIn [LT α] [DecidableLT α] (t : Terrain P α) (b : Block) (stops : List P) : List P :=
  if t.congestedAbove < t.congestion b then distinct t.same stops else stops

section

variable [LT α] [DecidableLT α]

theorem visitedIn_sublist (t : Terrain P α) (b : Block) (stops : List P) :
    (visitedIn t b stops).Sublist stops := by
  rw [visitedIn]
  split
  next => exact distinct_sublist t.same stops
  next => exact List.Sublist.refl stops

theorem subset_visitedIn {t : Terrain P α} {stops : List P} (h : Identified t stops) (b : Block) :
    stops ⊆ visitedIn t b stops := by
  rw [visitedIn]
  split
  next => exact subset_distinct h
  next => exact List.Subset.refl stops

theorem blockOrder_perm (t : Terrain P α) (cost : P → P → α) (b : Block) (stops : List P) :
    (blockOrder t cost b stops).Perm (visitedIn t b stops) := by
  rw [blockOrder, visitedIn]
  split
  next =>
    exact (flatMap_perm_flatten (walk_perm cost)).trans
      (flatten_walkableGroups_perm t.walkable _)
  next => exact walk_perm cost stops

theorem blockOrder_nil (t : Terrain P α) (cost : P → P → α) (b : Block) :
    blockOrder t cost b [] = [] := by
  simp [blockOrder, distinct, walkableGroups, walk]

theorem flatMap_blockOrder_perm (t : Terrain P α) (cost : P → P → α) (group : Block → List P) :
    (Block.all.flatMap fun b => blockOrder t cost b (group b)).Perm
      (Block.all.flatMap fun b => visitedIn t b (group b)) :=
  List.Perm.flatMap_left _ fun b _ => blockOrder_perm t cost b (group b)

end

/-- Blocks without stops add nothing. -/
theorem flatMap_byBlock {Q R : Type} (block : Q → Block) (items : List Q)
    {f : Block → List Q → List R} (hf : ∀ b, f b [] = []) :
    ((byBlock block items).flatMap fun g => f g.1 g.2) =
      Block.all.flatMap fun b => f b (items.filter fun q => block q == b) := by
  rw [byBlock, flatMap_filter_of_eq_nil, List.flatMap_map]
  rintro ⟨b, group⟩ hnone
  obtain rfl : group = [] := by simpa using hnone
  exact hf b

theorem mem_byBlock {Q : Type} {block : Q → Block} {items : List Q} {g : Block × List Q}
    (h : g ∈ byBlock block items) : g.2 = items.filter fun q => block q == g.1 := by
  obtain ⟨b, _, rfl⟩ := List.mem_map.mp (List.mem_filter.mp h).1
  rfl

/-- Stops with their blocks, when all of them have one. -/
theorem withBlocks_eq_ok {t : Terrain P α} {stops : List P} {blocks : List (P × Block)}
    (h : (stops.mapM fun p => do return (p, ← t.block p)) = .ok blocks) :
    blocks.map (·.1) = stops ∧ ∀ q ∈ blocks, t.block q.1 = .ok q.2 := by
  have hall := Result.mapM_eq_ok.mp h
  clear h
  induction hall with
  | nil => exact ⟨rfl, fun q hq => absurd hq List.not_mem_nil⟩
  | @cons p q stops blocks hhead _ ih =>
      obtain ⟨b, hb, hq⟩ := Result.bind_eq_ok.mp hhead
      rw [Result.pure_eq_ok] at hq
      subst hq
      refine ⟨by rw [List.map_cons, ih.1], ?_⟩
      intro r hr
      rcases List.mem_cons.mp hr with rfl | hr
      · exact hb
      · exact ih.2 r hr

section Strategies

variable [LT α] [DecidableLT α]
variable {t : Terrain P α} {pins : Pins} {head tail middle ordered : List P}

/-! ## Reversals of walks -/

theorem walk_rearranged (leg : P → P → α) (hpins : Pinned pins head tail) :
    Rearranged head [] middle (walk leg (head ++ middle)) := by
  cases head with
  | nil => exact ⟨walk leg middle, walk_perm leg middle, by simp⟩
  | cons x rest =>
      have hone := hpins.start
      have hrest : rest = [] := by
        cases hs : pins.start <;> simp [hs] at hone
        exact hone
      subst hrest
      exact ⟨walkFrom leg x middle, walkFrom_perm leg x middle, by simp [walk]⟩

theorem walkSeed_rearranged (leg : P → P → α) (hpins : Pinned pins head tail) :
    Rearranged head tail middle (walkSeed leg pins (head ++ middle ++ tail)) := by
  have hopen : Rearranged head [] middle _ := walk_rearranged leg hpins
  have hfinish := hpins.finish
  rw [walkSeed]
  cases hf : pins.finish with
  | false =>
      rw [hf] at hfinish
      rw [List.length_eq_zero_iff.mp hfinish, List.append_nil]
      exact hopen
  | true =>
      rw [hf] at hfinish
      obtain ⟨z, rfl⟩ := List.length_eq_one_iff.mp hfinish
      split
      next =>
        rw [List.dropLast_concat, List.length_append, List.length_singleton, Nat.add_sub_cancel,
          List.drop_left]
        obtain ⟨inner, hinner, hwalk⟩ := hopen
        exact ⟨inner, hinner, by rw [hwalk, List.append_nil]⟩
      next hshort =>
        -- The pinned last stop is the only one.
        have hnone : (head ++ middle).length = 0 := by
          simp only [Bool.true_and, decide_eq_true_eq, List.length_append, List.length_singleton]
            at hshort ⊢
          omega
        obtain ⟨rfl, rfl⟩ := List.append_eq_nil_iff.mp (List.length_eq_zero_iff.mp hnone)
        exact ⟨[], .refl _, by simp [walk, walkFrom]⟩

theorem distanceOrder_rearranged [Zero α] [Add α] [Sub α] (t : Terrain P α) (hpins : Pinned pins head tail)
    (maxPasses : Int) :
    Rearranged head tail middle (distanceOrder t pins maxPasses (head ++ middle ++ tail)) := by
  simp only [distanceOrder]
  split
  next => exact twoOpt_rearranged t.leg t.slack hpins _ (walkSeed_rearranged t.leg hpins)
  next => exact twoOpt_rearranged t.leg t.slack hpins _ (.refl head tail middle)

/-! ## Blocks of the day -/

/-- The inner stops are the middle ones block by block, and each block is in an order of its own. -/
theorem timeOrder_eq_ok [Zero α] [Mul α] [IntCast α] (hpins : Pinned pins head tail)
    (h : timeOrder t pins (head ++ middle ++ tail) = .ok ordered) :
    ∃ (cost : P → P → α) (group : Block → List P), (Block.all.flatMap group).Perm middle ∧
      (∀ b, ∀ p ∈ group b, t.block p = .ok b) ∧
      ordered = head ++ (Block.all.flatMap fun b => blockOrder t cost b (group b)) ++ tail := by
  obtain ⟨model, _, h⟩ := Result.bind_eq_ok.mp h
  rw [splitPinned_append hpins] at h
  obtain ⟨blocks, hblocks, h⟩ := Result.bind_eq_ok.mp h
  rw [Result.pure_eq_ok] at h
  subst h
  obtain ⟨hplaces, hblock⟩ := withBlocks_eq_ok hblocks
  refine ⟨CostModel.timeCost t model, fun b => (blocks.filter fun q => q.2 == b).map (·.1),
    ?_, ?_, ?_⟩
  · rw [← hplaces, ← List.map_flatMap]
    exact (flatMap_filter_perm Block.nodup_all fun q _ => Block.mem_all q.2).map _
  · intro b p hp
    obtain ⟨q, hq, rfl⟩ := List.mem_map.mp hp
    obtain ⟨hmem, hb⟩ := List.mem_filter.mp hq
    exact beq_iff_eq.mp hb ▸ hblock q hmem
  · have hparts := flatMap_byBlock (fun q : P × Block => q.2) blocks
      (f := fun b group => blockOrder t (CostModel.timeCost t model) b (group.map (·.1)))
      fun b => blockOrder_nil t _ b
    exact congrArg (head ++ · ++ tail) hparts

theorem timeOrder_keepsMembers [Zero α] [Mul α] [IntCast α] (hpins : Pinned pins head tail)
    (hmiddle : Identified t middle)
    (h : timeOrder t pins (head ++ middle ++ tail) = .ok ordered) :
    KeepsMembers head tail middle ordered := by
  obtain ⟨cost, group, hgroups, _, rfl⟩ := timeOrder_eq_ok hpins h
  have hinner := flatMap_blockOrder_perm t cost group
  refine ⟨_, hinner.subperm.trans ?_, ?_, rfl⟩
  · have hsub := List.Sublist.flatMap_right Block.all fun b _ => visitedIn_sublist t b (group b)
    exact hsub.subperm.trans hgroups.subperm
  · intro p hp
    obtain ⟨b, hb, hpb⟩ := List.mem_flatMap.mp (hgroups.mem_iff.mpr hp)
    -- The stops of a block are some of the middle ones, so they can be told apart as well.
    have hgroup : group b ⊆ middle := fun q hq =>
      hgroups.mem_iff.mp (List.mem_flatMap.mpr ⟨b, hb, hq⟩)
    exact hinner.mem_iff.mpr (List.mem_flatMap.mpr
      ⟨b, hb, subset_visitedIn (hmiddle.of_subset hgroup) b hpb⟩)

/-- Where no block is congested, all stops are kept as often as they are given. -/
theorem timeOrder_rearranged [Zero α] [Mul α] [IntCast α] (hpins : Pinned pins head tail)
    (hfree : ∀ b, ¬ t.congestedAbove < t.congestion b)
    (h : timeOrder t pins (head ++ middle ++ tail) = .ok ordered) :
    Rearranged head tail middle ordered := by
  obtain ⟨cost, group, hgroups, _, rfl⟩ := timeOrder_eq_ok hpins h
  have hinner := flatMap_blockOrder_perm t cost group
  have hvisited : ∀ b ∈ Block.all, visitedIn t b (group b) = group b := fun b _ => if_neg (hfree b)
  rw [List.flatMap_congr hvisited] at hinner
  exact ⟨_, hinner.trans hgroups, rfl⟩

/-! ## Key stops -/

/-- The key stop of a block is one of the stops in this block. -/
theorem block_keyStop {stops : List P} {blocks : List (P × Block)}
    (hblocks : (stops.mapM fun p => do return (p, ← t.block p)) = .ok blocks)
    {g : Block × List (P × Block)} (hg : g ∈ byBlock (fun p => p.2) blocks) {k : P}
    (hk : keyStop? t (g.2.map (·.1)) = some k) : k ∈ stops ∧ t.block k = .ok g.1 := by
  obtain ⟨hplaces, hblock⟩ := withBlocks_eq_ok hblocks
  have hmem : k ∈ g.2.map (·.1) := by
    cases hg2 : g.2.map (·.1) with
    | nil =>
        rw [hg2] at hk
        cases hk
    | cons x rest =>
        rw [hg2] at hk
        cases hk
        exact Choice.best_mem _ x rest
  obtain ⟨q, hq, rfl⟩ := List.mem_map.mp hmem
  rw [mem_byBlock hg] at hq
  obtain ⟨hmem, hb⟩ := List.mem_filter.mp hq
  rw [← hplaces]
  exact ⟨List.mem_map_of_mem hmem, beq_iff_eq.mp hb ▸ hblock q hmem⟩

/-- No stop is the key stop of two blocks. -/
theorem nodup_keyStops {stops : List P} {blocks : List (P × Block)}
    (hblocks : (stops.mapM fun p => do return (p, ← t.block p)) = .ok blocks) :
    ((byBlock (fun p => p.2) blocks).filterMap fun g => keyStop? t (g.2.map (·.1))).Nodup := by
  have hgroups : (byBlock (fun p : P × Block => p.2) blocks).Pairwise fun g h => g.1 ≠ h.1 := by
    apply List.Pairwise.filter
    rw [List.pairwise_map]
    exact Block.nodup_all
  rw [List.Nodup, List.pairwise_filterMap]
  refine hgroups.imp_of_mem ?_
  rintro g h hg hh hne k hk _ hk' rfl
  have hsame := (block_keyStop hblocks hg hk).2.symm.trans (block_keyStop hblocks hh hk').2
  exact hne (Except.ok.inj hsame)

/-- The key stops of the blocks, and all other stops, are together all stops; but of the mentions of a key
stop only one is left. -/
theorem keyStops_keep (hmiddle : Identified t middle) {blocks : List (P × Block)}
    (hblocks : (middle.mapM fun p => do return (p, ← t.block p)) = .ok blocks) :
    let keys := (byBlock (fun p => p.2) blocks).filterMap fun g => keyStop? t (g.2.map (·.1))
    let others := middle.filter fun p => !keys.any fun k => t.same k p
    (keys ++ others).Subperm middle ∧ middle ⊆ keys ++ others := by
  intro keys others
  have hkeys : keys ⊆ middle := by
    intro k hk
    obtain ⟨g, hg, hgk⟩ := List.mem_filterMap.mp hk
    exact (block_keyStop hblocks hg hgk).1
  have hmem : ∀ p ∈ middle, (keys.any fun k => t.same k p) = true ↔ p ∈ keys := by
    intro p hp
    rw [List.any_eq_true]
    constructor
    · rintro ⟨k, hk, hsame⟩
      rwa [(hmiddle k (hkeys hk) p hp).mp hsame] at hk
    · exact fun hk => ⟨p, hk, (hmiddle p hp p hp).mpr rfl⟩
  constructor
  · have hfirst : keys ⊆ middle.filter fun p => keys.any fun k => t.same k p := fun k hk =>
      List.mem_filter.mpr ⟨hkeys hk, (hmem k (hkeys hk)).mpr hk⟩
    exact ((nodup_keyStops hblocks).subperm hfirst).append (List.Subperm.refl others) |>.trans
      (List.filter_append_perm _ middle).subperm
  · intro p hp
    by_cases hk : p ∈ keys
    · exact List.mem_append_left _ hk
    · refine List.mem_append_right _ (List.mem_filter.mpr ⟨hp, ?_⟩)
      rw [Bool.not_eq_true', ← Bool.not_eq_true, hmem p hp]
      exact hk

variable [Zero α] [Add α] [Sub α] [BEq α]

theorem foldl_insertCheapest_rearranged (cost : P → P → α) (slack : α)
    (others : List P) {path : List P} (h : Rearranged head tail middle path) :
    Rearranged head tail (middle ++ others) (others.foldl (fun path p =>
      insertCheapest cost slack head.length (path.length - tail.length) path p) path) := by
  induction others generalizing middle path with
  | nil => rwa [List.append_nil]
  | cons x others ih =>
      have hrest := ih (h.insertCheapest cost slack x)
      rwa [List.append_assoc] at hrest

theorem balancedOrder_keepsMembers [Mul α] [IntCast α] (hpins : Pinned pins head tail)
    (hmiddle : Identified t middle) (maxPasses : Int)
    (h : balancedOrder t pins maxPasses (head ++ middle ++ tail) = .ok ordered) :
    KeepsMembers head tail middle ordered := by
  obtain ⟨model, _, h⟩ := Result.bind_eq_ok.mp h
  rw [splitPinned_append hpins] at h
  obtain ⟨blocks, hblocks, h⟩ := Result.bind_eq_ok.mp h
  obtain ⟨hsub, hall⟩ := keyStops_keep hmiddle hblocks
  dsimp only at h hsub hall
  generalize (byBlock (fun p => p.2) blocks).filterMap
    (fun g => keyStop? t (g.2.map (·.1))) = keys at h hsub hall
  split at h
  next =>
    rw [Result.pure_eq_ok] at h
    subst h
    -- The path begins with the key stops, and the others are inserted one by one.
    have hinserted := foldl_insertCheapest_rearranged (CostModel.balancedCost t model) t.slack
      (middle.filter fun p => !keys.any fun k => t.same k p) (.refl head tail keys)
    obtain ⟨inner, hinner, hpath⟩ := twoOptByCost_rearranged _ t.slack hpins maxPasses hinserted
    exact ⟨inner, hinner.subperm.trans hsub, fun p hp => hinner.mem_iff.mpr (hall hp), hpath⟩
  next =>
    rw [Result.pure_eq_ok] at h
    subst h
    exact (Rearranged.refl head tail middle).keepsMembers

/-! ## Every strategy -/

/-- Reversals keep all stops between the ends, however often these are mentioned. -/
theorem optimize_reversals_rearranged [Mul α] [IntCast α] {strategy : Strategy} {maxPasses : Int}
    (hpins : Pinned pins head tail) (hstrategy : strategy = .distance ∨ strategy = .inputOrder)
    (h : optimize t strategy pins maxPasses (head ++ middle ++ tail) = .ok ordered) :
    Rearranged head tail middle ordered := by
  rw [optimize] at h
  split at h
  next =>
    cases h
    exact .refl head tail middle
  next =>
    rcases hstrategy with rfl | rfl
    · cases h
      exact distanceOrder_rearranged t hpins maxPasses
    · cases h
      exact twoOpt_rearranged t.leg t.slack hpins maxPasses (.refl head tail middle)

/-- A strategy keeps the pinned ends and each of the stops between them. -/
theorem optimize_keepsMembers [Mul α] [IntCast α] {strategy : Strategy} {maxPasses : Int}
    (hpins : Pinned pins head tail) (hmiddle : Identified t middle)
    (h : optimize t strategy pins maxPasses (head ++ middle ++ tail) = .ok ordered) :
    KeepsMembers head tail middle ordered := by
  cases strategy with
  | distance => exact (optimize_reversals_rearranged hpins (.inl rfl) h).keepsMembers
  | inputOrder => exact (optimize_reversals_rearranged hpins (.inr rfl) h).keepsMembers
  | time =>
      rw [optimize] at h
      split at h
      next =>
        cases h
        exact (Rearranged.refl head tail middle).keepsMembers
      next => exact timeOrder_keepsMembers hpins hmiddle h
  | balanced =>
      rw [optimize] at h
      split at h
      next =>
        cases h
        exact (Rearranged.refl head tail middle).keepsMembers
      next => exact balancedOrder_keepsMembers hpins hmiddle maxPasses h

/-- A strategy keeps the pinned ends and all stops between them that are given once. -/
theorem optimize_rearranged [Mul α] [IntCast α] {strategy : Strategy} {maxPasses : Int}
    (hpins : Pinned pins head tail) (hmiddle : Distinguished t middle)
    (h : optimize t strategy pins maxPasses (head ++ middle ++ tail) = .ok ordered) :
    Rearranged head tail middle ordered :=
  (optimize_keepsMembers hpins hmiddle.same_iff h).rearranged hmiddle.nodup

end Strategies

/-! ## Whether a strategy has an outcome -/

section

variable [Zero α] [Add α] [Sub α] [LT α] [DecidableLT α] [BEq α] [Mul α] [IntCast α]

theorem exists_optimize_reversals {t : Terrain P α} {strategy : Strategy}
    (hstrategy : strategy = .distance ∨ strategy = .inputOrder) (pins : Pins) (maxPasses : Int)
    (stops : List P) : ∃ ordered, optimize t strategy pins maxPasses stops = .ok ordered := by
  rw [optimize]
  split
  next => exact ⟨_, rfl⟩
  next =>
    rcases hstrategy with rfl | rfl
    · exact ⟨_, rfl⟩
    · exact ⟨_, rfl⟩

end

/-- What the strategies look up is known: the block of every stop, and the minutes of every way. -/
structure Charted [Zero α] (t : Terrain P α) (stops : List P) : Prop where
  block : ∀ p ∈ stops, ∃ b, t.block p = .ok b
  minutes : ∀ p ∈ stops, ∀ q ∈ stops, ∃ m, t.minutes (t.leg p q) = .ok m
  still : ∃ m, t.minutes 0 = .ok m

namespace Charted

variable [Zero α] {t : Terrain P α} {stops : List P}

theorem exists_build (h : Charted t stops) : ∃ model, CostModel.build t stops = .ok model := by
  have hminutes : ∃ minutes, ((matrix t.leg stops).mapM fun row => row.mapM t.minutes) =
      .ok minutes := by
    apply Result.exists_mapM_eq_ok
    intro row hrow
    apply Result.exists_mapM_eq_ok
    intro km hkm
    obtain ⟨⟨p, i⟩, hp, rfl⟩ := List.mem_map.mp hrow
    obtain ⟨⟨q, j⟩, hq, rfl⟩ := List.mem_map.mp hkm
    have hp : p ∈ stops := List.fst_mem_of_mem_zipIdx hp
    have hq : q ∈ stops := List.fst_mem_of_mem_zipIdx hq
    dsimp only
    split
    next => exact h.minutes p hp q hq
    next =>
      split
      next => exact h.minutes q hq p hp
      next => exact h.still
  have hcongestion : ∃ congestion,
      (stops.mapM fun p => do return t.congestion (← t.block p)) = .ok congestion := by
    apply Result.exists_mapM_eq_ok
    intro p hp
    obtain ⟨b, hb⟩ := h.block p hp
    exact ⟨_, Result.bind_eq_ok.mpr ⟨b, hb, rfl⟩⟩
  obtain ⟨minutes, hminutes⟩ := hminutes
  obtain ⟨congestion, hcongestion⟩ := hcongestion
  rw [CostModel.build, hminutes, hcongestion]
  exact ⟨_, rfl⟩

theorem exists_withBlocks (h : Charted t stops) {part : List P} (hpart : ∀ p ∈ part, p ∈ stops) :
    ∃ blocks, (part.mapM fun p => do return (p, ← t.block p)) = .ok blocks := by
  apply Result.exists_mapM_eq_ok
  intro p hp
  obtain ⟨b, hb⟩ := h.block p (hpart p hp)
  exact ⟨_, Result.bind_eq_ok.mpr ⟨b, hb, rfl⟩⟩

theorem mem_of_mem_splitPinned {pins : Pins} {p : P} (h : p ∈ (splitPinned pins stops).2.1) :
    p ∈ stops :=
  List.mem_of_mem_drop (List.mem_of_mem_take h)

variable [Add α] [Sub α] [LT α] [DecidableLT α] [BEq α] [Mul α] [IntCast α]

/-- Over charted stops every strategy has an outcome. -/
theorem exists_optimize (h : Charted t stops) (strategy : Strategy) (pins : Pins)
    (maxPasses : Int) : ∃ ordered, optimize t strategy pins maxPasses stops = .ok ordered := by
  have hblocks := h.exists_withBlocks fun p (hp : p ∈ (splitPinned pins stops).2.1) =>
    mem_of_mem_splitPinned hp
  rw [optimize]
  split
  next => exact ⟨_, rfl⟩
  next =>
    cases strategy with
    | distance => exact ⟨_, rfl⟩
    | inputOrder => exact ⟨_, rfl⟩
    | time =>
        apply Result.exists_bind_eq_ok h.exists_build
        intro model _
        exact Result.exists_bind_eq_ok hblocks fun blocks _ => ⟨_, rfl⟩
    | balanced =>
        apply Result.exists_bind_eq_ok h.exists_build
        intro model _
        generalize splitPinned pins stops = parts at hblocks ⊢
        apply Result.exists_bind_eq_ok hblocks
        intro blocks _
        dsimp only
        split
        next => exact ⟨_, rfl⟩
        next => exact ⟨_, rfl⟩

end Charted

end Wayfare.Route
