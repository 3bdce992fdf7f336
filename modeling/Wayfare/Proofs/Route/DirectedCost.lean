import Mathlib.Algebra.Order.Field.Rat
import Mathlib.Data.Rat.Floor
import Wayfare.Proofs.Route.LocalOptimum
import Wayfare.Proofs.Route.Membership

/-! # Improvement under a directed cost

Where the cost of a leg depends on its direction, a reversal changes every leg of
its stretch, so the whole path is costed again. The cost that is kept beside the
path stays its true cost and never rises. Where the passes end by themselves, no
reversal of a stretch that may move saves more than the slack. Only a path of two
stops is returned without any pass, even if it costs less the other way round.
-/

namespace Wayfare.Route

variable {P α : Type}

section

variable [Zero α] [Add α] [Sub α] [LT α] [DecidableLT α]
variable {cost : P → P → α} {slack : α} {pins : Pins}

/-- One pass over the stretches of a path. -/
def twoOptCostlyPass (cost : P → P → α) (slack : α) (pins : Pins) (state : Costed P α) :
    Costed P α :=
  (stretches pins state.path.length).foldl (tryCostly cost slack) { state with improved := false }

theorem twoOptCostlyPasses_succ (passes : Nat) (state : Costed P α) :
    twoOptCostlyPasses cost slack pins (passes + 1) state =
      if (twoOptCostlyPass cost slack pins state).improved then
        twoOptCostlyPasses cost slack pins passes (twoOptCostlyPass cost slack pins state)
      else twoOptCostlyPass cost slack pins state :=
  rfl

/-- The passes over a path end by themselves: the last of them finds nothing to reverse. -/
def SettlesByCost (cost : P → P → α) (slack : α) (pins : Pins) (passes : Nat) (path : List P) :
    Prop :=
  (twoOptCostlyPasses cost slack pins passes ⟨path, length cost path, false⟩).improved = false

/-! ## Passes that find nothing -/

theorem tryCostly_unimproved (cost : P → P → α) (slack : α) (state : Costed P α)
    (stretch : Nat × Nat) (h : (tryCostly cost slack state stretch).improved = false) :
    tryCostly cost slack state stretch = state := by
  simp only [tryCostly] at h ⊢
  split at h
  next => cases h
  next hkeep => rw [if_neg hkeep]

/-- A path is locally optimal under a cost: no reversal of a stretch of it costs less than it does by more
than the slack. -/
def LocallyOptimal (cost : P → P → α) (slack : α) (pins : Pins) (state : Costed P α) : Prop :=
  ∀ stretch ∈ stretches pins state.path.length,
    ¬ length cost (reverseBetween stretch.1 stretch.2 state.path) < state.cost - slack

theorem locallyOptimal_twoOptCostlyPass {state : Costed P α}
    (h : (twoOptCostlyPass cost slack pins state).improved = false) :
    LocallyOptimal cost slack pins (twoOptCostlyPass cost slack pins state) := by
  obtain ⟨hsame, hkeep⟩ :=
    foldl_unflagged Costed.improved (tryCostly_unimproved cost slack) h
  rw [twoOptCostlyPass, hsame]
  intro stretch hstretch hcheaper
  have hkept := hkeep stretch hstretch
  simp only [tryCostly] at hkept
  rw [if_pos hcheaper] at hkept
  cases congrArg Costed.improved hkept

/-- Passes that end by themselves end at a local optimum. -/
theorem locallyOptimal_twoOptCostlyPasses {passes : Nat} {state : Costed P α}
    (hstart : 0 < passes ∨ state.improved = true)
    (h : (twoOptCostlyPasses cost slack pins passes state).improved = false) :
    LocallyOptimal cost slack pins (twoOptCostlyPasses cost slack pins passes state) := by
  induction passes generalizing state with
  | zero =>
      rcases hstart with hnone | hstart
      · exact absurd hnone (Nat.lt_irrefl 0)
      · rw [twoOptCostlyPasses, hstart] at h
        cases h
  | succ passes ih =>
      rw [twoOptCostlyPasses_succ] at h ⊢
      split at h
      next himproved =>
        rw [if_pos himproved]
        exact ih (.inr himproved) h
      next hnone =>
        rw [if_neg hnone]
        exact locallyOptimal_twoOptCostlyPass h

/-! ## The stops of an improved path -/

theorem twoOptByCost_keeps (cost : P → P → α) (slack : α) (pins : Pins) (maxPasses : Int)
    (path : List P) :
    (twoOptByCost cost slack pins maxPasses path).Perm path ∧
      KeepsList pins path (twoOptByCost cost slack pins maxPasses path) := by
  rcases Nat.lt_or_ge 2 path.length with hlong | hshort
  · obtain ⟨head, middle, tail, hpins, rfl⟩ := exists_pinned pins (Nat.le_of_lt hlong)
    have hkept := twoOptByCost_rearranged cost slack hpins maxPasses (.refl head tail middle)
    exact ⟨hkept.perm, hkept.keepsMembers.keepsList hpins hlong⟩
  · rw [twoOptByCost, if_pos hshort]
    exact ⟨.refl path, .refl pins path⟩

end

/-! ## The cost beside the path -/

section

variable [AddCommGroup α] [LinearOrder α] [IsOrderedAddMonoid α]
variable {cost : P → P → α} {slack : α} {pins : Pins}

/-- The cost beside a path is its own, and within a bound. -/
structure CostedWithin (cost : P → P → α) (bound : α) (state : Costed P α) : Prop where
  cost_eq : state.cost = length cost state.path
  cost_le : state.cost ≤ bound

omit [IsOrderedAddMonoid α] in
theorem CostedWithin.start (cost : P → P → α) (path : List P) :
    CostedWithin cost (length cost path) ⟨path, length cost path, false⟩ :=
  ⟨rfl, le_rfl⟩

variable (hslack : 0 ≤ slack) {bound : α} {state : Costed P α}
include hslack

theorem CostedWithin.tryCostly (h : CostedWithin cost bound state) (stretch : Nat × Nat) :
    CostedWithin cost bound (tryCostly cost slack state stretch) := by
  simp only [Route.tryCostly]
  split
  next hcheaper => exact ⟨rfl, (hcheaper.le.trans (sub_le_self _ hslack)).trans h.cost_le⟩
  next => exact h

theorem CostedWithin.twoOptCostlyPass (h : CostedWithin cost bound state) :
    CostedWithin cost bound (twoOptCostlyPass cost slack pins state) := by
  apply List.foldlRecOn (motive := fun state => CostedWithin cost bound state)
  · exact ⟨h.cost_eq, h.cost_le⟩
  · exact fun next hnext stretch _ => hnext.tryCostly hslack stretch

theorem CostedWithin.twoOptCostlyPasses (h : CostedWithin cost bound state) (pins : Pins)
    (passes : Nat) :
    CostedWithin cost bound (twoOptCostlyPasses cost slack pins passes state) := by
  induction passes generalizing state with
  | zero => exact h
  | succ passes ih =>
      rw [twoOptCostlyPasses_succ]
      split
      next => exact ih (h.twoOptCostlyPass hslack)
      next => exact h.twoOptCostlyPass hslack

theorem length_twoOptByCost_le (cost : P → P → α) (pins : Pins) (maxPasses : Int)
    (path : List P) :
    length cost (twoOptByCost cost slack pins maxPasses path) ≤ length cost path := by
  rw [twoOptByCost]
  split
  next => exact le_rfl
  next =>
    have hend :=
      (CostedWithin.start cost path).twoOptCostlyPasses hslack pins (max 1 maxPasses).toNat
    exact hend.cost_eq.ge.trans hend.cost_le

/-- Where the passes over a path end by themselves, no reversal lowers its cost by more than the slack. A
path of two stops whose ends are both open is not gone over at all. -/
theorem twoOptByCost_locallyOptimal {maxPasses : Int} {path : List P}
    (hpair : path.length = 2 → pins.start = true ∨ pins.finish = true)
    (hsettles : SettlesByCost cost slack pins (max 1 maxPasses).toNat path) {i j : Nat}
    (hmem : (i, j) ∈ stretches pins path.length) :
    length cost (twoOptByCost cost slack pins maxPasses path) -
      length cost (reverseBetween i j (twoOptByCost cost slack pins maxPasses path)) ≤ slack := by
  have hlong : ¬ path.length ≤ 2 := by
    intro hshort
    obtain ⟨hlow, hij, hhigh⟩ := mem_stretches.mp hmem
    -- In a path of two stops a stretch that may move has both open ends.
    cases hs : pins.start <;> cases hf : pins.finish <;>
      simp [movable, hs, hf] at hlow hhigh hpair <;> omega
  have hlength := (twoOptByCost_keeps cost slack pins maxPasses path).1.length_eq
  have hcost :=
    ((CostedWithin.start cost path).twoOptCostlyPasses hslack pins (max 1 maxPasses).toNat).cost_eq
  have hoptimal := locallyOptimal_twoOptCostlyPasses (.inl (by omega)) hsettles
  rw [twoOptByCost, if_neg hlong] at hlength ⊢
  rw [← hlength] at hmem
  rw [← hcost]
  exact sub_le_comm.mp (not_lt.mp (hoptimal (i, j) hmem))

end

/-! ## The balanced strategy -/

/-- The balanced strategy returns the given order or one that costs less by more than the slack. -/
theorem balancedOrder_eq_ok [Zero α] [Add α] [Sub α] [LT α] [DecidableLT α] [BEq α] [Mul α]
    [IntCast α] {t : Terrain P α} {pins : Pins} {maxPasses : Int} {stops ordered : List P}
    (h : balancedOrder t pins maxPasses stops = .ok ordered) :
    ∃ model, CostModel.build t stops = .ok model ∧
      (ordered = stops ∨ length (CostModel.balancedCost t model) ordered <
        length (CostModel.balancedCost t model) stops - t.slack) := by
  obtain ⟨model, hmodel, h⟩ := Result.bind_eq_ok.mp h
  refine ⟨model, hmodel, ?_⟩
  generalize splitPinned pins stops = parts at h
  obtain ⟨blocks, _, h⟩ := Result.bind_eq_ok.mp h
  dsimp only at h
  split at h
  next hcheaper =>
    rw [Result.pure_eq_ok] at h
    exact .inr (h ▸ hcheaper)
  next =>
    rw [Result.pure_eq_ok] at h
    exact .inl h.symm

variable [AddCommGroup α] [LinearOrder α] [IsOrderedAddMonoid α] [Mul α] [IntCast α] [BEq α]

/-- Improvement under a cost that may depend on the direction returns the same stops with the pinned ends in
their places, and they cost no more than before. Where it ends by itself, no reversal of a stretch
that may move lowers the cost by more than the slack, unless the path is one of two stops with open
ends, which is returned as it is. So the balanced strategy returns the given order, or one that costs
less by more than the slack. -/
theorem twoOptByCost_never_costlier (cost : P → P → α) {slack : α} (hslack : 0 ≤ slack)
    (pins : Pins) (maxPasses : Int) (path : List P) :
    let improved := twoOptByCost cost slack pins maxPasses path
    (improved.Perm path ∧ (pins.start = true → improved.head? = path.head?) ∧
      (pins.finish = true → improved.getLast? = path.getLast?) ∧
      length cost improved ≤ length cost path) ∧
      ((path.length = 2 → pins.start = true ∨ pins.finish = true) →
        SettlesByCost cost slack pins (max 1 maxPasses).toNat path →
        ∀ i j, (movable pins path.length).1 ≤ i → i < j → j ≤ (movable pins path.length).2 →
          length cost improved - length cost (reverseBetween i j improved) ≤ slack) ∧
      ∀ (t : Terrain P α) (stops : List P), 3 ≤ stops.length →
        (Charted t stops → ∃ ordered, optimize t .balanced pins maxPasses stops = .ok ordered) ∧
        ∀ ordered, optimize t .balanced pins maxPasses stops = .ok ordered →
          ∃ model, CostModel.build t stops = .ok model ∧
            (ordered = stops ∨ length (CostModel.balancedCost t model) ordered <
              length (CostModel.balancedCost t model) stops - t.slack) := by
  intro improved
  obtain ⟨hperm, hkept⟩ := twoOptByCost_keeps cost slack pins maxPasses path
  have hcost := length_twoOptByCost_le hslack cost pins maxPasses path
  refine ⟨⟨hperm, hkept.start, hkept.finish, hcost⟩, ?_, ?_⟩
  · intro hpair hsettles i j hlow hij hhigh
    exact twoOptByCost_locallyOptimal hslack hpair hsettles
      (mem_stretches.mpr ⟨hlow, hij, hhigh⟩)
  · intro t stops hlong
    constructor
    · exact fun hcharted => hcharted.exists_optimize .balanced pins maxPasses
    · intro ordered h
      rw [optimize, if_neg (by omega)] at h
      exact balancedOrder_eq_ok h

/-- A day that is given with its lunch first: into that block trips take longer, so it moves back. -/
theorem twoOptByCost_never_costlier_lunch :
    let cost : Block → Block → ℚ := fun _ b => if b = .lunch then 39 / 10 else 3
    let improved := twoOptByCost cost (1 / 1000000000) {} 1000 [.breakfast, .lunch, .morning]
    let t : Terrain Block ℚ :=
      { leg := fun a b => if a = b then 0 else 3
        slack := 1 / 1000000000
        same := fun a b => a == b
        walkable := fun _ _ => false
        block := .ok
        minutes := fun km => .ok ⌈km⌉
        congestion := fun b => if b = .lunch then 13 / 10 else 1
        congestedAbove := 2
        rating := fun _ => none
        keyWeight := fun _ => 0
        sameCategory := fun _ _ => true
        lengthWeight := 1
        timeWeight := 1
        preferenceWeight := 1
        switchCost := 1 }
    (0 : ℚ) ≤ 1 / 1000000000 ∧
      SettlesByCost cost (1 / 1000000000) {} 1000 [.breakfast, .lunch, .morning] ∧
      length cost improved - length cost (reverseBetween 0 1 improved) ≤ 1 / 1000000000 ∧
      Charted t [.breakfast, .lunch, .morning] ∧
      ∃ ordered, optimize t .balanced {} 1000 [.breakfast, .lunch, .morning] = .ok ordered := by
  intro cost improved t
  have hslack : (0 : ℚ) ≤ 1 / 1000000000 := by norm_num
  have hsettles : SettlesByCost cost (1 / 1000000000) {} 1000 [.breakfast, .lunch, .morning] := by
    unfold SettlesByCost
    decide +kernel
  have hcharted : Charted t [.breakfast, .lunch, .morning] :=
    ⟨fun p _ => ⟨p, rfl⟩, fun _ _ _ _ => ⟨_, rfl⟩, ⟨_, rfl⟩⟩
  obtain ⟨_, hoptimal, hbalanced⟩ := twoOptByCost_never_costlier cost hslack {} 1000
    [.breakfast, .lunch, .morning]
  obtain ⟨hsome, _⟩ := hbalanced t [.breakfast, .lunch, .morning] (by decide)
  exact ⟨hslack, hsettles,
    hoptimal (by decide) hsettles 0 1 (by decide) (by decide) (by decide), hcharted,
    hsome hcharted⟩

/-- A morning and a lunch stay in their order with both ends open, although the way from the lunch to the
morning costs less. -/
theorem twoOptByCost_leaves_pair :
    let cost : Block → Block → ℚ := fun _ b => if b = .lunch then 39 / 10 else 3
    let improved := twoOptByCost cost (1 / 1000000000) {} 1000 [.morning, .lunch]
    SettlesByCost cost (1 / 1000000000) {} 1000 [.morning, .lunch] ∧
      improved = [.morning, .lunch] ∧ movable {} 2 = (0, 1) ∧
      ¬ length cost improved - length cost (reverseBetween 0 1 improved) ≤ 1 / 1000000000 := by
  unfold SettlesByCost
  decide +kernel

end Wayfare.Route
