import Mathlib.Algebra.Order.Field.Rat
import Mathlib.Data.List.Permutation
import Mathlib.Data.Set.Finite.Range
import Mathlib.Order.Preorder.Finite
import Wayfare.Proofs.Route.Improvement

/-! # Local optima

Passes of reversals go on until one finds nothing to reverse, unless they are
cut off before. Where they end by themselves, no reversal of a stretch that may
move saves more than the slack, and further passes leave the path as it is. With
enough passes they always end by themselves.
-/

namespace Wayfare.Route

variable {P α : Type}

theorem mem_stretches {pins : Pins} {n i j : Nat} :
    (i, j) ∈ stretches pins n ↔ (movable pins n).1 ≤ i ∧ i < j ∧ j ≤ (movable pins n).2 := by
  simp only [stretches, List.mem_flatMap, List.mem_map, List.mem_range'_1, Prod.mk.injEq]
  constructor
  · rintro ⟨k, hk, l, hl, rfl, rfl⟩
    omega
  · rintro ⟨hlow, hij, hhigh⟩
    exact ⟨i, by omega, j, by omega, rfl, rfl⟩

/-- Where every change raises a flag that stays up, a run that ends without the flag has changed nothing, and
none of its steps would change anything. -/
theorem foldl_unflagged {σ β : Type} {step : σ → β → σ} (flag : σ → Bool)
    (hstep : ∀ s b, flag (step s b) = false → step s b = s) {items : List β} {s : σ}
    (h : flag (items.foldl step s) = false) :
    items.foldl step s = s ∧ ∀ b ∈ items, step s b = s := by
  induction items generalizing s with
  | nil => exact ⟨rfl, List.forall_mem_nil _⟩
  | cons b rest ih =>
      rw [List.foldl_cons] at h ⊢
      obtain ⟨hrest, hnone⟩ := ih h
      have hb : step s b = s := by
        rw [hrest] at h
        exact hstep s b h
      rw [hb] at hrest hnone ⊢
      exact ⟨hrest, List.forall_mem_cons.mpr ⟨hb, hnone⟩⟩

section

variable [Zero α] [Add α] [Sub α] [LT α] [DecidableLT α]
variable {leg : P → P → α} {slack : α} {pins : Pins} {path : List P}

/-! ## Passes that find nothing -/

theorem tryReversal_unflagged (leg : P → P → α) (slack : α) (state : List P × Bool)
    (stretch : Nat × Nat) (h : (tryReversal leg slack state stretch).2 = false) :
    tryReversal leg slack state stretch = state := by
  simp only [tryReversal] at h ⊢
  split at h
  next => cases h
  next hkeep => rw [if_neg hkeep]

theorem twoOptPass_unflagged (h : (twoOptPass leg slack pins path).2 = false) :
    twoOptPass leg slack pins path = (path, false) :=
  (foldl_unflagged Prod.snd (tryReversal_unflagged leg slack) h).1

/-- If a pass finds nothing, no reversal saves more than the slack at the ends of its stretch. -/
theorem not_worth_reversing (h : twoOptPass leg slack pins path = (path, false))
    {stretch : Nat × Nat} (hmem : stretch ∈ stretches pins path.length)
    (hproper : isProper path.length stretch = true) :
    ¬ (endLegs leg path stretch).2 < (endLegs leg path stretch).1 - slack := by
  intro hworth
  have hflag : (twoOptPass leg slack pins path).2 = false := by rw [h]
  have hkeep := (foldl_unflagged Prod.snd (tryReversal_unflagged leg slack) hflag).2
    stretch (List.mem_filter.mpr ⟨hmem, hproper⟩)
  simp only [tryReversal] at hkeep
  rw [if_pos hworth] at hkeep
  cases congrArg Prod.snd hkeep

theorem twoOptPasses_of_pass (h : twoOptPass leg slack pins path = (path, false)) (passes : Nat) :
    twoOptPasses leg slack pins passes path = path := by
  cases passes with
  | zero => rfl
  | succ passes => rw [twoOptPasses, h]

theorem twoOptPasses_add (first more : Nat) (path : List P) :
    twoOptPasses leg slack pins (first + more) path =
      twoOptPasses leg slack pins more (twoOptPasses leg slack pins first path) := by
  induction first generalizing path with
  | zero => rw [Nat.zero_add]; rfl
  | succ first ih =>
      rw [Nat.succ_add, twoOptPasses, twoOptPasses]
      cases hpass : twoOptPass leg slack pins path with
      | mk next improved =>
          cases improved with
          | true => exact ih next
          | false =>
              have hsame : twoOptPass leg slack pins path = (path, false) :=
                twoOptPass_unflagged (by rw [hpass])
              rw [hpass] at hsame
              obtain rfl : next = path := congrArg Prod.fst hsame
              exact (twoOptPasses_of_pass hpass more).symm

/-- The passes over a path end by themselves: one of the first so many finds nothing to reverse. -/
def Settles (leg : P → P → α) (slack : α) (pins : Pins) (passes : Nat) (path : List P) : Prop :=
  ∃ k < passes, (twoOptPass leg slack pins (twoOptPasses leg slack pins k path)).2 = false

theorem Settles.twoOptPass_eq {passes : Nat} (h : Settles leg slack pins passes path) :
    twoOptPass leg slack pins (twoOptPasses leg slack pins passes path) =
      (twoOptPasses leg slack pins passes path, false) := by
  obtain ⟨k, hk, hnone⟩ := h
  obtain ⟨more, rfl⟩ := Nat.exists_eq_add_of_le (Nat.le_of_lt hk)
  have hsame := twoOptPass_unflagged hnone
  rw [twoOptPasses_add, twoOptPasses_of_pass hsame]
  exact hsame

theorem twoOptPasses_one (leg : P → P → α) (slack : α) (pins : Pins) (path : List P) :
    twoOptPasses leg slack pins 1 path = (twoOptPass leg slack pins path).1 := by
  rw [twoOptPasses]
  split
  next next hpass => rw [hpass, twoOptPasses]
  next same hpass => rw [hpass]

/-! ## The stops of an improved path -/

theorem twoOptPass_perm (leg : P → P → α) (slack : α) (pins : Pins) (path : List P) :
    (twoOptPass leg slack pins path).1.Perm path := by
  apply List.foldlRecOn (motive := fun state : List P × Bool => state.1.Perm path) _ _ (.refl path)
  intro state hstate stretch hstretch
  have hproper := (lt_of_mem_stretches (List.mem_filter.mp hstretch).1).1
  simp only [tryReversal]
  split
  next => exact (reverseBetween_perm (by omega) state.1).trans hstate
  next => exact hstate

theorem twoOptPasses_perm (leg : P → P → α) (slack : α) (pins : Pins) (passes : Nat)
    (path : List P) : (twoOptPasses leg slack pins passes path).Perm path := by
  induction passes with
  | zero => rfl
  | succ passes ih =>
      rw [twoOptPasses_add, twoOptPasses_one]
      exact (twoOptPass_perm leg slack pins _).trans ih

theorem twoOpt_perm (leg : P → P → α) (slack : α) (pins : Pins) (maxPasses : Int) (path : List P) :
    (twoOpt leg slack pins maxPasses path).Perm path := by
  rw [twoOpt]
  split
  next => rfl
  next => exact twoOptPasses_perm leg slack pins _ path

end

/-! ## Local optimality -/

section

variable [AddCommGroup α] [LinearOrder α] [IsOrderedAddMonoid α]
variable {leg : P → P → α} {slack : α} {pins : Pins}

/-- A reversal that is not worth being made saves no more than the slack of the whole path. -/
theorem length_sub_length_reverseBetween_le (hsymm : ∀ a b, leg a b = leg b a) {i j : Nat}
    (hij : i ≤ j) {path : List P} (hj : j < path.length)
    (h : ¬ (endLegs leg path (i, j)).2 < (endLegs leg path (i, j)).1 - slack) :
    length leg path - length leg (reverseBetween i j path) ≤ slack := by
  have hends := length_reverseBetween_add hsymm hij hj
  have hsaved : length leg path - length leg (reverseBetween i j path) =
      (endLegs leg path (i, j)).1 - (endLegs leg path (i, j)).2 := by
    rw [sub_eq_sub_iff_add_eq_add, ← hends, add_comm]
  rw [hsaved]
  exact sub_le_comm.mp (not_lt.mp h)

/-- With enough passes the reversals end by themselves: every pass that finds something makes the path
shorter, and its stops have only so many orders. -/
theorem exists_settles (hsymm : ∀ a b, leg a b = leg b a) (hslack : 0 ≤ slack) (path : List P) :
    ∃ passes, Settles leg slack pins passes path := by
  have hfinite : (Set.range fun k => twoOptPasses leg slack pins k path).Finite := by
    apply (List.finite_toSet path.permutations).subset
    rintro _ ⟨k, rfl⟩
    exact List.mem_permutations.mpr (twoOptPasses_perm leg slack pins k path)
  -- Of all the paths that the passes lead through, one is the shortest.
  obtain ⟨_, ⟨⟨k, rfl⟩, hshortest⟩⟩ :=
    hfinite.exists_minimalFor (length leg) _ (Set.range_nonempty _)
  refine ⟨k + 1, k, Nat.lt_succ_self k, ?_⟩
  cases hflag : (twoOptPass leg slack pins (twoOptPasses leg slack pins k path)).2 with
  | false => rfl
  | true =>
      have hshorter := (twoOptPass_shortens hsymm hslack _).2.2 hflag
      rw [← twoOptPasses_one, ← twoOptPasses_add] at hshorter
      exact absurd (hshortest ⟨k + 1, rfl⟩ hshorter.le) hshorter.not_ge

/-- Where the passes end by themselves, no reversal of a stretch that may move, other than of the whole path,
makes the path shorter by more than the slack; and to improve the path again leaves it as it is,
however many passes are allowed. -/
theorem twoOpt_locally_optimal (hsymm : ∀ a b, leg a b = leg b a) {path : List P}
    (hlong : 3 ≤ path.length) (maxPasses : Int)
    (hsettles : Settles leg slack pins (max 1 maxPasses).toNat path) :
    (∀ i j, (movable pins path.length).1 ≤ i → i < j → j ≤ (movable pins path.length).2 →
      ¬ (i = 0 ∧ j = path.length - 1) →
      length leg (twoOpt leg slack pins maxPasses path) -
        length leg (reverseBetween i j (twoOpt leg slack pins maxPasses path)) ≤ slack) ∧
      ∀ passes, twoOpt leg slack pins passes (twoOpt leg slack pins maxPasses path) =
        twoOpt leg slack pins maxPasses path := by
  have hlength := (twoOpt_perm leg slack pins maxPasses path).length_eq
  have hsame := hsettles.twoOptPass_eq
  have hpasses : twoOpt leg slack pins maxPasses path =
      twoOptPasses leg slack pins (max 1 maxPasses).toNat path := by
    rw [twoOpt, if_neg (by omega)]
  rw [← hpasses] at hsame
  generalize twoOpt leg slack pins maxPasses path = improved at hlength hsame ⊢
  constructor
  · intro i j hlow hij hhigh hproper
    have hmem : (i, j) ∈ stretches pins improved.length :=
      mem_stretches.mpr (hlength ▸ ⟨hlow, hij, hhigh⟩)
    rw [not_and_or, ← hlength] at hproper
    have hworth := not_worth_reversing hsame hmem (by simpa [isProper] using hproper)
    exact length_sub_length_reverseBetween_le hsymm hij.le (lt_of_mem_stretches hmem).2 hworth
  · intro passes
    rw [twoOpt]
    split
    next => rfl
    next => exact twoOptPasses_of_pass hsame _

/-- Stops on a line given out of order, with the first of them pinned. -/
theorem twoOpt_locally_optimal_line :
    let leg : ℚ → ℚ → ℚ := fun a b => |a - b|
    let improved := twoOpt leg (1 / 1000000000) ⟨true, false⟩ 10 [0, 3, 1, 4, 2]
    Settles leg (1 / 1000000000) ⟨true, false⟩ 10 [0, 3, 1, 4, 2] ∧
      length leg improved - length leg (reverseBetween 1 4 improved) ≤ 1 / 1000000000 ∧
      twoOpt leg (1 / 1000000000) ⟨true, false⟩ 1 improved = improved := by
  intro leg improved
  have hsettles : Settles leg (1 / 1000000000) ⟨true, false⟩ 10 [0, 3, 1, 4, 2] :=
    ⟨3, by decide, by decide +kernel⟩
  obtain ⟨hoptimal, hagain⟩ :=
    twoOpt_locally_optimal abs_sub_comm (by decide) 10 hsettles
  exact ⟨hsettles, hoptimal 1 4 (by decide) (by decide) (by decide) (by decide), hagain 1⟩

end

end Wayfare.Route
