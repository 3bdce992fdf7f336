import Wayfare.Proofs.Choice
import Wayfare.Route.Insertion
import Wayfare.Route.Nearest

/-! # Paths with fixed ends

A path may have a stop at either end that has to stay there. Walks, reversals
and insertions put the stops between in another order, and lose none of them.
-/

namespace Wayfare.Route

variable {P α : Type}

/-! ## Walks -/

section

variable [LT α] [DecidableLT α]

theorem walkFrom_perm (leg : P → P → α) (from_ : P) (stops : List P) :
    (walkFrom leg from_ stops).Perm stops := by
  induction hlength : stops.length generalizing from_ stops with
  | zero =>
      rw [List.length_eq_zero_iff] at hlength
      rw [hlength, walkFrom]
  | succ n ih =>
      cases stops with
      | nil => cases hlength
      | cons x rest =>
          rw [walkFrom]
          refine List.Perm.trans (List.Perm.cons _ (ih _ _ ?_))
            (Choice.best_cons_others_perm (fun a b => decide (leg from_ a < leg from_ b)) x rest)
          rw [Choice.least, Choice.length_others_first]
          exact Nat.succ.inj hlength

theorem walk_perm (leg : P → P → α) (stops : List P) : (walk leg stops).Perm stops := by
  cases stops with
  | nil => rfl
  | cons x rest => exact (walkFrom_perm leg x rest).cons x

end

/-! ## Fixed ends -/

/-- The stops at the ends of a path that are pinned: one at a pinned end, none at an open one. -/
structure Pinned (pins : Pins) (head tail : List P) : Prop where
  start : head.length = pins.start.toNat
  finish : tail.length = pins.finish.toNat

/-- A path between two ends whose inner stops are some given ones, in any order. -/
def Rearranged (head tail middle path : List P) : Prop :=
  ∃ inner, inner.Perm middle ∧ path = head ++ inner ++ tail

namespace Rearranged

variable {head tail middle path : List P}

theorem refl (head tail middle : List P) : Rearranged head tail middle (head ++ middle ++ tail) :=
  ⟨middle, .refl _, rfl⟩

theorem perm (h : Rearranged head tail middle path) : path.Perm (head ++ middle ++ tail) := by
  obtain ⟨inner, hinner, rfl⟩ := h
  exact (hinner.append_left head).append_right tail

theorem length_eq (h : Rearranged head tail middle path) :
    path.length = head.length + middle.length + tail.length := by
  rw [h.perm.length_eq, List.length_append, List.length_append]

theorem trans {middle' : List P} (h : Rearranged head tail middle' path)
    (hmiddle : middle'.Perm middle) : Rearranged head tail middle path := by
  obtain ⟨inner, hinner, rfl⟩ := h
  exact ⟨inner, hinner.trans hmiddle, rfl⟩

end Rearranged

/-! ## Reversals -/

theorem reverseBetween_append (head inner tail : List P) {a b : Nat} (hab : a ≤ b)
    (hb : b < inner.length) :
    reverseBetween (head.length + a) (head.length + b) (head ++ inner ++ tail) =
      head ++ reverseBetween a b inner ++ tail := by
  have hcount : head.length + b + 1 - (head.length + a) = b + 1 - a := by omega
  have hstretch : b + 1 - a ≤ (inner.drop a).length := by
    rw [List.length_drop]
    omega
  rw [reverseBetween, reverseBetween, hcount, Nat.add_assoc, List.append_assoc head,
    List.take_length_add_append, List.drop_length_add_append, List.drop_length_add_append,
    List.take_append_of_le_length (by omega), List.drop_append_of_le_length (by omega),
    List.drop_append_of_le_length (by omega), List.take_append_of_le_length hstretch]
  simp only [List.append_assoc]

section Reversals

variable {pins : Pins} {head tail middle path : List P}

theorem Rearranged.reverseBetween {i j : Nat} (h : Rearranged head tail middle path)
    (hi : head.length ≤ i) (hij : i ≤ j) (hj : j < head.length + middle.length) :
    Rearranged head tail middle (reverseBetween i j path) := by
  obtain ⟨inner, hinner, rfl⟩ := h
  obtain ⟨a, rfl⟩ := Nat.exists_eq_add_of_le hi
  obtain ⟨n, rfl⟩ := Nat.exists_eq_add_of_le hij
  rw [← hinner.length_eq] at hj
  refine ⟨Route.reverseBetween a (a + n) inner, ?_, ?_⟩
  · exact (reverseBetween_perm (by omega) inner).trans hinner
  · rw [Nat.add_assoc, reverseBetween_append head inner tail (by omega) (by omega)]

def Between (head middle : List P) (stretch : Nat × Nat) : Prop :=
  head.length ≤ stretch.1 ∧ stretch.1 ≤ stretch.2 ∧ stretch.2 < head.length + middle.length

/-- The stretches that may be reversed lie between the pinned ends. -/
theorem between_of_mem_stretches (hpins : Pinned pins head tail) {n : Nat}
    (hn : n = head.length + middle.length + tail.length) {stretch : Nat × Nat}
    (h : stretch ∈ stretches pins n) : Between head middle stretch := by
  simp only [stretches, movable, List.mem_flatMap, List.mem_map, List.mem_range'_1] at h
  obtain ⟨i, hi, j, hj, rfl⟩ := h
  have hstart := hpins.start
  have hfinish := hpins.finish
  rw [Between]
  cases hs : pins.start <;> cases hf : pins.finish <;>
    simp only [hs, hf, Bool.toNat_true, Bool.toNat_false, if_true, if_false, Bool.false_eq_true]
      at hi hj hstart hfinish <;> omega

variable [Zero α] [Add α] [Sub α] [LT α] [DecidableLT α]

theorem tryReversal_rearranged (leg : P → P → α) (slack : α) {state : List P × Bool}
    {stretch : Nat × Nat} (h : Rearranged head tail middle state.1)
    (hbetween : Between head middle stretch) :
    Rearranged head tail middle (tryReversal leg slack state stretch).1 := by
  obtain ⟨hlow, hproper, hhigh⟩ := hbetween
  simp only [tryReversal]
  split
  next => exact h.reverseBetween hlow hproper hhigh
  next => exact h

theorem twoOptPass_rearranged (leg : P → P → α) (slack : α) (hpins : Pinned pins head tail)
    (h : Rearranged head tail middle path) :
    Rearranged head tail middle (twoOptPass leg slack pins path).1 := by
  -- The stretches were listed for the path at the outset; reversals keep its length, so they still fit.
  apply List.foldlRecOn (motive := fun state : List P × Bool =>
    Rearranged head tail middle state.1) _ _ h
  intro state hstate stretch hstretch
  apply tryReversal_rearranged leg slack hstate
  exact between_of_mem_stretches hpins h.length_eq (List.mem_filter.mp hstretch).1

theorem twoOptPasses_rearranged (leg : P → P → α) (slack : α) (hpins : Pinned pins head tail)
    (passes : Nat) (h : Rearranged head tail middle path) :
    Rearranged head tail middle (twoOptPasses leg slack pins passes path) := by
  induction passes generalizing path with
  | zero => exact h
  | succ passes ih =>
      have hpass := twoOptPass_rearranged leg slack hpins h
      rw [twoOptPasses]
      split
      next improved heq =>
        rw [heq] at hpass
        exact ih hpass
      next same heq =>
        rw [heq] at hpass
        exact hpass

theorem twoOpt_rearranged (leg : P → P → α) (slack : α) (hpins : Pinned pins head tail)
    (maxPasses : Int) (h : Rearranged head tail middle path) :
    Rearranged head tail middle (twoOpt leg slack pins maxPasses path) := by
  rw [twoOpt]
  split
  next => exact h
  next => exact twoOptPasses_rearranged leg slack hpins _ h

theorem tryCostly_rearranged (cost : P → P → α) (slack : α) {state : Costed P α}
    {stretch : Nat × Nat} (h : Rearranged head tail middle state.path)
    (hbetween : Between head middle stretch) :
    Rearranged head tail middle (tryCostly cost slack state stretch).path := by
  obtain ⟨hlow, hproper, hhigh⟩ := hbetween
  simp only [tryCostly]
  split
  next => exact h.reverseBetween hlow hproper hhigh
  next => exact h

theorem twoOptCostlyPasses_rearranged (cost : P → P → α) (slack : α)
    (hpins : Pinned pins head tail) (passes : Nat) {state : Costed P α}
    (h : Rearranged head tail middle state.path) :
    Rearranged head tail middle (twoOptCostlyPasses cost slack pins passes state).path := by
  induction passes generalizing state with
  | zero => exact h
  | succ passes ih =>
      have hpass : Rearranged head tail middle ((stretches pins state.path.length).foldl
          (tryCostly cost slack) { state with improved := false }).path := by
        apply List.foldlRecOn (motive := fun state : Costed P α =>
          Rearranged head tail middle state.path)
        · exact h
        · intro next hnext stretch hstretch
          apply tryCostly_rearranged cost slack hnext
          exact between_of_mem_stretches hpins h.length_eq hstretch
      simp only [twoOptCostlyPasses]
      split
      next => exact ih hpass
      next => exact hpass

theorem twoOptByCost_rearranged (cost : P → P → α) (slack : α) (hpins : Pinned pins head tail)
    (maxPasses : Int) (h : Rearranged head tail middle path) :
    Rearranged head tail middle (twoOptByCost cost slack pins maxPasses path) := by
  rw [twoOptByCost]
  split
  next => exact h
  next => exact twoOptCostlyPasses_rearranged cost slack hpins _ h

end Reversals

/-! ## Insertions -/

theorem insertIdx_append (head inner tail : List P) {k : Nat} (hk : k ≤ inner.length) (x : P) :
    (head ++ inner ++ tail).insertIdx (head.length + k) x = head ++ inner.insertIdx k x ++ tail := by
  induction head with
  | nil =>
      rw [List.nil_append, List.length_nil, Nat.zero_add, List.nil_append]
      induction inner generalizing k with
      | nil =>
          rw [Nat.le_zero.mp hk]
          rfl
      | cons y inner ih =>
          cases k with
          | zero => rfl
          | succ k =>
              rw [List.cons_append, List.insertIdx_succ_cons, List.insertIdx_succ_cons,
                List.cons_append, ih (Nat.le_of_succ_le_succ hk)]
  | cons y head ih =>
      rw [List.cons_append, List.cons_append, List.length_cons, Nat.succ_add,
        List.insertIdx_succ_cons, ih]
      rfl

section Insertions

variable [Zero α] [Add α] [Sub α] [LT α] [DecidableLT α] [BEq α]

omit [Add α] in
theorem mem_of_cheapest {β : Type} {slack : α} {candidates : List (α × β)} {c : α × β}
    (h : cheapest slack candidates = some c) : c ∈ candidates := by
  have hall : ∀ c, cheapest slack candidates = some c → c ∈ candidates := by
    apply List.foldlRecOn (motive := fun best : Option (α × β) =>
      ∀ c, best = some c → c ∈ candidates)
    · intro c hc
      cases hc
    · intro best hbest d hd c hc
      unfold keepCheaper at hc
      split at hc
      next =>
        split at hc
        next => exact Option.some.inj hc ▸ hd
        next => cases hc
      next =>
        split at hc
        next => exact Option.some.inj hc ▸ hd
        next => exact hbest c hc
  exact hall c h

/-- An insertion between the ends adds the stop to those between. -/
theorem Rearranged.insertCheapest {head tail middle path : List P} (cost : P → P → α) (slack : α)
    (h : Rearranged head tail middle path) (x : P) :
    Rearranged head tail (middle ++ [x])
      (insertCheapest cost slack head.length (path.length - tail.length) path x) := by
  have hlength := h.length_eq
  obtain ⟨inner, hinner, rfl⟩ := h
  have hposition : ∀ position, head.length ≤ position → position ≤ head.length + middle.length →
      Rearranged head tail (middle ++ [x]) ((head ++ inner ++ tail).insertIdx position x) := by
    intro position hlow hhigh
    obtain ⟨k, rfl⟩ := Nat.exists_eq_add_of_le hlow
    have hk : k ≤ inner.length := by
      rw [hinner.length_eq]
      omega
    refine ⟨inner.insertIdx k x, ?_, insertIdx_append head inner tail hk x⟩
    refine (List.perm_insertIdx x inner hk).trans ?_
    exact (hinner.cons x).trans (List.perm_append_singleton x middle).symm
  simp only [Route.insertCheapest]
  cases hbest : cheapest slack _ with
  | none => exact hposition _ (Nat.le_refl _) (Nat.le_add_right _ _)
  | some best =>
      obtain ⟨i, hi, rfl⟩ := List.mem_map.mp (mem_of_cheapest hbest)
      rw [List.mem_range'_1] at hi
      exact hposition _ (by simpa using hi.1) (by simp; omega)

end Insertions

end Wayfare.Route
