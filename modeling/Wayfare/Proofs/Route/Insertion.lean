import Mathlib.Algebra.Order.Group.Defs
import Mathlib.Algebra.Order.Group.Unbundled.Basic
import Wayfare.Proofs.Route.Length
import Wayfare.Proofs.Route.Rearrangement

/-! # What an insertion costs

The detour over a stop is what the path gets longer by when the stop is put
there. The choice of the cheapest position moves on only to one that is cheaper
by more than the slack, so it ends within the slack of every position.
-/

namespace Wayfare.Route

variable {P α : Type}

/-! ## Detours -/

theorem insertIdx_eq_append {path : List P} {p : Nat} (hp : p ≤ path.length) (x : P) :
    path.insertIdx p x = path.take p ++ [x] ++ path.drop p := by
  have hinsert := insertIdx_append (path.take p) [] (path.drop p) (Nat.zero_le _) x
  rw [List.append_nil, List.take_append_drop, List.length_take_of_le hp, Nat.add_zero] at hinsert
  rw [hinsert, List.insertIdx_zero]

section

variable [AddCommGroup α] (leg : P → P → α)

theorem detour_eq (previous next : Option P) (x : P) :
    detour leg previous next x =
      legOrZero leg previous (some x) + legOrZero leg (some x) next -
        legOrZero leg previous next := by
  cases previous <;> cases next <;> simp [detour, legOrZero]

/-- A path gets longer by the detour over the stop that is put into it. -/
theorem length_insertIdx {path : List P} {p : Nat} (hp : p ≤ path.length) (x : P) :
    length leg (path.insertIdx p x) = length leg path + detourAt leg path x p := by
  have hsplit : length leg path = length leg (path.take p) +
      legOrZero leg (path.take p).getLast? (path.drop p).head? + length leg (path.drop p) := by
    rw [← length_append, List.take_append_drop]
  have hinserted : length leg (path.insertIdx p x) = length leg (path.take p) +
      legOrZero leg (path.take p).getLast? (some x) + length leg [x] +
      legOrZero leg (some x) (path.drop p).head? + length leg (path.drop p) := by
    rw [insertIdx_eq_append hp, length_append, length_append, List.getLast?_concat]
    rfl
  rw [detourAt, detour_eq, ← getLast?_take_eq hp, ← List.head?_drop, hinserted, hsplit,
    length_singleton]
  abel

end

/-! ## The cheapest of some costs -/

section

variable {β : Type} [AddCommGroup α] [LinearOrder α] [IsOrderedAddMonoid α] [BEq α]
variable {slack : α} (hslack : 0 ≤ slack)
include hslack

theorem foldl_keepCheaper (candidates : List (α × β)) (b : α × β) :
    ∃ best, candidates.foldl (keepCheaper slack) (some b) = some best ∧ best.1 ≤ b.1 ∧
      ∀ c ∈ candidates, best.1 ≤ c.1 + slack := by
  induction candidates generalizing b with
  | nil => exact ⟨b, rfl, le_rfl, List.forall_mem_nil _⟩
  | cons c rest ih =>
      rw [List.foldl_cons, keepCheaper]
      split
      next hcheaper =>
        obtain ⟨best, hbest, hle, hrest⟩ := ih c
        have hbelow : c.1 ≤ b.1 := hcheaper.le.trans (sub_le_self _ hslack)
        exact ⟨best, hbest, hle.trans hbelow,
          List.forall_mem_cons.mpr ⟨hle.trans (le_add_of_nonneg_right hslack), hrest⟩⟩
      next hkeep =>
        obtain ⟨best, hbest, hle, hrest⟩ := ih b
        exact ⟨best, hbest, hle,
          List.forall_mem_cons.mpr ⟨hle.trans (sub_le_iff_le_add.mp (not_lt.mp hkeep)), hrest⟩⟩

/-- The cheapest of some costs is within the slack of each of them. -/
theorem exists_cheapest [LawfulBEq α] {candidates : List (α × β)} (hsome : candidates ≠ []) :
    ∃ best, cheapest slack candidates = some best ∧ ∀ c ∈ candidates, best.1 ≤ c.1 + slack := by
  cases candidates with
  | nil => exact absurd rfl hsome
  | cons c rest =>
      obtain ⟨best, hbest, hle, hrest⟩ := foldl_keepCheaper hslack rest c
      refine ⟨best, ?_,
        List.forall_mem_cons.mpr ⟨hle.trans (le_add_of_nonneg_right hslack), hrest⟩⟩
      rw [cheapest, List.foldl_cons, ← hbest]
      -- An exact cost is a cost, so the first one is taken.
      simp [keepCheaper, isFinite]

end

/-! ## The positions of a stretch -/

namespace Stretch

theorem positions_eq (s : Stretch P) :
    s.positions = List.range' s.start.toList.length (s.members.length + 1) := by
  obtain ⟨start, members, finish⟩ := s
  cases start <;> cases finish <;> simp [positions, path]

theorem path_insert (s : Stretch P) {k : Nat} (hk : k ≤ s.members.length) (x : P) :
    (s.insert k x).path = s.path.insertIdx (s.start.toList.length + k) x :=
  (insertIdx_append s.start.toList s.members s.finish.toList hk x).symm

section

variable [AddCommGroup α]

theorem length_path_insert (leg : P → P → α) (s : Stretch P) {k : Nat}
    (hk : k ≤ s.members.length) (x : P) :
    length leg (s.insert k x).path =
      length leg s.path + detourAt leg s.path x (s.start.toList.length + k) := by
  rw [path_insert s hk, length_insertIdx leg]
  simp only [path, List.length_append]
  omega

theorem cheapestPosition_eq [LinearOrder α] [BEq α] (leg : P → P → α) (slack : α)
    (s : Stretch P) (x : P) :
    s.cheapestPosition leg slack x = cheapest slack ((List.range (s.members.length + 1)).map
      fun k => (detourAt leg s.path x (s.start.toList.length + k), k)) := by
  have hoffset : (if s.start.isSome then 1 else 0) = s.start.toList.length := by
    cases s.start <;> rfl
  rw [cheapestPosition, hoffset, positions_eq, List.range'_eq_map_range, List.map_map]
  simp only [Function.comp_def, Nat.add_sub_cancel_left]

variable [LinearOrder α] [IsOrderedAddMonoid α] [BEq α] [LawfulBEq α]

/-- The cheapest position among the members of a stretch costs what its path gets longer by, and at most
the slack more than any other position would. -/
theorem exists_cheapestPosition (leg : P → P → α) {slack : α} (hslack : 0 ≤ slack)
    (s : Stretch P) (x : P) :
    ∃ cost k, s.cheapestPosition leg slack x = some (cost, k) ∧ k ≤ s.members.length ∧
      length leg (s.insert k x).path = length leg s.path + cost ∧
      ∀ l ≤ s.members.length,
        length leg s.path + cost ≤ length leg (s.insert l x).path + slack := by
  have hsome : ((List.range (s.members.length + 1)).map fun k =>
      (detourAt leg s.path x (s.start.toList.length + k), k)) ≠ [] := by simp
  obtain ⟨best, hbest, hleast⟩ := exists_cheapest hslack hsome
  rw [← cheapestPosition_eq] at hbest
  have hmem := hbest
  rw [cheapestPosition_eq] at hmem
  obtain ⟨k, hk, rfl⟩ := List.mem_map.mp (mem_of_cheapest hmem)
  have hk : k ≤ s.members.length := Nat.le_of_lt_succ (List.mem_range.mp hk)
  refine ⟨_, k, hbest, hk, length_path_insert leg s hk x, ?_⟩
  intro l hl
  rw [length_path_insert leg s hl, add_assoc]
  apply add_le_add_right
  exact hleast _ (List.mem_map.mpr ⟨l, List.mem_range.mpr (Nat.lt_succ_of_le hl), rfl⟩)

end

end Stretch

end Wayfare.Route
