import Mathlib
import Wayfare.Numeric
import Wayfare.Proofs.Choice
import Wayfare.Proofs.Plan.BeamSearch

/-! # Searches that lose nothing

A beam that has room for all continuations drops none. After each block it holds
every way of picking one option in each block so far that offers some, so that
in the end the cheapest of its partial days is the cheapest of all.
-/

namespace Wayfare.Plan

variable {P α : Type}

/-! ## Walks and their costs -/

/-- The costs of the steps of a walk that goes on from a place, or begins. -/
def stepCosts (cost : Option P → P → α) (previous : Option P) : List P → List α
  | [] => []
  | p :: rest => cost previous p :: stepCosts cost (some p) rest

/-- What a walk costs. -/
def walkCost [Zero α] [Add α] (cost : Option P → P → α) (walk : List P) : α :=
  total (stepCosts cost none walk)

/-- The walk through the fixed places of some layers and the picks that are made there. -/
def walkThrough (picks : List (Block × P)) (layers : List (Layer P)) : List P :=
  layers.flatMap fun l => l.fixed ++ (picks.lookup l.block).toList

/-- One of its options is picked in each layer that has some, and nothing in the others. -/
def PicksEach (layers : List (Layer P)) (picks : List (Block × P)) : Prop :=
  List.Forall₂ (fun l q => q.1 = l.block ∧ q.2 ∈ l.options)
    (layers.filter fun l => !l.options.isEmpty) picks

theorem PicksEach.block_mem {layers : List (Layer P)} {picks : List (Block × P)}
    (h : PicksEach layers picks) : ∀ q ∈ picks, q.1 ∈ layers.map (·.block) := by
  intro q hq
  obtain ⟨l, hl, hblock, _⟩ := Result.exists_of_mem_forall₂ h hq
  rw [hblock]
  exact List.mem_map_of_mem (List.mem_filter.mp hl).1

theorem picksEach_cons {l : Layer P} {rest : List (Layer P)} {picks : List (Block × P)} :
    PicksEach (l :: rest) picks ↔
      (l.options = [] ∧ PicksEach rest picks) ∨
        ∃ p ∈ l.options, ∃ others, PicksEach rest others ∧ picks = (l.block, p) :: others := by
  cases hoptions : l.options with
  | nil => simp [PicksEach, hoptions]
  | cons o os =>
      have hkept : (l :: rest).filter (fun l => !l.options.isEmpty) =
          l :: rest.filter (fun l => !l.options.isEmpty) := by
        rw [List.filter_cons_of_pos]
        rw [hoptions]
        rfl
      rw [PicksEach, hkept, List.forall₂_cons_left_iff, ← hoptions]
      constructor
      · rintro ⟨⟨b, p⟩, others, ⟨rfl, hp⟩, hothers, rfl⟩
        exact .inr ⟨p, hp, others, hothers, rfl⟩
      · rintro (⟨hnone, _⟩ | ⟨p, hp, others, hothers, rfl⟩)
        · rw [hoptions] at hnone
          cases hnone
        · exact ⟨(l.block, p), others, ⟨rfl, hp⟩, hothers, rfl⟩

theorem exists_picksEach (layers : List (Layer P)) : ∃ picks, PicksEach layers picks := by
  induction layers with
  | nil => exact ⟨[], .nil⟩
  | cons l rest ih =>
      obtain ⟨picks, hpicks⟩ := ih
      cases hoptions : l.options with
      | nil => exact ⟨picks, picksEach_cons.mpr (.inl ⟨hoptions, hpicks⟩)⟩
      | cons o os =>
          exact ⟨_, picksEach_cons.mpr (.inr ⟨o, hoptions ▸ List.mem_cons_self, picks, hpicks, rfl⟩)⟩

/-- A pick in a block that no layer belongs to is not come by. -/
theorem walkThrough_cons {layers : List (Layer P)} {b : Block} (hb : b ∉ layers.map (·.block))
    (p : P) (picks : List (Block × P)) :
    walkThrough ((b, p) :: picks) layers = walkThrough picks layers := by
  apply List.flatMap_congr
  intro l hl
  have hne : l.block ≠ b := fun h => hb (h ▸ List.mem_map_of_mem hl)
  rw [List.lookup_cons, beq_false_of_ne hne]

theorem lookup_eq_none {picks : List (Block × P)} {b : Block} (hb : ∀ q ∈ picks, q.1 ≠ b) :
    picks.lookup b = none := by
  rw [List.lookup_eq_none_iff]
  intro q hq
  simpa using (hb q hq).symm

/-! ## Partial days at given costs -/

/-- A partial day with more picks. -/
def Partial.addPicks (picks : List (Block × P)) (s : Partial P α) : Partial P α :=
  { s with picks := s.picks ++ picks }

theorem Partial.addPicks_nil (s : Partial P α) : s.addPicks [] = s := by
  rw [addPicks, List.append_nil]

theorem Partial.addPicks_addPicks (s : Partial P α) (first second : List (Block × P)) :
    (s.addPicks first).addPicks second = s.addPicks (first ++ second) := by
  rw [addPicks, addPicks, addPicks, List.append_assoc]

section

variable [Add α] (cost : Option P → P → α)

/-- A partial day after one more place. -/
def Partial.goOn (s : Partial P α) (p : P) : Partial P α :=
  { s with cost := s.cost + cost s.last p, last := some p }

def Partial.along (s : Partial P α) (walk : List P) : Partial P α :=
  walk.foldl (Partial.goOn cost) s

/-- What has been picked has no part in how a walk goes on. -/
theorem Partial.along_addPicks (s : Partial P α) (picks : List (Block × P)) (walk : List P) :
    (s.addPicks picks).along cost walk = (s.along cost walk).addPicks picks := by
  induction walk generalizing s with
  | nil => rfl
  | cons p rest ih => exact ih (s.goOn cost p)

theorem Partial.along_append (s : Partial P α) (first second : List P) :
    s.along cost (first ++ second) = (s.along cost first).along cost second :=
  List.foldl_append

theorem Partial.picks_along (s : Partial P α) (walk : List P) :
    (s.along cost walk).picks = s.picks := by
  induction walk generalizing s with
  | nil => rfl
  | cons p rest ih => exact ih (s.goOn cost p)

theorem Partial.cost_along (s : Partial P α) (walk : List P) :
    (s.along cost walk).cost = (stepCosts cost s.last walk).foldl (· + ·) s.cost := by
  induction walk generalizing s with
  | nil => rfl
  | cons p rest ih => exact ih (s.goOn cost p)

/-- What a partial day can become at the options of a layer. -/
def Partial.branches (l : Layer P) (s : Partial P α) : List (Partial P α) :=
  l.options.map fun p => (s.goOn cost p).addPicks [(l.block, p)]

/-- What a partial day can become in a layer: it goes on past the fixed places and then to any of the
options. -/
def Partial.nextDays (l : Layer P) (s : Partial P α) : List (Partial P α) :=
  if l.options.isEmpty then [s.along cost l.fixed] else (s.along cost l.fixed).branches cost l

/-- What a partial day can become in layers that it goes through. -/
def Partial.outcomes : List (Layer P) → Partial P α → List (Partial P α)
  | [], s => [s]
  | l :: rest, s => (s.nextDays cost l).flatMap (Partial.outcomes rest)

/-- The number of ways to go on in a layer. -/
def Layer.ways (l : Layer P) : Nat :=
  max 1 l.options.length

theorem Partial.length_nextDays (l : Layer P) (s : Partial P α) :
    (s.nextDays cost l).length = l.ways := by
  rw [nextDays, Layer.ways]
  cases hoptions : l.options with
  | nil => rfl
  | cons o os => simp [branches, hoptions]

theorem length_flatMap_nextDays (l : Layer P) (beam : List (Partial P α)) :
    (beam.flatMap (Partial.nextDays cost l)).length = beam.length * l.ways := by
  rw [List.length_flatMap, List.map_congr_left fun s _ => Partial.length_nextDays cost l s,
    List.map_const', List.sum_replicate_nat]

/-- The outcomes are the ways of picking one option in each layer that has some. -/
theorem Partial.mem_outcomes {layers : List (Layer P)} (hblocks : (layers.map (·.block)).Nodup)
    {s t : Partial P α} :
    t ∈ s.outcomes cost layers ↔ ∃ picks, PicksEach layers picks ∧
      t = (s.along cost (walkThrough picks layers)).addPicks picks := by
  induction layers generalizing s with
  | nil =>
      rw [outcomes, List.mem_singleton]
      constructor
      · rintro rfl
        exact ⟨[], .nil, (addPicks_nil t).symm⟩
      · rintro ⟨picks, hpicks, rfl⟩
        obtain rfl := List.forall₂_nil_left_iff.mp hpicks
        exact addPicks_nil s
  | cons l rest ih =>
      obtain ⟨hfresh, hblocks⟩ := List.nodup_cons.mp hblocks
      have hwalk (picks : List (Block × P)) : walkThrough picks (l :: rest) =
          l.fixed ++ (picks.lookup l.block).toList ++ walkThrough picks rest :=
        List.flatMap_cons
      rw [outcomes, List.mem_flatMap]
      simp only [ih hblocks, picksEach_cons]
      cases hoptions : l.options with
      | nil =>
          have hskip {picks : List (Block × P)} (h : PicksEach rest picks) :
              walkThrough picks (l :: rest) = l.fixed ++ walkThrough picks rest := by
            have hnone : picks.lookup l.block = none :=
              lookup_eq_none fun q hq heq => hfresh (heq.subst (h.block_mem q hq))
            rw [hwalk, hnone, Option.toList_none, List.append_nil]
          have hnext : s.nextDays cost l = [s.along cost l.fixed] := by
            rw [nextDays, hoptions]
            rfl
          simp only [hnext, List.mem_singleton, exists_eq_left, List.not_mem_nil, false_and,
            exists_false, or_false, true_and]
          refine exists_congr fun picks => and_congr_right fun hpicks => ?_
          rw [hskip hpicks, along_append]
      | cons o os =>
          have hpick (p : P) (picks : List (Block × P)) :
              walkThrough ((l.block, p) :: picks) (l :: rest) =
                l.fixed ++ [p] ++ walkThrough picks rest := by
            rw [hwalk, walkThrough_cons hfresh, List.lookup_cons_self, Option.toList_some]
          have hnext (u : Partial P α) : u ∈ s.nextDays cost l ↔ ∃ p ∈ l.options,
              (s.along cost (l.fixed ++ [p])).addPicks [(l.block, p)] = u := by
            rw [nextDays, if_neg (by simp [hoptions])]
            simp only [along_append]
            exact List.mem_map
          -- A walk through the layer is one to an option and then one through the rest.
          have hsplit (p : P) (picks : List (Block × P)) :
              (((s.along cost (l.fixed ++ [p])).addPicks [(l.block, p)]).along cost
                  (walkThrough picks rest)).addPicks picks =
                (s.along cost (walkThrough ((l.block, p) :: picks) (l :: rest))).addPicks
                  ((l.block, p) :: picks) := by
            rw [along_addPicks, addPicks_addPicks, ← along_append, ← hpick, List.singleton_append]
          simp only [hnext, ← hoptions]
          constructor
          · rintro ⟨u, ⟨p, hp, rfl⟩, picks, hpicks, rfl⟩
            exact ⟨_, .inr ⟨p, hp, picks, hpicks, rfl⟩, hsplit p picks⟩
          · rintro ⟨_, ⟨hnone, _⟩ | ⟨p, hp, picks, hpicks, rfl⟩, rfl⟩
            · rw [hoptions] at hnone
              cases hnone
            · exact ⟨_, ⟨p, hp, rfl⟩, picks, hpicks, (hsplit p picks).symm⟩

end

/-! ## Beams with room for everything -/

/-- A step of the search at given costs. -/
def exactStep (cost : Option P → P → α) (previous : Option P) (p : P) : Result α :=
  .ok (cost previous p)

/-- The picks of a partial day are told apart by texts, and no option of the layers is among them. -/
def Partial.Clear (id : P → Ident) (layers : List (Layer P)) (s : Partial P α) : Prop :=
  ∀ k ∈ s.ids id, k.isText = true ∧ ∀ l ∈ layers, ∀ p ∈ l.options, id p ≠ k

theorem Partial.Clear.mono {id : P → Ident} {layers fewer : List (Layer P)} {s : Partial P α}
    (h : s.Clear id layers) (hsub : fewer ⊆ layers) : s.Clear id fewer :=
  fun k hk => ⟨(h k hk).1, fun l hl => (h k hk).2 l (hsub hl)⟩

section

variable [Add α] {cost : Option P → P → α} {id : P → Ident}

theorem foldlM_passFixed (beam : List (Partial P α)) (fixed : List P) :
    fixed.foldlM (passFixed (exactStep cost)) beam = .ok (beam.map (·.along cost fixed)) := by
  induction fixed generalizing beam with
  | nil =>
      rw [List.foldlM_nil]
      exact congrArg Except.ok (List.map_id beam).symm
  | cons p rest ih =>
      have hpass : passFixed (exactStep cost) beam p = .ok (beam.map (·.goOn cost p)) :=
        List.mapM_pure
      rw [List.foldlM_cons, hpass]
      refine (ih (beam.map (·.goOn cost p))).trans ?_
      rw [List.map_map]
      rfl

theorem Partial.ids_along (s : Partial P α) (walk : List P) :
    (s.along cost walk).ids id = s.ids id := by
  rw [ids, picks_along, ids]

theorem Partial.Clear.along {layers : List (Layer P)} {s : Partial P α} (h : s.Clear id layers)
    (walk : List P) : (s.along cost walk).Clear id layers := by
  rw [Partial.Clear, ids_along]
  exact h

/-- A partial day goes on to all options of a layer that it is clear of. -/
theorem expand_eq {l : Layer P} {beam : List (Partial P α)} (hclear : ∀ s ∈ beam, s.Clear id [l]) :
    expand id (exactStep cost) l beam = .ok (beam.flatMap (Partial.branches cost l)) := by
  have hparts : beam.mapM (fun s => (l.options.filter fun p => !(s.ids id).contains (id p)).mapM
      fun p => s.pick (exactStep cost) l.block p) = .ok (beam.map (Partial.branches cost l)) := by
    rw [Result.mapM_eq_ok, List.forall₂_map_right_iff, List.forall₂_same]
    intro s hs
    have hnew : l.options.filter (fun p => !(s.ids id).contains (id p)) = l.options := by
      rw [List.filter_eq_self]
      intro p hp
      have hmem : id p ∉ s.ids id := fun h => (hclear s hs _ h).2 l List.mem_cons_self p hp rfl
      simp [hmem]
    rw [hnew]
    exact List.mapM_pure
  rw [expand, hparts]
  rfl

theorem Partial.Clear.nextDays {l : Layer P} {rest : List (Layer P)} {s : Partial P α}
    (hclear : s.Clear id (l :: rest)) (htext : ∀ p ∈ l.options, (id p).isText = true)
    (hdistinct : (((l :: rest).flatMap (·.options)).map id).Nodup) :
    ∀ t ∈ s.nextDays cost l, t.Clear id rest := by
  have hkept : (s.along cost l.fixed).Clear id rest :=
    (hclear.mono (List.subset_cons_self l rest)).along _
  intro t ht
  rw [Partial.nextDays] at ht
  split at ht
  next => exact List.mem_singleton.mp ht ▸ hkept
  next =>
    obtain ⟨p, hp, rfl⟩ := List.mem_map.mp ht
    intro k hk
    rw [ids, addPicks, List.map_append, List.mem_append] at hk
    rcases hk with hk | hk
    · exact hkept k hk
    · obtain rfl : k = id p := List.mem_singleton.mp hk
      refine ⟨htext p hp, fun m hm q hq heq => ?_⟩
      rw [List.flatMap_cons, List.map_append, List.nodup_append] at hdistinct
      exact hdistinct.2.2 _ (List.mem_map_of_mem hp) _
        (List.mem_map_of_mem (List.mem_flatMap.mpr ⟨m, hm, hq⟩)) heq.symm

theorem ways_pos (layers : List (Layer P)) : 0 < (layers.map Layer.ways).prod := by
  induction layers with
  | nil => exact Nat.one_pos
  | cons l rest ih =>
      rw [List.map_cons, List.prod_cons]
      exact Nat.mul_pos (Nat.lt_of_lt_of_le Nat.one_pos (Nat.le_max_left _ _)) ih

variable [LT α] [DecidableLT α] [BEq α]

variable (cost)

/-- A beam that is wide enough goes on to all that its partial days can become. -/
theorem nextBeam_perm {width : Nat} {l : Layer P} {beam : List (Partial P α)}
    (hwide : beam.length * l.ways ≤ width) (hclear : ∀ s ∈ beam, s.Clear id [l])
    (htext : ∀ p ∈ l.options, (id p).isText = true) (hdistinct : (l.options.map id).Nodup) :
    ∃ after, nextBeam id (exactStep cost) width beam l = .ok after ∧
      after.Perm (beam.flatMap (Partial.nextDays cost l)) := by
  have hpassed : ∀ s ∈ beam.map (·.along cost l.fixed), s.Clear id [l] := by
    intro s hs
    obtain ⟨t, ht, rfl⟩ := List.mem_map.mp hs
    exact (hclear t ht).along _
  have hnext : nextBeam id (exactStep cost) width beam l =
      (do
        let expanded := (beam.map (·.along cost l.fixed)).flatMap (Partial.branches cost l)
        if expanded.isEmpty then return beam.map (·.along cost l.fixed)
        else if areRankable id expanded then return (inRank id expanded).take width
        else throw .wrongKind) := by
    rw [nextBeam, foldlM_passFixed]
    change (expand id (exactStep cost) l (beam.map (·.along cost l.fixed)) >>= _) = _
    rw [expand_eq hpassed]
    rfl
  cases hoptions : l.options with
  | nil =>
      have hskip : beam.flatMap (Partial.nextDays cost l) = beam.map (·.along cost l.fixed) := by
        rw [List.map_eq_flatMap]
        apply List.flatMap_congr
        intro s _
        rw [Partial.nextDays, hoptions]
        rfl
      refine ⟨_, hnext.trans ?_, List.Perm.of_eq hskip.symm⟩
      simp [Partial.branches, hoptions]
      rfl
  | cons o os =>
      have hall : beam.flatMap (Partial.nextDays cost l) =
          (beam.map (·.along cost l.fixed)).flatMap (Partial.branches cost l) := by
        rw [List.flatMap_map]
        apply List.flatMap_congr
        intro s _
        rw [Partial.nextDays, hoptions]
        rfl
      have hlength := length_flatMap_nextDays cost l beam
      rw [← hall] at hnext
      have hdistinctHere : (([l].flatMap (·.options)).map id).Nodup := by
        rwa [List.flatMap_singleton]
      have hrankable : areRankable id (beam.flatMap (Partial.nextDays cost l)) = true := by
        apply areRankable_of_texts
        intro t ht
        obtain ⟨s, hs, ht⟩ := List.mem_flatMap.mp ht
        exact fun k hk => ((hclear s hs).nextDays htext hdistinctHere t ht k hk).1
      dsimp only at hnext
      rw [hrankable] at hnext
      split at hnext
      next hempty =>
        -- A layer with options leaves nothing only of an empty beam.
        rw [List.isEmpty_iff_length_eq_zero, hlength, Nat.mul_eq_zero] at hempty
        have hbeam : beam = [] := List.length_eq_zero_iff.mp (hempty.resolve_right (by
          rw [Layer.ways, hoptions, List.length_cons]
          omega))
        subst hbeam
        exact ⟨_, hnext, List.Perm.refl _⟩
      next =>
        refine ⟨_, hnext, ?_⟩
        rw [List.take_of_length_le]
        · exact inRank_perm id _
        · rw [(inRank_perm id _).length_eq, hlength]
          exact hwide

/-- A beam that is wide enough for all ways through some layers ends as all that its partial days can
become there. -/
theorem foldlM_nextBeam_perm {width : Nat} {layers : List (Layer P)} {beam : List (Partial P α)}
    (hwide : beam.length * (layers.map Layer.ways).prod ≤ width)
    (hclear : ∀ s ∈ beam, s.Clear id layers)
    (htext : ∀ l ∈ layers, ∀ p ∈ l.options, (id p).isText = true)
    (hdistinct : ((layers.flatMap (·.options)).map id).Nodup) :
    ∃ after, layers.foldlM (nextBeam id (exactStep cost) width) beam = .ok after ∧
      after.Perm (beam.flatMap (Partial.outcomes cost layers)) := by
  induction layers generalizing beam with
  | nil =>
      refine ⟨beam, rfl, List.Perm.of_eq ?_⟩
      exact (List.flatMap_singleton' beam).symm
  | cons l rest ih =>
      rw [List.map_cons, List.prod_cons, ← Nat.mul_assoc] at hwide
      obtain ⟨htextHere, htextRest⟩ := List.forall_mem_cons.mp htext
      have hroom : beam.length * l.ways ≤ width :=
        Nat.le_trans (Nat.le_mul_of_pos_right _ (ways_pos rest)) hwide
      have hparts := hdistinct
      rw [List.flatMap_cons, List.map_append, List.nodup_append] at hparts
      obtain ⟨hdistinctHere, hdistinctRest, _⟩ := hparts
      obtain ⟨after, hafter, hperm⟩ := nextBeam_perm cost hroom
        (fun s hs => (hclear s hs).mono fun m hm => List.mem_singleton.mp hm ▸ List.mem_cons_self) htextHere
        hdistinctHere
      have hlength : after.length = beam.length * l.ways := by
        rw [hperm.length_eq, length_flatMap_nextDays]
      have hclearAfter : ∀ t ∈ after, t.Clear id rest := by
        intro t ht
        obtain ⟨s, hs, ht⟩ := List.mem_flatMap.mp (hperm.mem_iff.mp ht)
        exact (hclear s hs).nextDays htextHere hdistinct t ht
      obtain ⟨final, hfinal, hends⟩ :=
        ih (by rwa [hlength]) hclearAfter htextRest hdistinctRest
      refine ⟨final, ?_, hends.trans ?_⟩
      · rw [List.foldlM_cons, hafter]
        exact hfinal
      · rw [show Partial.outcomes cost (l :: rest) = fun s =>
          (s.nextDays cost l).flatMap (Partial.outcomes cost rest) from rfl, ← List.flatMap_assoc]
        exact hperm.flatMap_right _

end

/-- The layers can be searched: they are of different blocks, and their options are told apart by texts
that are all different. -/
structure Separated (id : P → Ident) (layers : List (Layer P)) : Prop where
  blocks : (layers.map (·.block)).Nodup
  texts : ∀ l ∈ layers, ∀ p ∈ l.options, (id p).isText = true
  distinct : ((layers.flatMap (·.options)).map id).Nodup

/-- A search with room for all ways through the layers finds a cheapest one. -/
theorem searchBeam_cheapest [LinearOrder α] [Zero α] [Add α] {id : P → Ident}
    (cost : Option P → P → α) {layers : List (Layer P)} (h : Separated id layers) {width : Int}
    (hwide : ((layers.map Layer.ways).prod : Int) ≤ width) :
    ∃ best, searchBeam id (exactStep cost) width layers = .ok best ∧
      PicksEach layers best.picks ∧ best.cost = walkCost cost (walkThrough best.picks layers) ∧
      ∀ picks, PicksEach layers picks → best.cost ≤ walkCost cost (walkThrough picks layers) := by
  let start : Partial P α := ⟨[], 0, none⟩
  have hwide : [start].length * (layers.map Layer.ways).prod ≤ (max 1 width).toNat := by
    rw [List.length_singleton]
    omega
  have hclear : ∀ s ∈ [start], s.Clear id layers :=
    List.forall_mem_singleton.mpr (List.forall_mem_nil _)
  obtain ⟨beam, hbeam, hperm⟩ :=
    foldlM_nextBeam_perm cost hwide hclear h.texts h.distinct
  have hends (t : Partial P α) : t ∈ beam ↔ ∃ picks, PicksEach layers picks ∧
      t = (start.along cost (walkThrough picks layers)).addPicks picks := by
    rw [hperm.mem_iff, List.flatMap_singleton, Partial.mem_outcomes cost h.blocks]
  have hcost (picks : List (Block × P)) (walk : List P) :
      ((start.along cost walk).addPicks picks).cost = walkCost cost walk :=
    Partial.cost_along cost start walk
  cases beam with
  | nil =>
      obtain ⟨picks, hpicks⟩ := exists_picksEach layers
      exact absurd ((hends _).mpr ⟨picks, hpicks, rfl⟩) List.not_mem_nil
  | cons s rest =>
      let best := (Choice.least (fun t : Partial P α => t.cost) s rest).best
      have hleast : ∀ t ∈ s :: rest, best.cost ≤ t.cost := Choice.best_least_le _ s rest
      obtain ⟨picks, hpicks, hbest⟩ := (hends best).mp (Choice.best_mem _ s rest)
      have hown : best.picks = picks := by
        rw [hbest, Partial.addPicks, Partial.picks_along]
        exact List.nil_append picks
      refine ⟨best, Result.bind_eq_ok.mpr ⟨_, hbeam, rfl⟩, hown ▸ hpicks, ?_, ?_⟩
      · rw [hown, hbest, hcost]
      · intro others hothers
        rw [← hcost others]
        exact hleast _ ((hends _).mpr ⟨others, hothers, rfl⟩)

end Wayfare.Plan
