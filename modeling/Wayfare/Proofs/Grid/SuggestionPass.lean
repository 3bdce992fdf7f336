import Wayfare.Proofs.Grid.SelectionPass
import Wayfare.Proofs.Ranking

/-! # The pass of the suggestions

Suggestions are added to what stands on the days, and nothing else changes. No
place that the traveller chose is ever suggested, and a day suggests each place
once.
-/

namespace Wayfare

open Wayfare.Calendar

namespace Grid

/-- Two days that differ at most in their suggestions. -/
def AgreeButSuggestions (d e : DayPlan) : Prop :=
  DayPlan.AgreeOn (fun s => (s.confirmed, s.selected)) d e

theorem AgreeButSuggestions.confirmed_eq {d e : DayPlan} (h : AgreeButSuggestions d e) :
    e.confirmed = d.confirmed := by
  rw [DayPlan.confirmed_eq, DayPlan.confirmed_eq]
  exact h.flatMap_eq Prod.fst

theorem AgreeButSuggestions.selected_eq {d e : DayPlan} (h : AgreeButSuggestions d e) :
    e.selected = d.selected := by
  rw [DayPlan.selected_eq, DayPlan.selected_eq]
  exact h.flatMap_eq Prod.snd

theorem AgreeButSuggestions.fixedCount_eq {d e : DayPlan} (h : AgreeButSuggestions d e)
    (b : Block) : (e.slots.get b).fixedCount = (d.slots.get b).fixedCount := by
  obtain ⟨hconfirmed, hselected⟩ := Prod.mk.inj (h.2.2 b)
  rw [Slot.fixedCount, Slot.fixedCount, hconfirmed, hselected]

theorem AgreeButSuggestions.isFull_eq {d e : DayPlan} (h : AgreeButSuggestions d e)
    (capacity : Int) (b : Block) :
    (e.slots.get b).isFull capacity = (d.slots.get b).isFull capacity := by
  rw [Slot.isFull, Slot.isFull, h.fixedCount_eq]

/-! ## Filling the blocks of a day -/

section Filling

variable {capacity : Int} {pool : List Place} {top : List Place → Result (List Place)}
variable {taken : List Ident} {d e : DayPlan} {best : Block → List Place}

/-- The best candidates of blocks that are filled one after the other: none for a full block, else the
top of what suits the block and is not taken yet. -/
def BestOf (capacity : Int) (pool : List Place) (top : List Place → Result (List Place))
    (d : DayPlan) (best : Block → List Place) (taken : List Ident) : List Block → Prop
  | [] => True
  | b :: rest =>
      (if (d.slots.get b).isFull capacity then best b = []
        else top (eligible pool taken b) = .ok (best b)) ∧
      BestOf capacity pool top d best (taken ++ (best b).map (·.key)) rest

/-- Blocks are filled alike on days with the same room. -/
theorem BestOf.congr {other : Block → List Place} {blocks : List Block}
    (h : BestOf capacity pool top d best taken blocks)
    (hfull : ∀ b, (e.slots.get b).isFull capacity = (d.slots.get b).isFull capacity)
    (hbest : ∀ b ∈ blocks, other b = best b) : BestOf capacity pool top e other taken blocks := by
  induction blocks generalizing taken with
  | nil => trivial
  | cons b rest ih =>
      obtain ⟨hhead, hrest⟩ := h
      obtain ⟨hb, hbest⟩ := List.forall_mem_cons.mp hbest
      rw [BestOf, hb, hfull]
      exact ⟨hhead, ih hrest hbest⟩

/-- What a block offers is the top of what neither the traveller nor an earlier block has taken. -/
theorem BestOf.of_split {blocks earlier later : List Block} {b : Block}
    (h : BestOf capacity pool top d best taken blocks) (hsplit : blocks = earlier ++ b :: later) :
    if (d.slots.get b).isFull capacity then best b = []
    else top (eligible pool (taken ++ earlier.flatMap fun c => (best c).map (·.key)) b) =
      .ok (best b) := by
  subst hsplit
  induction earlier generalizing taken with
  | nil =>
      rw [List.flatMap_nil, List.append_nil]
      exact h.1
  | cons c earlier ih =>
      have hlater := ih h.2
      rw [List.append_assoc] at hlater
      rw [List.flatMap_cons]
      exact hlater

/-- Filling blocks adds the best candidates of each to its suggestions. -/
theorem fillBlocks_eq_ok {blocks : List Block} (hnodup : blocks.Nodup)
    (h : fillBlocks capacity pool top taken d blocks = .ok e) :
    AgreeButSuggestions d e ∧ ∃ best, BestOf capacity pool top d best taken blocks ∧
      (∀ b ∉ blocks, best b = []) ∧
      ∀ b, (e.slots.get b).suggested =
        (d.slots.get b).suggested ++ (best b).map (·.withSource .aiRecommended) := by
  induction blocks generalizing taken d with
  | nil =>
      cases h
      refine ⟨DayPlan.AgreeOn.refl e, fun _ => [], trivial, fun _ _ => rfl, fun b => ?_⟩
      exact (List.append_nil _).symm
  | cons b rest ih =>
      obtain ⟨hfresh, hnodup⟩ := List.nodup_cons.mp hnodup
      rw [fillBlocks] at h
      split at h
      next hfull =>
        obtain ⟨hagree, best, hbest, hnone, hadded⟩ := ih hnodup h
        refine ⟨hagree, best, ⟨?_, ?_⟩, ?_, hadded⟩
        · rw [if_pos hfull]
          exact hnone b hfresh
        · rwa [hnone b hfresh, List.map_nil, List.append_nil]
        · exact fun c hc => hnone c fun hrest => hc (List.mem_cons_of_mem b hrest)
      next hroom =>
        obtain ⟨_, _, h⟩ := Result.bind_eq_ok.mp h
        obtain ⟨found, hfound, h⟩ := Result.bind_eq_ok.mp h
        have hmodify : AgreeButSuggestions d (d.modify b fun s =>
            { s with suggested := s.suggested ++ found.map (·.withSource .aiRecommended) }) :=
          DayPlan.agreeOn_modify (by intro s; rfl) d b
        obtain ⟨hagree, best, hbest, hnone, hadded⟩ := ih hnodup h
        -- The first block is not among the rest, so what the rest offers does not depend on it.
        have hothers : ∀ c ∈ rest, (if c = b then found else best c) = best c := by
          intro c hc
          exact if_neg fun heq : c = b => hfresh (heq ▸ hc)
        refine ⟨hmodify.trans hagree, fun c => if c = b then found else best c, ⟨?_, ?_⟩, ?_, ?_⟩
        · simp only [if_neg hroom, if_true]
          exact hfound
        · simp only [if_true]
          exact hbest.congr (fun c => (hmodify.isFull_eq capacity c).symm) hothers
        · intro c hc
          obtain ⟨hne, hc⟩ := not_or.mp (mt List.mem_cons.mpr hc)
          simp only [if_neg hne]
          exact hnone c hc
        · intro c
          rw [hadded c, DayPlan.get_slots_modify]
          by_cases hc : c = b
          · subst hc
            simp only [if_true, hnone c hfresh, List.map_nil, List.append_nil]
          · simp only [if_neg hc]

/-- The best candidates of a block come from the pool, suit the block, and are not taken. -/
theorem BestOf.mem_eligible {blocks : List Block}
    (h : BestOf capacity pool top d best taken blocks)
    (htop : ∀ offered found, top offered = .ok found → found ⊆ offered) {b : Block}
    (hb : b ∈ blocks) {p : Place} (hp : p ∈ best b) :
    p ∈ pool ∧ p.key ∉ taken ∧ Category.fits p b = true := by
  obtain ⟨earlier, later, hsplit⟩ := List.append_of_mem hb
  have hbest := h.of_split hsplit
  split at hbest
  next =>
    rw [hbest] at hp
    exact absurd hp List.not_mem_nil
  next =>
    obtain ⟨hpool, hfree⟩ := List.mem_filter.mp (htop _ _ hbest hp)
    rw [Bool.and_eq_true, Bool.not_eq_true', List.contains_eq_mem, decide_eq_false_iff_not,
      List.mem_append] at hfree
    exact ⟨hpool, fun htaken => hfree.1 (.inl htaken), hfree.2⟩

end Filling

/-- A day that is filled keeps what stood on it, and suggests places of the pool that the traveller did
not choose. -/
theorem fillDay_eq_ok {s : Settings} {capacity : Int} {limit : Value} {pool selected : List Place}
    {d e : DayPlan} (h : fillDay s capacity limit pool selected d = .ok e) :
    AgreeButSuggestions d e ∧ ∀ p ∈ e.suggested, p ∈ d.suggested ∨
      ∃ q ∈ pool, p = q.withSource .aiRecommended ∧ q.key ∉ selected.map (·.key) := by
  obtain ⟨own, _, h⟩ := Result.bind_eq_ok.mp h
  obtain ⟨hagree, best, hbest, _, hadded⟩ := fillBlocks_eq_ok Block.nodup_all h
  refine ⟨hagree, fun p hp => ?_⟩
  rw [DayPlan.suggested_eq] at hp ⊢
  obtain ⟨b, hb, hp⟩ := List.mem_flatMap.mp hp
  rw [hadded b] at hp
  rcases List.mem_append.mp hp with hp | hp
  · exact .inl (List.mem_flatMap.mpr ⟨b, hb, hp⟩)
  · obtain ⟨q, hq, rfl⟩ := List.mem_map.mp hp
    obtain ⟨hpool, hfree, _⟩ :=
      hbest.mem_eligible (fun _ _ htop => Score.topPlaces_subset htop) hb hq
    exact .inr ⟨q, hpool, rfl, hfree⟩

end Grid

end Wayfare
