import Wayfare.Plan.Beam
import Wayfare.Proofs.Route.Rearrangement
import Wayfare.Proofs.RunSort
import Wayfare.Proofs.Success

/-! # Beam search

A search goes on by two steps: it passes a fixed place, which picks nothing, or
it picks one more option of a block. What both steps keep holds of every partial
day of the beam, and of the best one too.
-/

namespace Wayfare.Plan

variable {P α : Type} {layers : List (Layer P)} {id : P → Ident}

/-- The picks of a partial day are options of the layers that they are made for. -/
def Partial.Within (layers : List (Layer P)) (s : Partial P α) : Prop :=
  ∀ q ∈ s.picks, ∃ l ∈ layers, q.1 = l.block ∧ q.2 ∈ l.options

/-- Partial days whose picks are told apart by texts can be ranked. -/
theorem areRankable_of_texts [BEq α] {days : List (Partial P α)}
    (h : ∀ s ∈ days, ∀ k ∈ s.ids id, k.isText = true) : areRankable id days = true := by
  have htext : (days.flatMap (·.ids id)).all Ident.isText = true := by
    rw [List.all_eq_true]
    intro k hk
    obtain ⟨s, hs, hk⟩ := List.mem_flatMap.mp hk
    exact h s hs k hk
  rw [areRankable, htext, Bool.true_or]

section Step

variable [Add α] {step : Option P → P → Result α}

theorem advance_eq_ok {s t : Partial P α} {p : P} (h : s.advance step p = .ok t) :
    t.picks = s.picks ∧ t.last = some p := by
  obtain ⟨cost, _, h⟩ := Result.bind_eq_ok.mp h
  rw [Result.pure_eq_ok] at h
  subst h
  exact ⟨rfl, rfl⟩

theorem pick_eq_ok {s t : Partial P α} {b : Block} {p : P} (h : s.pick step b p = .ok t) :
    t.picks = s.picks ++ [(b, p)] ∧ t.last = some p := by
  obtain ⟨u, hu, h⟩ := Result.bind_eq_ok.mp h
  rw [Result.pure_eq_ok] at h
  subst h
  obtain ⟨hpicks, hlast⟩ := advance_eq_ok hu
  exact ⟨by rw [hpicks], hlast⟩

/-- What both steps of a search keep: passing a fixed place, and picking an option. -/
structure KeptBySteps (step : Option P → P → Result α) (layers : List (Layer P))
    (inv : Partial P α → Prop) : Prop where
  advance : ∀ l ∈ layers, ∀ p ∈ l.fixed, ∀ s t, inv s → s.advance step p = .ok t → inv t
  pick : ∀ l ∈ layers, ∀ p ∈ l.options, ∀ s t, inv s → s.pick step l.block p = .ok t → inv t

theorem keptBySteps_within (step : Option P → P → Result α) (layers : List (Layer P)) :
    KeptBySteps step layers (Partial.Within layers) where
  advance l hl p hp s t hs h := by
    rw [Partial.Within, (advance_eq_ok h).1]
    exact hs
  pick l hl p hp s t hs h := by
    intro q hq
    rw [(pick_eq_ok h).1] at hq
    rcases List.mem_append.mp hq with hq | hq
    · exact hs q hq
    · rw [List.mem_singleton] at hq
      subst hq
      exact ⟨l, hl, rfl, hp⟩

namespace KeptBySteps

variable {inv : Partial P α → Prop} {beam after : List (Partial P α)} {l : Layer P}

theorem passFixed (h : KeptBySteps step layers inv) (hl : l ∈ layers) {p : P} (hp : p ∈ l.fixed)
    (hbeam : ∀ s ∈ beam, inv s) (hafter : passFixed step beam p = .ok after) :
    ∀ s ∈ after, inv s := by
  intro t ht
  obtain ⟨s, hs, hadvance⟩ := Result.exists_of_mem_mapM hafter ht
  exact h.advance l hl p hp s t (hbeam s hs) hadvance

theorem expand (h : KeptBySteps step layers inv) (hl : l ∈ layers) (hbeam : ∀ s ∈ beam, inv s)
    (hafter : expand id step l beam = .ok after) : ∀ s ∈ after, inv s := by
  obtain ⟨parts, hparts, hafter⟩ := Result.bind_eq_ok.mp hafter
  rw [Result.pure_eq_ok] at hafter
  subst hafter
  intro t ht
  obtain ⟨part, hpart, ht⟩ := List.mem_flatten.mp ht
  obtain ⟨s, hs, hpicked⟩ := Result.exists_of_mem_mapM hparts hpart
  obtain ⟨p, hp, hpick⟩ := Result.exists_of_mem_mapM hpicked ht
  exact h.pick l hl p (List.mem_filter.mp hp).1 s t (hbeam s hs) hpick

variable [LT α] [DecidableLT α] [BEq α]

theorem nextBeam (h : KeptBySteps step layers inv) {width : Nat} (hl : l ∈ layers)
    (hbeam : ∀ s ∈ beam, inv s) (hafter : nextBeam id step width beam l = .ok after) :
    ∀ s ∈ after, inv s := by
  obtain ⟨passed, hpassed, hafter⟩ := Result.bind_eq_ok.mp hafter
  have hpassed := Result.of_foldlM hpassed hbeam fun p hp b c hb hc => h.passFixed hl hp hb hc
  obtain ⟨expanded, hexpanded, hafter⟩ := Result.bind_eq_ok.mp hafter
  have hexpanded := h.expand hl hpassed hexpanded
  split at hafter
  next =>
    rw [Result.pure_eq_ok] at hafter
    subst hafter
    exact hpassed
  next =>
    split at hafter
    next =>
      rw [Result.pure_eq_ok] at hafter
      subst hafter
      intro s hs
      exact hexpanded s ((inRank_perm id expanded).mem_iff.mp (List.mem_of_mem_take hs))
    next => exact absurd hafter Result.throw_ne_ok

/-- What the steps keep holds of the best partial day. -/
theorem searchBeam [Zero α] (h : KeptBySteps step layers inv) (hstart : inv ⟨[], 0, none⟩)
    {width : Int} {best : Partial P α} (hbest : searchBeam id step width layers = .ok best) :
    inv best := by
  obtain ⟨beam, hbeam, hbest⟩ := Result.bind_eq_ok.mp hbest
  have hone : ∀ s ∈ [(⟨[], 0, none⟩ : Partial P α)], inv s :=
    List.forall_mem_singleton.mpr hstart
  -- The invariant is carried from layer to layer by the beam as a whole.
  have hbeam := Result.of_foldlM hbeam hone fun l hl b c hb hc => h.nextBeam hl hb hc
  cases beam with
  | nil =>
      rw [Result.pure_eq_ok] at hbest
      exact hbest ▸ hstart
  | cons s rest =>
      rw [Result.pure_eq_ok] at hbest
      exact hbest ▸ hbeam _ (Choice.best_mem _ s rest)

end KeptBySteps

end Step

/-! ## Whether a search has an outcome -/

/-- The places that a search can come by. -/
def passed (layers : List (Layer P)) : List P :=
  layers.flatMap fun l => l.fixed ++ l.options

/-- All that a search asks for is known: the cost of every step, and an order of the options. -/
structure Searchable (id : P → Ident) (step : Option P → P → Result α) (layers : List (Layer P)) :
    Prop where
  first : ∀ q ∈ passed layers, ∃ cost, step none q = .ok cost
  next : ∀ p ∈ passed layers, ∀ q ∈ passed layers, ∃ cost, step (some p) q = .ok cost
  text : ∀ l ∈ layers, ∀ q ∈ l.options, (id q).isText = true

/-- A partial day has picked options, and it ends at a place that the search came by. -/
def Partial.OnWay (layers : List (Layer P)) (s : Partial P α) : Prop :=
  s.Within layers ∧ ∀ q ∈ s.last, q ∈ passed layers

namespace Searchable

variable {step : Option P → P → Result α}

theorem areRankable [BEq α] (h : Searchable id step layers) {days : List (Partial P α)}
    (hdays : ∀ s ∈ days, s.OnWay layers) : areRankable id days = true := by
  apply areRankable_of_texts
  intro s hs k hk
  obtain ⟨q, hq, rfl⟩ := List.mem_map.mp hk
  obtain ⟨l, hl, _, hoption⟩ := (hdays s hs).1 q hq
  exact h.text l hl q.2 hoption

variable [Add α]

theorem mem_passed {l : Layer P} (hl : l ∈ layers) {p : P} (hp : p ∈ l.fixed ++ l.options) :
    p ∈ passed layers :=
  List.mem_flatMap.mpr ⟨l, hl, hp⟩

theorem keptBySteps_onWay (step : Option P → P → Result α) (layers : List (Layer P)) :
    KeptBySteps step layers (Partial.OnWay layers) where
  advance l hl p hp s t hs h := by
    refine ⟨(keptBySteps_within step layers).advance l hl p hp s t hs.1 h, ?_⟩
    rw [(advance_eq_ok h).2]
    intro q hq
    obtain rfl := Option.mem_some_iff.mp hq
    exact mem_passed hl (List.mem_append_left _ hp)
  pick l hl p hp s t hs h := by
    refine ⟨(keptBySteps_within step layers).pick l hl p hp s t hs.1 h, ?_⟩
    rw [(pick_eq_ok h).2]
    intro q hq
    obtain rfl := Option.mem_some_iff.mp hq
    exact mem_passed hl (List.mem_append_right _ hp)

theorem exists_advance (h : Searchable id step layers) {s : Partial P α} (hs : s.OnWay layers)
    {p : P} (hp : p ∈ passed layers) : ∃ t, s.advance step p = .ok t := by
  refine Result.exists_bind_eq_ok ?_ fun cost _ => ⟨_, rfl⟩
  cases hlast : s.last with
  | none => exact h.first p hp
  | some q => exact h.next q (hs.2 q hlast) p hp

theorem exists_pick (h : Searchable id step layers) {s : Partial P α} (hs : s.OnWay layers)
    (b : Block) {p : P} (hp : p ∈ passed layers) : ∃ t, s.pick step b p = .ok t :=
  Result.exists_bind_eq_ok (h.exists_advance hs hp) fun _ _ => ⟨_, rfl⟩

variable [LT α] [DecidableLT α] [BEq α]

theorem exists_nextBeam (h : Searchable id step layers) (width : Nat) {l : Layer P} (hl : l ∈ layers)
    {beam : List (Partial P α)} (hbeam : ∀ s ∈ beam, s.OnWay layers) :
    ∃ after, nextBeam id step width beam l = .ok after := by
  have hkept := keptBySteps_onWay step layers
  have hfixed : ∃ passed, l.fixed.foldlM (passFixed step) beam = .ok passed := by
    apply Result.exists_foldlM_eq_ok (fun beam => ∀ s ∈ beam, s.OnWay layers) hbeam
    · exact fun p hp b c hb hc => hkept.passFixed hl hp hb hc
    · exact fun p hp b hb => Result.exists_mapM_eq_ok fun s hs =>
        h.exists_advance (hb s hs) (mem_passed hl (List.mem_append_left _ hp))
  refine Result.exists_bind_eq_ok hfixed fun passed hpassed => ?_
  have hpassed := Result.of_foldlM hpassed hbeam fun p hp b c hb hc => hkept.passFixed hl hp hb hc
  have hparts : ∃ expanded, expand id step l passed = .ok expanded := by
    refine Result.exists_bind_eq_ok (Result.exists_mapM_eq_ok fun s hs => ?_) fun _ _ => ⟨_, rfl⟩
    apply Result.exists_mapM_eq_ok
    exact fun p hp => h.exists_pick (hpassed s hs) l.block
      (mem_passed hl (List.mem_append_right _ (List.mem_filter.mp hp).1))
  refine Result.exists_bind_eq_ok hparts fun expanded hexpanded => ?_
  have hexpanded := hkept.expand hl hpassed hexpanded
  rw [h.areRankable hexpanded]
  split
  next => exact ⟨_, rfl⟩
  next => exact ⟨_, rfl⟩

/-- A search has a cheapest partial day. -/
theorem exists_searchBeam [Zero α] (h : Searchable id step layers) (width : Int) :
    ∃ best, searchBeam id step width layers = .ok best := by
  have hstart : (⟨[], 0, none⟩ : Partial P α).OnWay layers :=
    ⟨List.forall_mem_nil _, nofun⟩
  have hbeam := Result.exists_foldlM_eq_ok (fun beam => ∀ s ∈ beam, s.OnWay layers)
    (List.forall_mem_singleton.mpr hstart)
    (fun l hl b c hb hc => (keptBySteps_onWay step layers).nextBeam hl hb hc)
    (fun l hl b hb => h.exists_nextBeam (max 1 width).toNat hl hb)
  refine Result.exists_bind_eq_ok hbeam fun beam _ => ?_
  cases beam with
  | nil => exact ⟨_, rfl⟩
  | cons s rest => exact ⟨_, rfl⟩

end Searchable

end Wayfare.Plan
