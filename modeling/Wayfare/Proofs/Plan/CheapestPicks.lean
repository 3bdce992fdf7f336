import Wayfare.Proofs.Plan.BeamPicks
import Wayfare.Proofs.Plan.WideBeam

/-! # The cheapest picks of a day

When the search over a day is given room for all ways of picking one suggestion
in each block that offers some, its picks are such a way, and the walk through
the day with them costs no more than with any other.
-/

namespace Wayfare.Plan

variable {α : Type} {capacity : Int} {used : List Ident} {d : DayPlan}

/-- The number of ways of picking one option in each layer that has some. -/
def wayCount (layers : List (Layer Place)) : Nat :=
  ((layers.filter fun l => !l.options.isEmpty).map fun l => l.options.length).prod

theorem wayCount_eq (layers : List (Layer Place)) :
    wayCount layers = (layers.map Layer.ways).prod := by
  induction layers with
  | nil => rfl
  | cons l rest ih =>
      rw [List.map_cons, List.prod_cons, ← ih, wayCount, wayCount, Layer.ways]
      cases hoptions : l.options with
      | nil => simp [hoptions]
      | cons o os => simp [hoptions]

/-- The suggestions of a day that the search can pick, in the order of the blocks. -/
theorem options_sublist :
    ((dayLayers capacity used d).flatMap (·.options)).Sublist d.suggested := by
  rw [dayLayers, List.flatMap_map, DayPlan.suggested_eq]
  apply List.Sublist.flatMap_right
  intro b _
  rw [layerAt]
  dsimp only
  split
  next => exact List.nil_sublist _
  next => exact List.filter_sublist

/-- The layers of a day whose suggestions all differ can be told apart. -/
theorem separated_dayLayers (h : SearchReadable d)
    (hdistinct : (d.suggested.map (·.key)).Nodup) :
    Separated (·.key) (dayLayers capacity used d) where
  blocks := by
    rw [dayLayers, List.map_map]
    exact Block.nodup_all
  texts l hl q hq := by
    have hsuggested := options_sublist.subset (List.mem_flatMap.mpr ⟨l, hl, hq⟩)
    obtain ⟨id, hid⟩ := h.suggested q hsuggested
    rw [Place.key, hid]
    rfl
  distinct := hdistinct.sublist (options_sublist.map _)

/-- A search over a day is one over its layers, with the width that is asked for or, when there is nothing
to pick, the width of one partial day. -/
theorem searchDay_eq [Zero α] [Add α] [LT α] [DecidableLT α] [BEq α]
    (step : Option Place → Place → Result α) {width : Value} {n : Int} (h : SearchReadable d)
    (hwidth : width.asRepeats = .ok n) (hroom : (wayCount (dayLayers capacity used d) : Int) ≤ n) :
    ∃ m, (wayCount (dayLayers capacity used d) : Int) ≤ m ∧
      searchDay step capacity width used d =
        searchBeam (·.key) step m (dayLayers capacity used d) := by
  rw [searchDay, h.layersOf_eq, hwidth]
  cases hnone : (dayLayers capacity used d).all (·.options.isEmpty) with
  | true =>
      refine ⟨1, ?_, by simp [bind, Except.bind, hnone]⟩
      have hfilter : (dayLayers capacity used d).filter (fun l => !l.options.isEmpty) = [] := by
        rw [List.filter_eq_nil_iff]
        intro l hl
        simp [List.all_eq_true.mp hnone l hl]
      rw [wayCount, hfilter]
      exact Int.le_refl 1
  | false => exact ⟨n, hroom, by simp [bind, Except.bind, hnone]⟩

/-- A search with room for all ways of picking one option in each block that has some finds one that is as
cheap as any. -/
theorem searchDay_cheapest [LinearOrder α] [Zero α] [Add α] (cost : Option Place → Place → α)
    {width : Value} {n : Int} (hreadable : SearchReadable d)
    (hdistinct : (d.suggested.map (·.key)).Nodup) (hwidth : width.asRepeats = .ok n)
    (hroom : (wayCount (dayLayers capacity used d) : Int) ≤ n) :
    ∃ best, searchDay (exactStep cost) capacity width used d = .ok best ∧
      PicksEach (dayLayers capacity used d) best.picks ∧
      best.cost = walkCost cost (walkThrough best.picks (dayLayers capacity used d)) ∧
      ∀ picks, PicksEach (dayLayers capacity used d) picks →
        best.cost ≤ walkCost cost (walkThrough picks (dayLayers capacity used d)) := by
  obtain ⟨m, hm, hsearch⟩ := searchDay_eq (exactStep cost) hreadable hwidth hroom
  rw [hsearch]
  rw [wayCount_eq] at hm
  exact searchBeam_cheapest cost (separated_dayLayers hreadable hdistinct) hm

/-- A museum stands in the morning, a kilometre from the second of two cafés for breakfast: the search
passes over the first, which is nine kilometres away. -/
theorem searchDay_cheapest_near_cafe :
    let at_ (id : String) (x : Int) : Place :=
      { id := .text id, name := .text id, latitude := .int x, longitude := .int 0 }
    let cost (previous : Option Place) (p : Place) : Int :=
      match previous.map Place.latitude, p.latitude with
      | some (Value.int x), .int y => (y - x).natAbs
      | _, _ => 0
    let d : DayPlan :=
      { number := 1
        slots := PerBlock.ofFn fun b =>
          if b = .breakfast then { suggested := [at_ "far" 1, at_ "near" 9] }
          else if b = .morning then { selected := [at_ "museum" 10] }
          else {} }
    (SearchReadable d ∧ (d.suggested.map (·.key)).Nodup ∧
      (Value.int 2).asRepeats = .ok 2 ∧ (wayCount (dayLayers 1 [] d) : Int) ≤ 2) ∧
    ∃ best, searchDay (exactStep cost) 1 (.int 2) [] d = .ok best ∧ best.cost ≤ 1 := by
  intro at_ cost d
  have hreadable : SearchReadable d :=
    { selected := List.forall_mem_singleton.mpr ⟨_, rfl⟩
      suggested := List.forall_mem_cons.mpr ⟨⟨_, rfl⟩, List.forall_mem_singleton.mpr ⟨_, rfl⟩⟩
      sites := List.forall_mem_nil _ }
  have hdistinct : (d.suggested.map (·.key)).Nodup := by
    change [Ident.text "far", Ident.text "near"].Nodup
    decide
  have hwidth : (Value.int 2).asRepeats = .ok 2 := rfl
  have hroom : (wayCount (dayLayers 1 [] d) : Int) ≤ 2 := by decide
  have hway : PicksEach (dayLayers 1 [] d) [(.breakfast, at_ "near" 9)] :=
    .cons ⟨rfl, List.mem_cons_of_mem _ List.mem_cons_self⟩ .nil
  obtain ⟨best, hbest, _, _, hleast⟩ :=
    searchDay_cheapest cost hreadable hdistinct hwidth hroom
  exact ⟨⟨hreadable, hdistinct, hwidth, hroom⟩, best, hbest, hleast _ hway⟩

end Wayfare.Plan
