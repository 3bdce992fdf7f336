import Mathlib.Algebra.Order.BigOperators.Group.List
import Mathlib.Algebra.Order.Field.Rat
import Mathlib.Data.Rat.Floor
import Wayfare.Proofs.Plan.Routing
import Wayfare.Proofs.Route.Improvement
import Wayfare.Proofs.Route.Insertion
import Wayfare.Proofs.Route.Strategies

/-! # Days with fixed stops

The stretches between the fixed stops of a day are together a tour of the day,
and every gap of the tour is a position in one of them. Each flexible stop goes
where the tour gets longer by the least, up to twice the slack, and the detours
that are recorded add up to what the tour got longer by. Arranging the stretches
one by one, with their ends pinned, makes it no longer.
-/

namespace Wayfare.Plan

open Wayfare.Route

variable {P α : Type}

/-! ## The tour of a day -/

/-- The path through the stretches of a day, one after the other. -/
def tour (day : List (Stretch P)) : List P :=
  day.flatMap fun s => s.start.toList ++ s.members

theorem tour_cons (s : Stretch P) (rest : List (Stretch P)) :
    tour (s :: rest) = s.start.toList ++ s.members ++ tour rest :=
  List.flatMap_cons

/-- Stretches that lead on from one another: each begins where the one before it ended, and the last has
an open end. -/
inductive Linked : Option P → List (Stretch P) → Prop
  | last (start : Option P) (members : List P) : Linked start [⟨start, members, none⟩]
  | next (start : Option P) (members : List P) {b : P} {rest : List (Stretch P)}
      (h : Linked (some b) rest) : Linked start (⟨start, members, some b⟩ :: rest)

namespace Linked

variable {previous : Option P} {day : List (Stretch P)}

theorem ne_nil (h : Linked previous day) : day ≠ [] := by
  cases h <;> exact List.cons_ne_nil _ _

/-- Whether stretches lead on from one another depends on their ends only. -/
theorem of_ends (h : Linked previous day) {day' : List (Stretch P)}
    (hends : day'.map ends = day.map ends) : Linked previous day' := by
  induction h generalizing day' with
  | last start members =>
      obtain ⟨⟨_, members', _⟩, rfl, hs⟩ := List.map_eq_singleton_iff.mp hends
      cases hs
      exact .last start members'
  | next start members _ ih =>
      obtain ⟨⟨_, members', _⟩, rest', rfl, hs, hrest⟩ := List.map_eq_cons_iff.mp hends
      cases hs
      exact .next start members' (ih hrest)

theorem head?_tour {b : P} (h : Linked (some b) day) : (tour day).head? = some b := by
  cases h <;> rfl

/-- A tour is as long as its stretches together, each from its one end to the other. -/
theorem length_tour [AddCommGroup α] (leg : P → P → α) (h : Linked previous day) :
    length leg (tour day) = (day.map fun s => length leg s.path).sum := by
  induction h with
  | last start members => simp [tour, Stretch.path]
  | @next start members b rest hrest ih =>
      have hpath : (Stretch.mk start members (some b)).path = start.toList ++ members ++ [b] := rfl
      have htour : tour (⟨start, members, some b⟩ :: rest) =
          start.toList ++ members ++ tour rest := tour_cons _ rest
      -- The end of this stretch begins the rest, so the leg to it is that between the two.
      rw [htour, length_append leg _ (tour rest), hrest.head?_tour, ih, List.map_cons,
        List.sum_cons, hpath, length_append leg _ [b], length_singleton, List.head?_cons, add_zero]

/-- Every gap of a tour behind its first fixed stop is a position among the members of a stretch. -/
theorem exists_gap (h : Linked previous day) {p : Nat} (hlow : previous.toList.length ≤ p)
    (hp : p ≤ (tour day).length) (x : P) :
    ∃ i k, ∃ hi : i < day.length, k ≤ day[i].members.length ∧
      tour (day.modify i (·.insert k x)) = (tour day).insertIdx p x := by
  induction h generalizing p with
  | last start members =>
      obtain ⟨k, rfl⟩ := Nat.exists_eq_add_of_le hlow
      have hk : k ≤ members.length := by
        simp only [tour_cons, List.length_append] at hp
        simpa [tour] using hp
      refine ⟨0, k, Nat.zero_lt_one, hk, ?_⟩
      simpa [tour, Stretch.insert] using (insertIdx_append start.toList members [] hk x).symm
  | @next start members b rest hrest ih =>
      have htour : tour (⟨start, members, some b⟩ :: rest) =
          start.toList ++ members ++ tour rest := tour_cons _ rest
      rw [htour, List.length_append, List.length_append] at hp
      -- The gap right before the next fixed stop still belongs to this stretch.
      rcases Nat.lt_or_ge (start.toList.length + members.length) p with hlater | hhere
      · obtain ⟨q, rfl⟩ := Nat.exists_eq_add_of_le hlater.le
        obtain ⟨i, k, hi, hk, hlonger⟩ := ih (p := q) (by simp; omega) (by omega)
        refine ⟨i + 1, k, Nat.succ_lt_succ hi, hk, ?_⟩
        rw [List.modify_succ_cons, tour_cons, hlonger, htour]
        have hq : q ≤ (tour rest).length := by omega
        simpa using (insertIdx_append (start.toList ++ members) (tour rest) [] hq x).symm
      · obtain ⟨k, rfl⟩ := Nat.exists_eq_add_of_le hlow
        have hk : k ≤ members.length := by omega
        refine ⟨0, k, Nat.succ_pos _, hk, ?_⟩
        rw [List.modify_zero_cons, tour_cons, htour]
        exact (insertIdx_append start.toList members (tour rest) hk x).symm

end Linked

theorem linked_stretchesBetween (previous : Option P) (anchors : List P) :
    Linked previous (stretchesBetween previous anchors) := by
  induction anchors generalizing previous with
  | nil => exact .last previous []
  | cons a rest ih => exact .next previous [] (ih (some a))

theorem tour_stretchesBetween (previous : Option P) (anchors : List P) :
    tour (stretchesBetween previous anchors) = previous.toList ++ anchors := by
  induction anchors generalizing previous with
  | nil => simp [stretchesBetween, tour]
  | cons a rest ih =>
      rw [stretchesBetween, tour_cons, ih]
      simp

/-! ## Putting a stop into a day -/

/-- A position among the members of a stretch is a gap of the tour. -/
theorem exists_tour_modify {day : List (Stretch P)} {i k : Nat} (hi : i < day.length)
    (hk : k ≤ day[i].members.length) (x : P) :
    ∃ p ≤ (tour day).length,
      tour (day.modify i (·.insert k x)) = (tour day).insertIdx p x := by
  obtain ⟨before, s, after, rfl, rfl, hmodify⟩ := List.exists_of_modify (·.insert k x) hi
  have hs : (before ++ s :: after)[before.length] = s := by simp
  rw [hs] at hk
  have htour : tour (before ++ s :: after) =
      tour before ++ s.start.toList ++ s.members ++ tour after := by
    simp [tour]
  refine ⟨(tour before ++ s.start.toList).length + k, ?_, ?_⟩
  · simp only [htour, List.length_append]
    omega
  · rw [hmodify, htour, insertIdx_append _ _ _ hk]
    simp [tour, Stretch.insert]

section

variable [AddCommGroup α]

theorem sum_modify (g : Stretch P → α) (f : Stretch P → Stretch P) {day : List (Stretch P)}
    {i : Nat} (hi : i < day.length) :
    ((day.modify i f).map g).sum = (day.map g).sum + (g (f day[i]) - g day[i]) := by
  obtain ⟨before, s, after, rfl, rfl, hmodify⟩ := List.exists_of_modify f hi
  have hs : (before ++ s :: after)[before.length] = s := by simp
  rw [hmodify, hs]
  simp only [List.map_append, List.map_cons, List.sum_append, List.sum_cons]
  abel

/-- A tour gets longer by what the stretch gets longer into which a stop is put. -/
theorem length_tour_modify (leg : P → P → α) {previous : Option P} {day : List (Stretch P)}
    (h : Linked previous day) {i k : Nat} (hi : i < day.length)
    (hk : k ≤ day[i].members.length) (x : P) :
    length leg (tour (day.modify i (·.insert k x))) = length leg (tour day) +
      (length leg (day[i].insert k x).path - length leg day[i].path) := by
  have hnext : Linked previous (day.modify i (·.insert k x)) :=
    h.of_ends (modify_insert day x hi hk).1
  rw [hnext.length_tour leg, h.length_tour leg]
  exact sum_modify (fun s => length leg s.path) _ hi

end

section

variable [Zero α] [Add α] [Sub α] [LT α] [DecidableLT α] [BEq α]

/-- The cheapest way to put a stop into a day: the detour, the stretch, and the position among its
members. -/
def cheapestPlace (leg : P → P → α) (slack : α) (day : List (Stretch P)) (stop : P) :
    Option (α × Nat × Nat) :=
  cheapest slack (day.zipIdx.filterMap fun (s, i) =>
    (s.cheapestPosition leg slack stop).map fun (cost, position) => (cost, (i, position)))

theorem insertStop_eq {leg : P → P → α} {slack : α} {day : List (Stretch P)} {stop : P}
    {cost : α} {i k : Nat} (h : cheapestPlace leg slack day stop = some (cost, i, k)) :
    insertStop leg slack day stop = day.modify i (·.insert k stop) := by
  rw [cheapestPlace] at h
  rw [insertStop, h]
  rfl

/-- The detour that is recorded when a stop is put into a day. -/
def recordedDetour (leg : P → P → α) (slack : α) (day : List (Stretch P)) (stop : P) : α :=
  (cheapestPlace leg slack day stop).elim 0 (·.1)

/-- The detours that are recorded when stops are put into a day one after the other. -/
def recordedDetours (leg : P → P → α) (slack : α) : List (Stretch P) → List P → List α
  | _, [] => []
  | day, stop :: rest =>
      recordedDetour leg slack day stop ::
        recordedDetours leg slack (insertStop leg slack day stop) rest

end

section

variable [AddCommGroup α] [LinearOrder α]

/-- A stop is put into a day at a position among the members of one of its stretches. The recorded detour
is what the tour gets longer by, and at most twice the slack more than at any gap of the tour. -/
structure InsertedGreedily (leg : P → P → α) (slack : α) (day : List (Stretch P)) (stop : P)
    (cost : α) (day' : List (Stretch P)) : Prop where
  position : ∃ i k, ∃ hi : i < day.length, k ≤ day[i].members.length ∧
    day' = day.modify i (·.insert k stop)
  gap : ∃ p ≤ (tour day).length, tour day' = (tour day).insertIdx p stop
  accounted : length leg (tour day') - length leg (tour day) = cost
  least : ∀ p ≤ (tour day).length,
    cost ≤ length leg ((tour day).insertIdx p stop) - length leg (tour day) + (slack + slack)

variable [IsOrderedAddMonoid α] [BEq α] [LawfulBEq α]
variable (leg : P → P → α) {slack : α} (hslack : 0 ≤ slack) {day : List (Stretch P)}
include hslack

/-- Every stretch of a day is a candidate with the cheapest of its positions. -/
theorem exists_candidate (stop : P) {i : Nat} (hi : i < day.length) :
    ∃ cost k, (cost, i, k) ∈ (day.zipIdx.filterMap fun (s, i) =>
        (s.cheapestPosition leg slack stop).map fun (cost, position) => (cost, (i, position))) ∧
      ∀ l ≤ day[i].members.length,
        length leg day[i].path + cost ≤ length leg (day[i].insert l stop).path + slack := by
  obtain ⟨cost, k, hcheapest, _, _, hleast⟩ :=
    Stretch.exists_cheapestPosition leg hslack day[i] stop
  have hmem : (day[i], i) ∈ day.zipIdx :=
    List.mem_zipIdx_iff_getElem?.mpr (List.getElem?_eq_getElem hi)
  refine ⟨cost, k, List.mem_filterMap.mpr ⟨(day[i], i), hmem, ?_⟩, hleast⟩
  exact Option.map_eq_some_iff.mpr ⟨(cost, k), hcheapest, rfl⟩

/-- There is a cheapest way to put a stop into a day. It costs what its stretch gets longer by, and at most
twice the slack more than any other way. -/
theorem exists_cheapestPlace (hday : day ≠ []) (stop : P) :
    ∃ cost i k, ∃ hi : i < day.length, cheapestPlace leg slack day stop = some (cost, i, k) ∧
      k ≤ day[i].members.length ∧
      length leg (day[i].insert k stop).path - length leg day[i].path = cost ∧
      ∀ j l, ∀ hj : j < day.length, l ≤ day[j].members.length →
        cost ≤ length leg (day[j].insert l stop).path - length leg day[j].path +
          (slack + slack) := by
  obtain ⟨_, _, hsome, _⟩ :=
    exists_candidate leg hslack stop (List.length_pos_iff.mpr hday)
  obtain ⟨best, hbest, hleast⟩ := exists_cheapest hslack (List.ne_nil_of_mem hsome)
  obtain ⟨⟨s, i⟩, hs, hposition⟩ := List.mem_filterMap.mp (mem_of_cheapest hbest)
  obtain ⟨⟨cost, k⟩, hcheapest, rfl⟩ := Option.map_eq_some_iff.mp hposition
  obtain ⟨hi, hget⟩ : ∃ hi : i < day.length, day[i] = s :=
    List.getElem?_eq_some_iff.mp (List.mem_zipIdx_iff_getElem?.mp hs)
  subst hget
  obtain ⟨_, _, hcheapest', hk, hlonger, _⟩ :=
    Stretch.exists_cheapestPosition leg hslack day[i] stop
  obtain ⟨rfl, rfl⟩ := Prod.mk.inj (Option.some.inj (hcheapest'.symm.trans hcheapest))
  refine ⟨_, i, _, hi, hbest, hk, sub_eq_of_eq_add' hlonger, ?_⟩
  intro j l hj hl
  obtain ⟨cost', k', hcandidate, hwithin⟩ := exists_candidate leg hslack stop hj
  -- The slack counts twice: once among the positions of a stretch, once among the stretches.
  rw [← add_assoc]
  refine (hleast _ hcandidate).trans (add_le_add_left ?_ slack)
  rw [sub_add_eq_add_sub]
  exact le_sub_iff_add_le'.mpr (hwithin l hl)

/-- A stop is put into a day greedily. -/
theorem insertStop_greedily (h : Linked none day) (stop : P) :
    InsertedGreedily leg slack day stop (recordedDetour leg slack day stop)
      (insertStop leg slack day stop) := by
  obtain ⟨cost, i, k, hi, hplace, hk, hcost, hleast⟩ :=
    exists_cheapestPlace leg hslack h.ne_nil stop
  rw [recordedDetour, insertStop_eq hplace, hplace]
  refine ⟨⟨i, k, hi, hk, rfl⟩, exists_tour_modify hi hk stop, ?_, ?_⟩
  · rw [length_tour_modify leg h hi hk, add_sub_cancel_left, hcost]
    rfl
  · intro p hp
    obtain ⟨j, l, hj, hl, hgap⟩ := h.exists_gap (Nat.zero_le p) hp stop
    rw [← hgap, length_tour_modify leg h hj hl, add_sub_cancel_left]
    exact hleast j l hj hl

/-- The recorded detours add up to what the tour gets longer by. -/
theorem length_tour_foldl_insertStop (h : Linked none day) (stops : List P) :
    length leg (tour (stops.foldl (insertStop leg slack) day)) =
      length leg (tour day) + (recordedDetours leg slack day stops).sum := by
  induction stops generalizing day with
  | nil => exact (add_zero _).symm
  | cons stop rest ih =>
      have hnext : Linked none (insertStop leg slack day stop) :=
        h.of_ends (insertStop_keeps leg slack h.ne_nil stop).1
      have hlonger := (insertStop_greedily leg hslack h stop).accounted
      rw [List.foldl_cons, ih hnext, recordedDetours, List.sum_cons, ← add_assoc, ← hlonger,
        add_sub_cancel]

end

/-! ## Days with all their stops -/

section

variable [AddCommGroup α] [LinearOrder α] [BEq α]

theorem linked_stretchesWith (r : Router P α) (anchors flexible : List P) :
    Linked none (stretchesWith r anchors flexible) :=
  (linked_stretchesBetween none anchors).of_ends
    (foldl_insertStop_keeps r.leg r.slack (stretchesBetween_ne_nil none anchors) flexible).1

theorem stretchesWith_concat (r : Router P α) (anchors flexible : List P) (stop : P) :
    stretchesWith r anchors (flexible ++ [stop]) =
      insertStop r.leg r.slack (stretchesWith r anchors flexible) stop :=
  List.foldl_concat _ _ _ _

theorem length_tour_stretchesWith [IsOrderedAddMonoid α] [LawfulBEq α] {r : Router P α}
    (hslack : 0 ≤ r.slack) (anchors flexible : List P) :
    length r.leg (tour (stretchesWith r anchors flexible)) = length r.leg anchors +
      (recordedDetours r.leg r.slack (stretchesBetween none anchors) flexible).sum := by
  rw [stretchesWith,
    length_tour_foldl_insertStop r.leg hslack (linked_stretchesBetween none anchors),
    tour_stretchesBetween]
  rfl

end

/-! ## Arranging the stretches -/

section

variable [AddCommGroup α] [LinearOrder α]

/-- A stretch has an order of its members between its ends that makes its path no longer. -/
def Router.ShortensStretch (r : Router P α) (s : Stretch P) : Prop :=
  ∃ inner, stretchOrder r s = .ok inner ∧
    length r.leg (Stretch.path { s with members := inner }) ≤ length r.leg s.path

/-- Stretches that are each made no longer are no longer together, and keep their ends. -/
theorem exists_arranged [IsOrderedAddMonoid α] {r : Router P α} {day : List (Stretch P)}
    (hshortens : ∀ s ∈ day, r.ShortensStretch s) :
    ∃ day' : List (Stretch P), day'.map ends = day.map ends ∧
      (day.mapM fun s => do return s.start.toList ++ (← stretchOrder r s)) =
        .ok (day'.map fun s => s.start.toList ++ s.members) ∧
      (day'.map fun s => length r.leg s.path).sum ≤ (day.map fun s => length r.leg s.path).sum := by
  induction day with
  | nil => exact ⟨[], rfl, rfl, le_rfl⟩
  | cons s rest ih =>
      obtain ⟨hs, hrest⟩ := List.forall_mem_cons.mp hshortens
      obtain ⟨inner, hinner, hle⟩ := hs
      obtain ⟨rest', hends, hparts, hsum⟩ := ih hrest
      refine ⟨{ s with members := inner } :: rest', ?_, ?_, ?_⟩
      · rw [List.map_cons, List.map_cons, hends]
        rfl
      · rw [List.map_cons, Result.mapM_eq_ok]
        exact .cons (Result.bind_eq_ok.mpr ⟨inner, hinner, rfl⟩) (Result.mapM_eq_ok.mp hparts)
      · rw [List.map_cons, List.map_cons, List.sum_cons, List.sum_cons]
        exact add_le_add hle hsum

variable [IsOrderedAddMonoid α] [BEq α]

/-- Where every stretch is made no longer, the whole day is. -/
theorem exists_orderWithAnchors_le {r : Router P α} (hshortens : ∀ s, r.ShortensStretch s)
    (anchors flexible : List P) :
    ∃ ordered, orderWithAnchors r anchors flexible = .ok ordered ∧
      length r.leg ordered ≤ length r.leg (tour (stretchesWith r anchors flexible)) := by
  obtain ⟨day', hends, hparts, hsum⟩ :=
    exists_arranged fun s (_ : s ∈ stretchesWith r anchors flexible) => hshortens s
  have hlinked := linked_stretchesWith r anchors flexible
  refine ⟨tour day', Result.bind_eq_ok.mpr ⟨_, hparts, rfl⟩, ?_⟩
  rwa [(hlinked.of_ends hends).length_tour r.leg, hlinked.length_tour r.leg]

variable [Mul α] [IntCast α] {r : Router P α} {t : Terrain P α}

/-- The two strategies by reversals keep the ends of a stretch and make it no longer. -/
theorem Router.shortensStretch_of_optimize {strategy : Strategy} {maxPasses : Int}
    (hleg : r.leg = t.leg)
    (harrange : ∀ pins path, r.arrange pins path = Route.optimize t strategy pins maxPasses path)
    (hstrategy : strategy = .distance ∨ strategy = .inputOrder)
    (hsymm : ∀ a b, t.leg a b = t.leg b a) (hslack : 0 ≤ t.slack) (s : Stretch P) :
    r.ShortensStretch s := by
  obtain ⟨ordered, hordered, hle⟩ :=
    exists_optimize_le hstrategy hsymm hslack s.pins maxPasses s.path
  obtain ⟨inner, _, rfl⟩ :=
    optimize_reversals_rearranged (pinned_stretch s) hstrategy hordered
  refine ⟨inner, Result.bind_eq_ok.mpr ⟨_, (harrange _ _).trans hordered, ?_⟩, hleg ▸ hle⟩
  rw [Result.pure_eq_ok]
  cases hs : s.start <;> cases hf : s.finish <;> simp

/-- Every flexible stop of a day with fixed stops is put greedily into the tour of the fixed stops and the
stops before it. By the strategies of reversals the day has an order that is no longer than the fixed
stops by themselves and the recorded detours. -/
theorem orderWithAnchors_greedy [LawfulBEq α] (hslack : 0 ≤ r.slack) (anchors flexible : List P) :
    (∀ before stop after, flexible = before ++ stop :: after →
      InsertedGreedily r.leg r.slack (stretchesWith r anchors before) stop
        (recordedDetour r.leg r.slack (stretchesWith r anchors before) stop)
        (stretchesWith r anchors (before ++ [stop]))) ∧
      ∀ (t : Terrain P α) (strategy : Strategy) (maxPasses : Int), r.leg = t.leg →
        (∀ pins path, r.arrange pins path = Route.optimize t strategy pins maxPasses path) →
        (strategy = .distance ∨ strategy = .inputOrder) →
        (∀ a b, t.leg a b = t.leg b a) → 0 ≤ t.slack →
        ∃ ordered, orderWithAnchors r anchors flexible = .ok ordered ∧
          length r.leg ordered ≤ length r.leg anchors +
            (recordedDetours r.leg r.slack (stretchesBetween none anchors) flexible).sum := by
  constructor
  · intro before stop _ _
    rw [stretchesWith_concat]
    exact insertStop_greedily r.leg hslack (linked_stretchesWith r anchors before) stop
  · intro t strategy maxPasses hleg harrange hstrategy hsymm hslack'
    rw [← length_tour_stretchesWith hslack]
    exact exists_orderWithAnchors_le
      (r.shortensStretch_of_optimize hleg harrange hstrategy hsymm hslack') anchors flexible

end

/-- Two fixed stops on a line, and three others: one behind them, one between them and one before. -/
theorem orderWithAnchors_greedy_line :
    let t : Terrain ℚ ℚ :=
      { leg := fun a b => |a - b|
        slack := 1 / 1000000000
        same := fun a b => a == b
        walkable := fun _ _ => false
        block := fun _ => .ok .morning
        minutes := fun km => .ok ⌈km⌉
        congestion := fun _ => 1
        congestedAbove := 1
        rating := fun _ => none
        keyWeight := fun _ => 0
        sameCategory := fun _ _ => true
        lengthWeight := 1
        timeWeight := 1
        preferenceWeight := 1
        switchCost := 1 }
    let r : Router ℚ ℚ :=
      { leg := t.leg
        slack := t.slack
        position := fun x => some ⟨x, 0⟩
        gap := fun a b => |a.lat - b.lat|
        cluster := fun _ _ => .error .wrongKind
        arrange := fun pins path => Route.optimize t .distance pins 10 path
        stopsPerCluster := .int 5 }
    0 ≤ r.slack ∧
      InsertedGreedily r.leg r.slack (stretchesWith r [3, 13] [15]) 7
        (recordedDetour r.leg r.slack (stretchesWith r [3, 13] [15]) 7)
        (stretchesWith r [3, 13] [15, 7]) ∧
      ∃ ordered, orderWithAnchors r [3, 13] [15, 7, 0] = .ok ordered ∧
        length r.leg ordered ≤ 15 := by
  intro t r
  have hslack : 0 ≤ r.slack := by norm_num [r, t]
  obtain ⟨hgreedy, hshorter⟩ := orderWithAnchors_greedy hslack [3, 13] [15, 7, 0]
  obtain ⟨ordered, hordered, hle⟩ := hshorter t .distance 10 rfl (fun _ _ => rfl) (.inl rfl)
    abs_sub_comm hslack
  have hlength : length r.leg [3, 13] +
      (recordedDetours r.leg r.slack (stretchesBetween none [3, 13]) [15, 7, 0]).sum = 15 := by
    decide +kernel
  exact ⟨hslack, hgreedy [15] 7 [0] rfl, ordered, hordered, hlength ▸ hle⟩

end Wayfare.Plan
