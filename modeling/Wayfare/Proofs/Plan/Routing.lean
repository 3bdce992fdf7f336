import Wayfare.Plan.Router
import Wayfare.Proofs.Cluster.Partition

/-! # What the routing of a day keeps

However the flexible stops of a day are grouped and put in order, the day's
route has all of them and all fixed stops, each once, and the fixed stops stand
in it in their given order.
-/

namespace Wayfare.Plan

open Wayfare.Cluster Wayfare.Route

variable {P α : Type}

/-- Nothing gets lost in the parts of a router: its clusters are a partition of the flexible stops, and
its arrangement of any of them keeps the ends that are pinned. -/
structure Router.Faithful (r : Router P α) (flexible : List P) : Prop where
  cluster : ∀ k a, r.cluster flexible k = .ok a → a.Partitions flexible
  arrange : ∀ pins head middle tail ordered, Pinned pins head tail → middle.Subperm flexible →
    r.arrange pins (head ++ middle ++ tail) = .ok ordered → Rearranged head tail middle ordered

/-- The parts of a router have an outcome on a day: it can group the flexible stops if these are too
many, and arrange any stops of the day. -/
structure Router.Answers (r : Router P α) (anchors flexible : List P) : Prop where
  cluster : Number.int (Int.ofNat flexible.length) ≤ atLeast (.int 1) r.stopsPerCluster ∨
    ∀ k, ∃ a, r.cluster flexible k = .ok a
  arrange : ∀ pins path, (∀ p ∈ path, p ∈ anchors ∨ p ∈ flexible) →
    ∃ ordered, r.arrange pins path = .ok ordered

/-! ## Cluster by cluster -/

section

variable [LT α] [DecidableLT α]

theorem groupsInOrder_perm (gap : Point α → Point α → α) (start : Option (Point α))
    (groups : List (Group P α)) : (groupsInOrder gap start groups).Perm groups := by
  cases groups with
  | nil => cases start <;> rfl
  | cons first rest =>
      cases start with
      | none => exact walkFrom_perm _ _ _
      | some from_ => exact walkFrom_perm _ _ _

theorem walkGroups_perm (leg : P → P → α) (entry : Option P) (groups : List (Group P α)) :
    (walkGroups leg entry groups).Perm (groups.flatMap (·.members)) := by
  induction groups generalizing entry with
  | nil => rfl
  | cons g rest ih =>
      simp only [walkGroups, List.flatMap_cons]
      refine List.Perm.append ?_ (ih _)
      cases entry with
      | none => exact walk_perm leg g.members
      | some e => exact walkFrom_perm leg e g.members

variable {r : Router P α} {anchors flexible : List P}

theorem orderByClusters_perm (hfaithful : r.Faithful flexible) {start : Option P}
    {ordered : List P} (h : orderByClusters r flexible start = .ok ordered) :
    ordered.Perm flexible := by
  simp only [orderByClusters] at h
  split at h
  next =>
    rw [Result.pure_eq_ok] at h
    rw [h]
  next =>
    obtain ⟨a, ha, h⟩ := Result.bind_eq_ok.mp h
    rw [Result.pure_eq_ok] at h
    subst h
    refine List.Perm.trans (List.Perm.append_right _ ?_) (hfaithful.cluster _ _ ha)
    refine (walkGroups_perm r.leg start _).trans ?_
    exact (groupsInOrder_perm r.gap _ a.groups).flatMap_right _

theorem exists_orderByClusters (hanswers : r.Answers anchors flexible) (start : Option P) :
    ∃ ordered, orderByClusters r flexible start = .ok ordered := by
  simp only [orderByClusters]
  split
  next => exact ⟨_, rfl⟩
  next hmany =>
    have hcluster := hanswers.cluster.resolve_left hmany
    exact Result.exists_bind_eq_ok (hcluster _) fun a _ => ⟨_, rfl⟩

end

/-! ## Stretches -/

def ends (s : Stretch P) : Option P × Option P :=
  (s.start, s.finish)

theorem pinned_stretch (s : Stretch P) : Pinned s.pins s.start.toList s.finish.toList := by
  constructor
  · cases hs : s.start <;> simp [Stretch.pins, hs]
  · cases hf : s.finish <;> simp [Stretch.pins, hf]

/-- A stretch in order has its members and nothing else. -/
theorem stretchOrder_perm (hfaithful : r.Faithful flexible) {s : Stretch P}
    (hmembers : s.members.Subperm flexible) {inner : List P}
    (h : stretchOrder r s = .ok inner) : inner.Perm s.members := by
  obtain ⟨ordered, hordered, h⟩ := Result.bind_eq_ok.mp h
  rw [Result.pure_eq_ok] at h
  obtain ⟨between, hbetween, rfl⟩ :=
    hfaithful.arrange _ _ _ _ _ (pinned_stretch s) hmembers hordered
  -- The arranged path has the ends of the stretch around its members, and they are dropped again.
  cases hs : s.start with
  | none =>
      cases hf : s.finish with
      | none => simpa [hs, hf, ← h] using hbetween
      | some z => simpa [hs, hf, ← h] using hbetween
  | some a =>
      cases hf : s.finish with
      | none => simpa [hs, hf, ← h] using hbetween
      | some z => simpa [hs, hf, ← h] using hbetween

section

variable [Zero α] [Add α] [Sub α] [LT α] [DecidableLT α] [BEq α]

theorem cheapestPosition_le {leg : P → P → α} {slack : α} {s : Stretch P} {stop : P}
    {best : α × Nat} (h : s.cheapestPosition leg slack stop = some best) :
    best.2 ≤ s.members.length := by
  obtain ⟨i, hi, rfl⟩ := List.mem_map.mp (mem_of_cheapest h)
  simp only [Stretch.positions, Stretch.path, List.mem_range'_1, List.length_append] at hi ⊢
  cases hs : s.start <;> cases hf : s.finish <;> simp [hs, hf] at hi ⊢ <;> omega

theorem modify_insert (day : List (Stretch P)) {i position : Nat} (stop : P) (hi : i < day.length)
    (hposition : position ≤ day[i].members.length) :
    (day.modify i (·.insert position stop)).map ends = day.map ends ∧
      ((day.modify i (·.insert position stop)).flatMap (·.members)).Perm
        (day.flatMap (·.members) ++ [stop]) := by
  obtain ⟨before, s, after, rfl, rfl, hmodify⟩ := List.exists_of_modify (·.insert position stop) hi
  rw [hmodify]
  refine ⟨by simp [ends, Stretch.insert], ?_⟩
  have hs : (before ++ s :: after)[before.length] = s := by simp
  rw [hs] at hposition
  have hmembers : (s.insert position stop).members.Perm (s.members ++ [stop]) :=
    (List.perm_insertIdx stop s.members hposition).trans (List.perm_append_singleton _ _).symm
  simp only [List.flatMap_append, List.flatMap_cons]
  rw [List.append_assoc, List.append_assoc]
  refine ((hmembers.append_right _).trans ?_).append_left _
  rw [List.append_assoc]
  exact List.perm_append_comm.append_left _

/-- One stop more goes to the members of some stretch; the fixed ends of all stay. -/
theorem insertStop_keeps (leg : P → P → α) (slack : α) {day : List (Stretch P)} (hday : day ≠ [])
    (stop : P) :
    (insertStop leg slack day stop).map ends = day.map ends ∧
      ((insertStop leg slack day stop).flatMap (·.members)).Perm
        (day.flatMap (·.members) ++ [stop]) := by
  simp only [insertStop]
  cases hbest : cheapest slack _ with
  | none => exact modify_insert day stop (List.length_pos_iff.mpr hday) (Nat.zero_le _)
  | some best =>
      obtain ⟨⟨s, i⟩, hs, hposition⟩ := List.mem_filterMap.mp (mem_of_cheapest hbest)
      obtain ⟨⟨cost, position⟩, hcheapest, rfl⟩ := Option.map_eq_some_iff.mp hposition
      have hi : i < day.length := by simpa using List.snd_lt_of_mem_zipIdx hs
      have hget : day[i] = s := (List.mem_zipIdx' hs).2.symm
      have hle : position ≤ day[i].members.length := by
        rw [hget]
        exact cheapestPosition_le hcheapest
      exact modify_insert day stop hi hle

theorem foldl_insertStop_keeps (leg : P → P → α) (slack : α) {day : List (Stretch P)}
    (hday : day ≠ []) (stops : List P) :
    (stops.foldl (insertStop leg slack) day).map ends = day.map ends ∧
      ((stops.foldl (insertStop leg slack) day).flatMap (·.members)).Perm
        (day.flatMap (·.members) ++ stops) := by
  -- The ends of the stretches stay, so there always is a stretch for the next stop.
  induction stops generalizing day with
  | nil => exact ⟨rfl, by rw [List.append_nil]; rfl⟩
  | cons stop stops ih =>
      obtain ⟨hends, hmembers⟩ := insertStop_keeps leg slack hday stop
      have hnext : insertStop leg slack day stop ≠ [] := by
        intro hnone
        rw [hnone, List.map_nil] at hends
        exact hday (List.map_eq_nil_iff.mp hends.symm)
      obtain ⟨hends', hmembers'⟩ := ih hnext
      refine ⟨hends'.trans hends, hmembers'.trans ?_⟩
      refine (hmembers.append_right stops).trans ?_
      rw [List.append_assoc]
      rfl

end

theorem stretchesBetween_ne_nil (previous : Option P) (anchors : List P) :
    stretchesBetween previous anchors ≠ [] := by
  cases anchors <;> simp [stretchesBetween]

theorem members_stretchesBetween (previous : Option P) (anchors : List P) :
    (stretchesBetween previous anchors).flatMap (·.members) = [] := by
  induction anchors generalizing previous with
  | nil => rfl
  | cons a rest ih => exact ih (some a)

/-- The stretches of a day begin at its fixed stops, one after the other. -/
theorem starts_stretchesBetween (previous : Option P) (anchors : List P) :
    ((stretchesBetween previous anchors).map ends).flatMap (·.1.toList) =
      previous.toList ++ anchors := by
  induction anchors generalizing previous with
  | nil => simp [stretchesBetween, ends]
  | cons a rest ih =>
      rw [stretchesBetween, List.map_cons, List.flatMap_cons, ih]
      rfl

theorem arrange_perm {r : Router P α} {flexible path ordered : List P}
    (hfaithful : r.Faithful flexible)
    (hpath : path.Perm flexible)
    (h : r.arrange {} path = .ok ordered) : ordered.Perm flexible := by
  have hopen : Pinned {} ([] : List P) [] := ⟨rfl, rfl⟩
  have hpath' : path = [] ++ path ++ [] := by simp
  rw [hpath'] at h
  have hkept := hfaithful.arrange _ _ _ _ _ hopen hpath.subperm h
  exact hkept.perm.trans (by simpa using hpath)

section

variable [Zero α] [Add α] [Sub α] [LT α] [DecidableLT α] [BEq α]
variable {r : Router P α} {anchors flexible clustered ordered : List P}

theorem stretchesWith_keeps (r : Router P α) (anchors clustered : List P) :
    (stretchesWith r anchors clustered).flatMap (·.start.toList) = anchors ∧
      ((stretchesWith r anchors clustered).flatMap (·.members)).Perm clustered := by
  obtain ⟨hends, hmembers⟩ := foldl_insertStop_keeps r.leg r.slack
    (stretchesBetween_ne_nil none anchors) clustered
  constructor
  · have hstarts := congrArg (List.flatMap (·.1.toList)) hends
    rwa [starts_stretchesBetween, List.flatMap_map] at hstarts
  · rwa [members_stretchesBetween, List.nil_append] at hmembers

/-- Parts that each begin at a fixed stop and go on with the members of a stretch. -/
theorem flatten_parts {day : List (Stretch P)} {parts : List (List P)}
    (h : List.Forall₂ (fun s part => ∃ inner, inner.Perm s.members ∧
      part = s.start.toList ++ inner) day parts) :
    parts.flatten.Perm (day.flatMap (·.start.toList) ++ day.flatMap (·.members)) ∧
      (day.flatMap (·.start.toList)).Sublist parts.flatten := by
  induction h with
  | nil => exact ⟨.refl _, .refl _⟩
  | @cons s part day parts hhead _ ih =>
      obtain ⟨inner, hinner, rfl⟩ := hhead
      obtain ⟨hperm, hsub⟩ := ih
      simp only [List.flatten_cons, List.flatMap_cons]
      constructor
      · refine ((hinner.append_left _).append hperm).trans ?_
        rw [List.append_assoc, List.append_assoc]
        apply List.Perm.append_left
        rw [← List.append_assoc, ← List.append_assoc]
        exact List.perm_append_comm.append_right _
      · exact ((List.sublist_append_left _ inner)).append hsub

theorem orderWithAnchors_keeps (hfaithful : r.Faithful flexible)
    (hclustered : clustered.Perm flexible)
    (h : orderWithAnchors r anchors clustered = .ok ordered) :
    ordered.Perm (anchors ++ flexible) ∧ anchors.Sublist ordered := by
  obtain ⟨parts, hparts, h⟩ := Result.bind_eq_ok.mp h
  rw [Result.pure_eq_ok] at h
  subst h
  obtain ⟨hstarts, hmembers⟩ := stretchesWith_keeps r anchors clustered
  have hall := hmembers.trans hclustered
  have hforall : List.Forall₂ (fun s part => ∃ inner, inner.Perm s.members ∧
      part = s.start.toList ++ inner) (stretchesWith r anchors clustered) parts := by
    apply Result.forall₂_of_mapM hparts
    intro s hs part hpart
    obtain ⟨inner, hinner, hpart⟩ := Result.bind_eq_ok.mp hpart
    -- The router is trusted with flexible stops only, and a stretch has no other members.
    have hmember : s.members.Sublist ((stretchesWith r anchors clustered).flatMap (·.members)) := by
      rw [List.flatMap_def]
      exact List.sublist_flatten_of_mem (List.mem_map_of_mem hs)
    have hinner := stretchOrder_perm hfaithful (hmember.subperm.trans hall.subperm) hinner
    exact ⟨inner, hinner, (Result.pure_eq_ok.mp hpart).symm⟩
  obtain ⟨hperm, hsub⟩ := flatten_parts hforall
  rw [hstarts] at hperm hsub
  exact ⟨hperm.trans (hall.append_left _), hsub⟩

/-- The order of a day has all stops of the day, each once, and the fixed ones as they stood. -/
theorem orderDay_keeps (hfaithful : r.Faithful flexible)
    (h : orderDay r anchors flexible = .ok ordered) :
    ordered.Perm (anchors ++ flexible) ∧ anchors.Sublist ordered := by
  obtain ⟨clustered, hclustered, h⟩ := Result.bind_eq_ok.mp h
  have hperm := orderByClusters_perm hfaithful hclustered
  split at h
  next hnone =>
    rw [List.isEmpty_iff.mp hnone]
    refine ⟨?_, List.nil_sublist _⟩
    obtain ⟨improved, himproved, h⟩ := Result.bind_eq_ok.mp h
    split at h
    next => exact arrange_perm hfaithful (.refl _) h
    next =>
      rw [Result.pure_eq_ok] at h
      subst h
      exact arrange_perm hfaithful hperm himproved
  next => exact orderWithAnchors_keeps hfaithful hperm h

/-! ## Whether a day has an order -/

omit [Zero α] [Add α] [Sub α] [LT α] [DecidableLT α] [BEq α] in
theorem mem_anchors_of_ends {previous : Option P} {e : Option P × Option P}
    (he : e ∈ (stretchesBetween previous anchors).map ends) :
    (∀ p ∈ e.1, p ∈ previous ∨ p ∈ anchors) ∧ ∀ p ∈ e.2, p ∈ anchors := by
  -- A stretch begins where the one before it ended.
  induction anchors generalizing previous with
  | nil =>
      rw [stretchesBetween, List.map_singleton, List.mem_singleton] at he
      subst he
      exact ⟨fun p hp => .inl hp, fun p hp => by cases hp⟩
  | cons a rest ih =>
      rw [stretchesBetween, List.map_cons] at he
      rcases List.mem_cons.mp he with rfl | he
      · refine ⟨fun p hp => .inl hp, fun p hp => ?_⟩
        cases hp
        exact List.mem_cons_self
      · obtain ⟨hstart, hfinish⟩ := ih he
        refine ⟨fun p hp => .inr ?_, fun p hp => List.mem_cons_of_mem _ (hfinish p hp)⟩
        rcases hstart p hp with hprevious | hrest
        · cases hprevious
          exact List.mem_cons_self
        · exact List.mem_cons_of_mem _ hrest

/-- The path of a stretch leads past fixed stops and its members only. -/
theorem mem_of_mem_path {s : Stretch P} (hs : s ∈ stretchesWith r anchors clustered) {p : P}
    (hp : p ∈ s.path) : p ∈ anchors ∨ p ∈ clustered := by
  obtain ⟨hends, _⟩ := foldl_insertStop_keeps r.leg r.slack
    (stretchesBetween_ne_nil none anchors) clustered
  obtain ⟨_, hmembers⟩ := stretchesWith_keeps r anchors clustered
  have hs' : ends s ∈ (stretchesBetween none anchors).map ends := by
    rw [← hends]
    exact List.mem_map_of_mem hs
  obtain ⟨hstart, hfinish⟩ := mem_anchors_of_ends hs'
  rw [Stretch.path, List.mem_append, List.mem_append, Option.mem_toList, Option.mem_toList] at hp
  rcases hp with (hp | hp) | hp
  · rcases hstart p hp with hnone | hp
    · cases hnone
    · exact .inl hp
  · exact .inr (hmembers.mem_iff.mp (List.mem_flatMap.mpr ⟨s, hs, hp⟩))
  · exact .inl (hfinish p hp)

/-- If the parts of the router have an outcome on a day, the day has an order. -/
theorem exists_orderDay (hfaithful : r.Faithful flexible) (hanswers : r.Answers anchors flexible) :
    ∃ ordered, orderDay r anchors flexible = .ok ordered := by
  apply Result.exists_bind_eq_ok (exists_orderByClusters hanswers anchors.head?)
  intro clustered hclustered
  have hperm := orderByClusters_perm hfaithful hclustered
  split
  next =>
    apply Result.exists_bind_eq_ok (hanswers.arrange _ _ fun p hp => .inr (hperm.mem_iff.mp hp))
    intro improved _
    split
    next => exact hanswers.arrange _ _ fun p hp => .inr hp
    next => exact ⟨_, rfl⟩
  next =>
    refine Result.exists_bind_eq_ok ?_ fun parts _ => ⟨_, rfl⟩
    apply Result.exists_mapM_eq_ok
    intro s hs
    refine Result.exists_bind_eq_ok ?_ fun inner _ => ⟨_, rfl⟩
    refine Result.exists_bind_eq_ok ?_ fun ordered _ => ⟨_, rfl⟩
    apply hanswers.arrange
    intro p hp
    exact (mem_of_mem_path hs hp).imp_right hperm.mem_iff.mp

end

end Wayfare.Plan
