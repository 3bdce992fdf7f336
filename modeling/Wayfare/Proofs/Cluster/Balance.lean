import Mathlib.Data.List.Infix
import Mathlib.Data.Nat.Basic
import Wayfare.Cluster.KMeans
import Wayfare.Proofs.Choice

/-! # Sharing out among days

Groups are put one after the other on the day with the fewest stops. The days
only grow, a group stays together, and no two days differ by more than the
largest group, for the day that grows was the lightest.
-/

namespace Wayfare.Cluster

variable {P : Type} {bound : Nat} {days : List (List P)}

/-- No day has more stops than another and `bound`. -/
def Balanced (bound : Nat) (days : List (List P)) : Prop :=
  ∀ d ∈ days, ∀ e ∈ days, d.length ≤ e.length + bound

/-- Something is put at the end of one day, which is as light as any. -/
theorem ontoLightest_eq (h : days ≠ []) (members : List P) :
    ∃ before day after, days = before ++ day :: after ∧
      ontoLightest days members = before ++ (day ++ members) :: after ∧
      ∀ d ∈ days, day.length ≤ d.length := by
  rw [ontoLightest]
  split
  next hnone => exact absurd (List.zipIdx_eq_nil_iff.mp hnone) h
  next first rest hsome =>
    let lightest := (Choice.least (fun q : List P × Nat => q.1.length) first rest).best
    have hmem : lightest ∈ days.zipIdx := hsome ▸ Choice.best_mem _ first rest
    have hleast : ∀ q ∈ days.zipIdx, lightest.1.length ≤ q.1.length :=
      hsome ▸ Choice.best_least_le (fun q : List P × Nat => q.1.length) first rest
    have hget : days[lightest.2]? = some lightest.1 := by
      simpa using List.mk_mem_zipIdx_iff_getElem?.mp hmem
    obtain ⟨hlt, hday⟩ := List.getElem?_eq_some_iff.mp hget
    refine ⟨days.take lightest.2, lightest.1, days.drop (lightest.2 + 1), ?_, ?_, ?_⟩
    · rw [← hday, List.getElem_cons_drop, List.take_append_drop]
    · rw [List.modify_eq_take_cons_drop hlt, hday]
    · intro d hd
      obtain ⟨i, hi⟩ := List.mem_iff_getElem?.mp hd
      exact hleast (d, i) (List.mk_mem_zipIdx_iff_getElem?.mpr hi)

/-- How days grow when groups of at most `bound` stops are put on them. -/
structure Grown (bound : Nat) (groups : List (List P)) (before after : List (List P)) : Prop where
  length : after.length = before.length
  continued : ∀ day ∈ before, ∃ later ∈ after, day <+: later
  stops : after.flatten.Perm (before.flatten ++ groups.flatten)
  together : ∀ g ∈ groups, ∃ day ∈ after, g <:+: day
  balanced : Balanced bound before → Balanced bound after

namespace Grown

variable {groups more : List (List P)} {before middle after : List (List P)}

theorem refl (days : List (List P)) : Grown bound [] days days where
  length := rfl
  continued day hday := ⟨day, hday, List.prefix_refl day⟩
  stops := by rw [List.flatten_nil, List.append_nil]
  together := List.forall_mem_nil _
  balanced := id

theorem trans (h : Grown bound groups before middle) (h' : Grown bound more middle after) :
    Grown bound (groups ++ more) before after where
  length := h'.length.trans h.length
  continued day hday := by
    obtain ⟨next, hnext, hprefix⟩ := h.continued day hday
    obtain ⟨later, hlater, hprefix'⟩ := h'.continued next hnext
    exact ⟨later, hlater, hprefix.trans hprefix'⟩
  stops := by
    rw [List.flatten_append, ← List.append_assoc]
    exact h'.stops.trans (h.stops.append_right _)
  together g hg := by
    rcases List.mem_append.mp hg with hg | hg
    · obtain ⟨day, hday, hpart⟩ := h.together g hg
      obtain ⟨later, hlater, hprefix⟩ := h'.continued day hday
      exact ⟨later, hlater, hpart.trans hprefix.isInfix⟩
    · exact h'.together g hg
  balanced hbefore := h'.balanced (h.balanced hbefore)

/-- A group that is put on the lightest day. -/
theorem ontoLightest (h : days ≠ []) {members : List P} (hbound : members.length ≤ bound) :
    Grown bound [members] days (ontoLightest days members) := by
  obtain ⟨before, day, after, rfl, hnext, hleast⟩ := ontoLightest_eq h members
  rw [hnext]
  constructor
  case length => simp only [List.length_append, List.length_cons]
  case continued =>
    intro d hd
    rcases List.mem_append.mp hd with hd | hd
    · exact ⟨d, List.mem_append_left _ hd, List.prefix_refl d⟩
    · rcases List.mem_cons.mp hd with rfl | hd
      · exact ⟨_, List.mem_append_right _ List.mem_cons_self, List.prefix_append d members⟩
      · exact ⟨d, List.mem_append_right _ (List.mem_cons_of_mem _ hd), List.prefix_refl d⟩
  case stops =>
    simp only [List.flatten_append, List.flatten_cons, List.flatten_nil, List.append_nil,
      List.append_assoc]
    exact (List.perm_append_comm.append_left day).append_left before.flatten
  case together =>
    refine List.forall_mem_singleton.mpr ⟨day ++ members, ?_, ?_⟩
    · exact List.mem_append_right _ List.mem_cons_self
    · exact (List.suffix_append day members).isInfix
  case balanced =>
    intro hbalanced d hd e he
    -- The day that grows was no longer than any other, and it grows by no more than the bound.
    have hold : ∀ x ∈ before ++ (day ++ members) :: after,
        x = day ++ members ∨ x ∈ before ++ day :: after := by
      intro x hx
      rcases List.mem_append.mp hx with hx | hx
      · exact .inr (List.mem_append_left _ hx)
      · rcases List.mem_cons.mp hx with rfl | hx
        · exact .inl rfl
        · exact .inr (List.mem_append_right _ (List.mem_cons_of_mem _ hx))
    have hday : day ∈ before ++ day :: after := List.mem_append_right _ List.mem_cons_self
    rcases hold d hd with rfl | hd <;> rcases hold e he with rfl | he
    · exact Nat.le_add_right _ _
    · have := hleast e he
      rw [List.length_append]
      omega
    · have := hbalanced d hd day hday
      rw [List.length_append]
      omega
    · exact hbalanced d hd e he

/-- Groups that are put on the lightest day one after the other. -/
theorem foldl_ontoLightest (h : days ≠ []) (hbound : ∀ g ∈ groups, g.length ≤ bound) :
    Grown bound groups days (groups.foldl Cluster.ontoLightest days) := by
  induction groups generalizing days with
  | nil => exact .refl days
  | cons g rest ih =>
      obtain ⟨hg, hrest⟩ := List.forall_mem_cons.mp hbound
      have hfirst := Grown.ontoLightest h hg
      have hnext : Cluster.ontoLightest days g ≠ [] := by
        rw [← List.length_pos_iff, hfirst.length]
        exact List.length_pos_iff.mpr h
      exact hfirst.trans (ih hnext hrest)

/-- The order in which groups are put on days does not matter for what has become of them. -/
theorem perm (h : Grown bound groups before after) (hperm : groups.Perm more) :
    Grown bound more before after where
  length := h.length
  continued := h.continued
  stops := h.stops.trans (hperm.flatten.append_left _)
  together g hg := h.together g (hperm.mem_iff.mpr hg)
  balanced := h.balanced

end Grown

/-- Groups that are shared out have grown from empty days. -/
theorem grown_shareOut (numDays : Nat) {groups : List (List P)}
    (hbound : ∀ g ∈ groups, g.length ≤ bound) :
    Grown bound groups (List.replicate (max 1 numDays) []) (shareOut numDays groups) := by
  have hsorted := List.mergeSort_perm groups fun a b => decide (b.length ≤ a.length)
  have hdays : List.replicate (max 1 numDays) ([] : List P) ≠ [] := by
    rw [← List.length_pos_iff, List.length_replicate]
    omega
  exact (Grown.foldl_ontoLightest hdays fun g hg => hbound g (hsorted.mem_iff.mp hg)).perm hsorted

end Wayfare.Cluster
