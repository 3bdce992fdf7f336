import Mathlib.Data.List.Forall2
import Wayfare.Fault

/-! # How a computation succeeds

A computation that can fail succeeds exactly when each of its parts does. These
laws take a success apart into those of its parts, and put it together again.
-/

namespace Wayfare.Result

variable {α β γ : Type}

theorem bind_eq_ok {x : Result α} {f : α → Result β} {b : β} :
    x >>= f = .ok b ↔ ∃ a, x = .ok a ∧ f a = .ok b := by
  cases x with
  | error fault => simp [bind, Except.bind]
  | ok a => simp [bind, Except.bind]

theorem ok_bind (a : α) (f : α → Result β) : Except.ok a >>= f = f a :=
  rfl

theorem error_bind (fault : Fault) (f : α → Result β) : Except.error fault >>= f = .error fault :=
  rfl

/-- A computation succeeds if its first part does, and the rest after whatever that gives. -/
theorem exists_bind_eq_ok {x : Result α} {f : α → Result β} (hx : ∃ a, x = .ok a)
    (hf : ∀ a, x = .ok a → ∃ b, f a = .ok b) : ∃ b, x >>= f = .ok b := by
  obtain ⟨a, ha⟩ := hx
  obtain ⟨b, hb⟩ := hf a ha
  exact ⟨b, bind_eq_ok.mpr ⟨a, ha, hb⟩⟩

theorem map_eq_ok {x : Result α} {f : α → β} {b : β} :
    f <$> x = .ok b ↔ ∃ a, x = .ok a ∧ f a = b := by
  cases x with
  | error fault => simp [Functor.map, Except.map]
  | ok a => simp [Functor.map, Except.map]

theorem pure_eq_ok {a b : α} : (pure a : Result α) = .ok b ↔ a = b := by
  simp [pure, Except.pure]

theorem throw_ne_ok {fault : Fault} {b : α} : (throw fault : Result α) ≠ .ok b := by
  simp [throw, throwThe, MonadExceptOf.throw]

/-- A guard lets a computation pass exactly when it does not refuse. -/
theorem guard_eq_ok {c : Prop} [Decidable c] {fault : Fault} {x : Result α} {a : α} :
    (if c then do throw fault; x else x) = .ok a ↔ ¬ c ∧ x = .ok a := by
  by_cases hc : c
  · simp [hc, throw, throwThe, MonadExceptOf.throw, bind, Except.bind]
  · simp [hc]

theorem ofOption_eq_ok {fault : Fault} {o : Option α} {a : α} :
    ofOption fault o = .ok a ↔ o = some a := by
  cases o with
  | none => simp [ofOption]
  | some b => simp [ofOption]

/-- A list of computations succeeds when all of them do, each with its own outcome. -/
theorem mapM_eq_ok {f : α → Result β} {xs : List α} {ys : List β} :
    xs.mapM f = .ok ys ↔ List.Forall₂ (fun x y => f x = .ok y) xs ys := by
  induction xs generalizing ys with
  | nil =>
      rw [List.mapM_nil, pure_eq_ok, List.forall₂_nil_left_iff]
      exact eq_comm
  | cons x xs ih =>
      rw [List.mapM_cons, bind_eq_ok, List.forall₂_cons_left_iff]
      constructor
      · rintro ⟨y, hy, hrest⟩
        obtain ⟨ys', hys', heq⟩ := bind_eq_ok.mp hrest
        exact ⟨y, ys', hy, ih.mp hys', (pure_eq_ok.mp heq).symm⟩
      · rintro ⟨y, ys', hy, hrest, rfl⟩
        exact ⟨y, hy, bind_eq_ok.mpr ⟨ys', ih.mpr hrest, rfl⟩⟩

/-- What holds of the outcome of each of some computations holds of all their outcomes. -/
theorem forall₂_of_mapM {f : α → Result β} {R : α → β → Prop} {xs : List α} {ys : List β}
    (h : xs.mapM f = .ok ys) (hR : ∀ x ∈ xs, ∀ y, f x = .ok y → R x y) :
    List.Forall₂ R xs ys := by
  have hall := mapM_eq_ok.mp h
  clear h
  induction hall with
  | nil => exact .nil
  | cons hhead _ ih =>
      obtain ⟨hfirst, hrest⟩ := List.forall_mem_cons.mp hR
      exact .cons (hfirst _ hhead) (ih hrest)

theorem map_eq_map_of_forall₂ {f : α → γ} {g : β → γ} {xs : List α} {ys : List β}
    (h : List.Forall₂ (fun x y => g y = f x) xs ys) : ys.map g = xs.map f := by
  induction h with
  | nil => rfl
  | cons hhead _ ih => rw [List.map_cons, List.map_cons, hhead, ih]

theorem exists_of_mem_forall₂ {R : α → β → Prop} {xs : List α} {ys : List β}
    (h : List.Forall₂ R xs ys) {y : β} (hy : y ∈ ys) : ∃ x ∈ xs, R x y := by
  induction h with
  | nil => exact absurd hy List.not_mem_nil
  | cons hhead _ ih =>
      rcases List.mem_cons.mp hy with rfl | hy
      · exact ⟨_, List.mem_cons_self, hhead⟩
      · obtain ⟨x, hx, hxy⟩ := ih hy
        exact ⟨x, List.mem_cons_of_mem _ hx, hxy⟩

theorem exists_getElem?_of_forall₂ {R : α → β → Prop} {xs : List α} {ys : List β}
    (h : List.Forall₂ R xs ys) {i : Nat} {x : α} (hx : xs[i]? = some x) :
    ∃ y, ys[i]? = some y ∧ R x y := by
  obtain ⟨hlength, hget⟩ := List.forall₂_iff_get.mp h
  obtain ⟨hi, rfl⟩ := List.getElem?_eq_some_iff.mp hx
  exact ⟨ys.get ⟨i, hlength ▸ hi⟩, List.getElem?_eq_getElem _, hget i hi _⟩

/-- Every outcome of a list of computations is that of one of them. -/
theorem exists_of_mem_mapM {f : α → Result β} {xs : List α} {ys : List β}
    (h : xs.mapM f = .ok ys) {y : β} (hy : y ∈ ys) : ∃ x ∈ xs, f x = .ok y :=
  exists_of_mem_forall₂ (mapM_eq_ok.mp h) hy

/-- Every one of a list of computations that succeeds has an outcome. -/
theorem exists_eq_ok_of_mapM {f : α → Result β} {xs : List α} {ys : List β}
    (h : xs.mapM f = .ok ys) {x : α} (hx : x ∈ xs) : ∃ y ∈ ys, f x = .ok y :=
  exists_of_mem_forall₂ (R := fun y x => f x = .ok y) (mapM_eq_ok.mp h).flip hx

theorem exists_mapM_eq_ok {f : α → Result β} {xs : List α}
    (h : ∀ x ∈ xs, ∃ y, f x = .ok y) : ∃ ys, xs.mapM f = .ok ys := by
  induction xs with
  | nil => exact ⟨[], rfl⟩
  | cons x xs ih =>
      obtain ⟨y, hy⟩ := h x List.mem_cons_self
      obtain ⟨ys, hys⟩ := ih fun x hx => h x (List.mem_cons_of_mem _ hx)
      exact ⟨y :: ys, mapM_eq_ok.mpr (.cons hy (mapM_eq_ok.mp hys))⟩

/-- What every step of a run keeps holds at its end. -/
theorem of_foldlM {f : β → α → Result β} {inv : β → Prop} {xs : List α} {start final : β}
    (h : xs.foldlM f start = .ok final) (hstart : inv start)
    (hstep : ∀ x ∈ xs, ∀ b c, inv b → f b x = .ok c → inv c) : inv final := by
  induction xs generalizing start with
  | nil =>
      rw [List.foldlM_nil, pure_eq_ok] at h
      exact h ▸ hstart
  | cons x xs ih =>
      rw [List.foldlM_cons, bind_eq_ok] at h
      obtain ⟨b, hb, h⟩ := h
      obtain ⟨hhead, hrest⟩ := List.forall_mem_cons.mp hstep
      exact ih h (hhead start b hstart hb) hrest

/-- A run has an end if every step can be made from where the steps before have led. -/
theorem exists_foldlM_eq_ok {f : β → α → Result β} {xs : List α} {start : β} (inv : β → Prop)
    (hstart : inv start) (hkeeps : ∀ x ∈ xs, ∀ b c, inv b → f b x = .ok c → inv c)
    (hstep : ∀ x ∈ xs, ∀ b, inv b → ∃ c, f b x = .ok c) : ∃ final, xs.foldlM f start = .ok final := by
  induction xs generalizing start with
  | nil => exact ⟨start, rfl⟩
  | cons x xs ih =>
      obtain ⟨hkeep, hkeeps⟩ := List.forall_mem_cons.mp hkeeps
      obtain ⟨hhead, hstep⟩ := List.forall_mem_cons.mp hstep
      rw [List.foldlM_cons]
      exact exists_bind_eq_ok (hhead start hstart) fun b hb =>
        ih (hkeep start b hstart hb) hkeeps hstep

/-- A list of checks succeeds when each of them does. -/
theorem forM_eq_ok {f : α → Result Unit} {xs : List α} :
    xs.forM f = .ok () ↔ ∀ x ∈ xs, f x = .ok () := by
  induction xs with
  | nil => exact ⟨fun _ x hx => absurd hx List.not_mem_nil, fun _ => rfl⟩
  | cons x xs ih =>
      change (f x >>= fun _ => xs.forM f) = .ok () ↔ _
      rw [bind_eq_ok, List.forall_mem_cons, ← ih]
      exact ⟨fun ⟨_, hx, hxs⟩ => ⟨hx, hxs⟩, fun ⟨hx, hxs⟩ => ⟨(), hx, hxs⟩⟩

end Wayfare.Result
