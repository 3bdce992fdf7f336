import Mathlib.Data.List.Nodup
import Wayfare.Grid.Suggested
import Wayfare.Proofs.Success

/-! # Telling places apart

Of places with one identifier only the first is kept, and none whose identifier
was there before. No identifier is lost that way, and none occurs twice.
-/

namespace Wayfare.Grid

theorem checkKeys_eq_ok {places : List Place} (h : ∀ q ∈ places, ∃ k, q.readKey = .ok k) :
    checkKeys places = .ok () := by
  rw [checkKeys, Result.forM_eq_ok]
  intro q hq
  obtain ⟨k, hk⟩ := h q hq
  exact Result.bind_eq_ok.mpr ⟨k, hk, rfl⟩

theorem distinctPlaces_sublist (seen : List Ident) (places : List Place) :
    (distinctPlaces seen places).Sublist places := by
  induction places generalizing seen with
  | nil => exact List.Sublist.refl _
  | cons p rest ih =>
      rw [distinctPlaces]
      split
      next => exact (ih seen).cons p
      next => exact (ih (p.key :: seen)).cons_cons p

theorem notMem_of_mem_distinctPlaces {seen : List Ident} {places : List Place} {p : Place}
    (hp : p ∈ distinctPlaces seen places) : p.key ∉ seen := by
  induction places generalizing seen with
  | nil => exact absurd hp List.not_mem_nil
  | cons q rest ih =>
      rw [distinctPlaces] at hp
      split at hp
      next => exact ih hp
      next hnew =>
        rcases List.mem_cons.mp hp with rfl | hp
        · simpa using hnew
        · exact fun hseen => ih hp (List.mem_cons_of_mem _ hseen)

theorem nodup_distinctPlaces (seen : List Ident) (places : List Place) :
    ((distinctPlaces seen places).map (·.key)).Nodup := by
  induction places generalizing seen with
  | nil => exact List.nodup_nil
  | cons p rest ih =>
      rw [distinctPlaces]
      split
      next => exact ih seen
      next =>
        rw [List.map_cons, List.nodup_cons]
        refine ⟨?_, ih (p.key :: seen)⟩
        intro hmem
        obtain ⟨q, hq, heq⟩ := List.mem_map.mp hmem
        exact notMem_of_mem_distinctPlaces hq (heq ▸ List.mem_cons_self)

theorem key_mem_distinctPlaces {seen : List Ident} {places : List Place} {p : Place}
    (hp : p ∈ places) : p.key ∈ seen ∨ p.key ∈ (distinctPlaces seen places).map (·.key) := by
  induction places generalizing seen with
  | nil => exact absurd hp List.not_mem_nil
  | cons q rest ih =>
      rw [distinctPlaces]
      split
      next hseen =>
        rcases List.mem_cons.mp hp with rfl | hp
        · exact .inl (by simpa using hseen)
        · exact ih hp
      next =>
        rw [List.map_cons, List.mem_cons]
        rcases List.mem_cons.mp hp with rfl | hp
        · exact .inr (.inl rfl)
        · have hlater : p.key ∈ q.key :: seen ∨
              p.key ∈ (distinctPlaces (q.key :: seen) rest).map (·.key) := ih hp
          rcases hlater with hseen | hrest
          · rcases List.mem_cons.mp hseen with heq | hseen
            · exact .inr (.inl heq)
            · exact .inl hseen
          · exact .inr (.inr hrest)

theorem find?_of_mem_distinctPlaces {seen : List Ident} {places : List Place} {v : Place}
    (hv : v ∈ distinctPlaces seen places) :
    places.find? (fun q => q.key == v.key) = some v := by
  induction places generalizing seen with
  | nil => exact absurd hv List.not_mem_nil
  | cons p rest ih =>
      have hfresh := notMem_of_mem_distinctPlaces hv
      rw [distinctPlaces] at hv
      split at hv
      next hseen =>
        have hne : p.key ≠ v.key := fun heq => hfresh (heq ▸ List.contains_iff_mem.mp hseen)
        rw [List.find?_cons_of_neg (by simpa using hne)]
        exact ih hv
      next =>
        rcases List.mem_cons.mp hv with rfl | hv
        · exact List.find?_cons_of_pos (beq_self_eq_true _)
        · have hne : p.key ≠ v.key := fun heq =>
            notMem_of_mem_distinctPlaces hv (heq ▸ List.mem_cons_self)
          rw [List.find?_cons_of_neg (by simpa using hne)]
          exact ih hv

/-- One place for each identifier: the first that has it, and the places stay in their order. -/
structure FirstOfEach (places firsts : List Place) : Prop where
  sublist : firsts.Sublist places
  nodup : (firsts.map (·.key)).Nodup
  complete : ∀ p ∈ places, p.key ∈ firsts.map (·.key)
  first : ∀ p ∈ firsts, places.find? (fun q => q.key == p.key) = some p

theorem firstOfEach_distinctPlaces (places : List Place) :
    FirstOfEach places (distinctPlaces [] places) where
  sublist := distinctPlaces_sublist [] places
  nodup := nodup_distinctPlaces [] places
  complete := fun _ hp => (key_mem_distinctPlaces hp).resolve_left List.not_mem_nil
  first := fun _ => find?_of_mem_distinctPlaces

end Wayfare.Grid
