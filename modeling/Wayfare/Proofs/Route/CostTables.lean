import Mathlib.Algebra.Order.Field.Rat
import Mathlib.Data.Rat.Floor
import Wayfare.Plan.Stop
import Wayfare.Proofs.Geo.Travel
import Wayfare.Proofs.Route.Membership

/-! # Costs looked up in tables

The costs between the stops of a list are looked up in tables, under the last
position of each stop. One half of the table of lengths is the other half
mirrored, and its diagonal is zero; so for lengths that do not depend on the
direction every look-up is the length itself, and the costs are those that would
be worked out from it.
-/

namespace Wayfare.Route

open Wayfare.Geo Wayfare.Plan

variable {P α : Type}

/-! ## The table of lengths -/

/-- Between two positions the table has the length of the way, in whichever half of it that was put. -/
theorem exists_row_matrix [Zero α] {leg : P → P → α} {stops : List P} {i j : Nat} {a b : P}
    (ha : stops[i]? = some a) (hb : stops[j]? = some b) (hsymm : leg a b = leg b a)
    (hself : a = b → leg a b = 0) :
    ∃ row, (matrix leg stops)[i]? = some row ∧ row[j]? = some (leg a b) := by
  have hrow : (matrix leg stops)[i]? = some (stops.zipIdx.map fun e =>
      if i < e.2 then leg a e.1 else if e.2 < i then leg e.1 a else 0) := by
    rw [matrix, List.getElem?_map, List.getElem?_zipIdx, ha, Nat.zero_add]
    rfl
  refine ⟨_, hrow, ?_⟩
  rw [List.getElem?_map, List.getElem?_zipIdx, hb, Nat.zero_add]
  dsimp only [Option.map_some]
  rcases Nat.lt_trichotomy i j with hlt | rfl | hgt
  · rw [if_pos hlt]
  · have hab : a = b := Option.some.inj (ha.symm.trans hb)
    rw [if_neg (Nat.lt_irrefl i), if_neg (Nat.lt_irrefl i), hself hab]
  · rw [if_neg (Nat.not_lt_of_gt hgt), if_pos hgt, hsymm]

namespace CostModel

variable {t : Terrain P α} {stops : List P} {model : CostModel P α}

/-! ## Positions -/

/-- At the position under which a stop is looked up there is this stop. -/
theorem getElem?_position (hsame : Identified t stops) (hstops : model.stops = stops) {a : P}
    (ha : a ∈ stops) : stops[position t model a]? = some a := by
  have hfound : stops.reverse.findIdx (fun q => t.same q a) < stops.reverse.length :=
    List.findIdx_lt_length_of_exists ⟨a, List.mem_reverse.mpr ha, (hsame a ha a ha).mpr rfl⟩
  have hlength : stops.reverse.length = stops.length := List.length_reverse
  have hposition : position t model a < stops.length := by
    rw [position, hstops]
    omega
  have hget : stops[position t model a]? =
      some stops.reverse[stops.reverse.findIdx fun q => t.same q a] := by
    rw [List.getElem?_eq_getElem hposition, List.getElem_reverse]
    simp only [position, hstops]
  have hsame_found : t.same stops.reverse[stops.reverse.findIdx fun q => t.same q a] a = true :=
    List.findIdx_getElem (p := fun q => t.same q a) (w := hfound)
  have hmem : stops.reverse[stops.reverse.findIdx fun q => t.same q a] ∈ stops :=
    List.mem_reverse.mp (List.getElem_mem hfound)
  rw [hget, (hsame _ hmem a ha).mp hsame_found]

/-! ## The tables of a list -/

theorem build_eq_ok [Zero α] (h : build t stops = .ok model) :
    model.stops = stops ∧ model.km = matrix t.leg stops ∧
      ((matrix t.leg stops).mapM fun row => row.mapM t.minutes) = .ok model.minutes ∧
      (stops.mapM fun p => do return t.congestion (← t.block p)) = .ok model.congestion := by
  obtain ⟨minutes, hminutes, h⟩ := Result.bind_eq_ok.mp h
  obtain ⟨congestion, hcongestion, h⟩ := Result.bind_eq_ok.mp h
  rw [Result.pure_eq_ok] at h
  subst h
  exact ⟨rfl, rfl, hminutes, hcongestion⟩

theorem entry_eq {β : Type} (zero : β) {table : List (List β)} {row : List β} {i j : Nat} {x : β}
    (hrow : table[i]? = some row) (hx : row[j]? = some x) : entry zero table i j = x := by
  rw [entry, hrow, Option.bind_some, hx, Option.getD_some]

/-- What is looked up for two stops of a list: the length of the way between them, its minutes, and the
congestion in the block of the second. -/
theorem exists_entries [Zero α] (hsame : Identified t stops)
    (hsymm : ∀ a ∈ stops, ∀ b ∈ stops, t.leg a b = t.leg b a)
    (hself : ∀ a ∈ stops, t.leg a a = 0) (h : build t stops = .ok model) {a b : P}
    (ha : a ∈ stops) (hb : b ∈ stops) :
    entry 0 model.km (position t model a) (position t model b) = t.leg a b ∧
      t.minutes (t.leg a b) =
        .ok (entry 0 model.minutes (position t model a) (position t model b)) ∧
      ∃ block, t.block b = .ok block ∧
        model.congestion[position t model b]? = some (t.congestion block) := by
  obtain ⟨hstops, hkm, hminutes, hcongestion⟩ := build_eq_ok h
  have hposition_a := getElem?_position hsame hstops ha
  have hposition_b := getElem?_position hsame hstops hb
  obtain ⟨row, hrow, hleg⟩ := exists_row_matrix hposition_a hposition_b (hsymm a ha b hb) (by
    rintro rfl
    exact hself a ha)
  obtain ⟨times, htimes, hrow_times⟩ :=
    Result.exists_getElem?_of_forall₂ (Result.mapM_eq_ok.mp hminutes) hrow
  obtain ⟨n, hn, htime⟩ :=
    Result.exists_getElem?_of_forall₂ (Result.mapM_eq_ok.mp hrow_times) hleg
  obtain ⟨x, hx, hblock⟩ :=
    Result.exists_getElem?_of_forall₂ (Result.mapM_eq_ok.mp hcongestion) hposition_b
  obtain ⟨block, hblock, hcongested⟩ := Result.bind_eq_ok.mp hblock
  rw [Result.pure_eq_ok] at hcongested
  rw [hkm, entry_eq 0 hrow hleg, entry_eq 0 htimes hn]
  exact ⟨rfl, htime, block, hblock, hcongested ▸ hx⟩

/-- A list has tables if the block of every stop and the minutes of every way are known. -/
theorem exists_build_iff [Zero α] (hsame : Identified t stops)
    (hsymm : ∀ a ∈ stops, ∀ b ∈ stops, t.leg a b = t.leg b a)
    (hself : ∀ a ∈ stops, t.leg a a = 0) :
    (∃ model, build t stops = .ok model) ↔ (∀ b ∈ stops, ∃ block, t.block b = .ok block) ∧
      ∀ a ∈ stops, ∀ b ∈ stops, ∃ n, t.minutes (t.leg a b) = .ok n := by
  constructor
  · rintro ⟨model, h⟩
    refine ⟨fun b hb => ?_, fun a ha b hb => ?_⟩
    · obtain ⟨-, -, block, hblock, -⟩ := exists_entries hsame hsymm hself h hb hb
      exact ⟨block, hblock⟩
    · obtain ⟨-, hminutes, -⟩ := exists_entries hsame hsymm hself h ha hb
      exact ⟨_, hminutes⟩
  · rintro ⟨hblock, hminutes⟩
    cases stops with
    | nil => exact ⟨_, rfl⟩
    | cons a rest =>
        have hstill : ∃ n, t.minutes 0 = .ok n := by
          rw [← hself a List.mem_cons_self]
          exact hminutes a List.mem_cons_self a List.mem_cons_self
        exact Charted.exists_build ⟨hblock, hminutes, hstill⟩

variable [Zero α] [Add α] [Sub α] [Mul α] [IntCast α] [LT α] [DecidableLT α]

theorem costs_of_build (hsame : Identified t stops)
    (hsymm : ∀ a ∈ stops, ∀ b ∈ stops, t.leg a b = t.leg b a)
    (hself : ∀ a ∈ stops, t.leg a a = 0) (h : build t stops = .ok model) {a b : P}
    (ha : a ∈ stops) (hb : b ∈ stops) :
    ∃ n block, t.minutes (t.leg a b) = .ok n ∧ t.block b = .ok block ∧
      timeCost t model a b = (n : α) * t.congestion block ∧
      balancedCost t model a b = t.lengthWeight * t.leg a b +
        t.timeWeight * ((n : α) * t.congestion block) +
        t.preferenceWeight * preferenceCost t a b := by
  obtain ⟨hkm, hminutes, block, hblock, hcongestion⟩ := exists_entries hsame hsymm hself h ha hb
  have htime : timeCost t model a b =
      ((entry 0 model.minutes (position t model a) (position t model b) : Int) : α) *
        t.congestion block := by
    simp only [timeCost]
    rw [hcongestion, Option.getD_some]
  refine ⟨_, block, hminutes, hblock, htime, ?_⟩
  rw [balancedCost, htime, hkm]

/-- The costs between the stops of a list are those that the ways between them have. The list may have a
stop more than once, and stops without a position. It has tables if the block of every stop and the
minutes of every way are known. For stops on the globe the minutes are those at the speed of the mode
of reference, and the congestion is that of the block of the second stop. -/
theorem costs_eq_direct :
    (∀ (t : Terrain P α) (stops : List P), Identified t stops →
      (∀ a ∈ stops, ∀ b ∈ stops, t.leg a b = t.leg b a) → (∀ a ∈ stops, t.leg a a = 0) →
      ((∃ model, build t stops = .ok model) ↔ (∀ b ∈ stops, ∃ block, t.block b = .ok block) ∧
        ∀ a ∈ stops, ∀ b ∈ stops, ∃ n, t.minutes (t.leg a b) = .ok n) ∧
      ∀ model, build t stops = .ok model → ∀ a ∈ stops, ∀ b ∈ stops,
        ∃ n block, t.minutes (t.leg a b) = .ok n ∧ t.block b = .ok block ∧
          timeCost t model a b = (n : α) * t.congestion block ∧
          balancedCost t model a b = t.lengthWeight * t.leg a b +
            t.timeWeight * ((n : α) * t.congestion block) +
            t.preferenceWeight * preferenceCost t a b) ∧
    ∀ (s : Settings) (stops : List Stop), Identified (terrain s) stops →
      (∀ a ∈ stops, ∀ b ∈ stops, Stop.distance s a b = Stop.distance s b a) →
      (∀ a ∈ stops, Stop.distance s a a = 0) →
      ∀ model, build (terrain s) stops = .ok model → ∀ a ∈ stops, ∀ b ∈ stops,
        ∃ n block, travelMinutes ceilReal (Stop.distance s a b) (speedOf s s.congestionMode) = .ok n ∧
          Category.visitBlock b.place = .ok block ∧
          timeCost (terrain s) model a b = (n : Float) * s.congestion.get block ∧
          balancedCost (terrain s) model a b = s.balancedDistance * Stop.distance s a b +
            s.balancedTime * ((n : Float) * s.congestion.get block) +
            s.balancedPreference * preferenceCost (terrain s) a b := by
  refine ⟨fun t stops hsame hsymm hself => ⟨?_, ?_⟩, fun s stops hsame hsymm hself => ?_⟩
  · exact exists_build_iff hsame hsymm hself
  · exact fun model h a ha b hb => costs_of_build hsame hsymm hself h ha hb
  · exact fun model h a ha b hb => costs_of_build hsame hsymm hself h ha hb

/-- Three stops on a line, one of them listed twice, and a stop without a position between them; and a
round trip between two places without positions. -/
theorem costs_eq_direct_dinner :
    let t : Terrain (Option ℚ) ℚ :=
      { leg := fun a b =>
          match a, b with
          | some x, some y => |x - y|
          | _, _ => 0
        slack := 1 / 1000000000
        same := fun a b => a == b
        walkable := fun _ _ => false
        block := fun a => .ok (if a = some 7 then .dinner else .morning)
        minutes := fun km => travelMinutes (fun x => .ok ⌈x⌉) km 30
        congestion := fun b => if b = .dinner then 9 / 5 else 1
        congestedAbove := 13 / 10
        rating := fun a => a
        keyWeight := fun _ => 0
        sameCategory := fun a b => a == b
        lengthWeight := 2 / 5
        timeWeight := 3 / 10
        preferenceWeight := 3 / 10
        switchCost := 2 }
    let stops : List (Option ℚ) := [some 7, none, some 2, some 7]
    let museum : Stop :=
      ⟨0, { id := .text "museum", name := .text "Museum", category := .text "culture" }⟩
    let cafe : Stop := ⟨1, { id := .text "cafe", name := .text "Cafe", category := .text "cafe" }⟩
    (Identified t stops ∧ (∀ a ∈ stops, ∀ b ∈ stops, t.leg a b = t.leg b a) ∧
      (∀ a ∈ stops, t.leg a a = 0) ∧
      ∃ model, build t stops = .ok model ∧ timeCost t model (some 2) (some 7) = 10 * (9 / 5) ∧
        timeCost t model none (some 7) = 0) ∧
    Identified (terrain {}) [museum, cafe, museum] ∧
      ∃ model, build (terrain {}) [museum, cafe, museum] = .ok model ∧
        timeCost (terrain {}) model museum cafe =
          ((0 : Int) : Float) * ({} : Settings).congestion.get .afternoon := by
  intro t stops museum cafe
  obtain ⟨hlist, hglobe⟩ := costs_eq_direct (P := Option ℚ) (α := ℚ)
  constructor
  · have hsame : Identified t stops := fun a _ b _ => beq_iff_eq
    have hsymm : ∀ a ∈ stops, ∀ b ∈ stops, t.leg a b = t.leg b a := by decide +kernel
    have hself : ∀ a ∈ stops, t.leg a a = 0 := by decide +kernel
    obtain ⟨hbuild, hcosts⟩ := hlist t stops hsame hsymm hself
    have hminutes (km : ℚ) : ∃ n, travelMinutes (fun x => .ok ⌈x⌉) km 30 = .ok n :=
      exists_travelMinutes fun _ => ⟨_, rfl⟩
    obtain ⟨model, hmodel⟩ := hbuild.mpr ⟨fun b _ => ⟨_, rfl⟩, fun a _ b _ => hminutes _⟩
    refine ⟨hsame, hsymm, hself, model, hmodel, ?_, ?_⟩
    · obtain ⟨n, block, hn, hblock, htime, -⟩ :=
        hcosts model hmodel (some 2) (by decide) (some 7) (by decide)
      have hn_eq : n = 10 := Except.ok.inj (hn.symm.trans (by decide +kernel))
      have hblock_eq : block = .dinner := Except.ok.inj (hblock.symm.trans (by decide +kernel))
      rw [htime, hn_eq, hblock_eq]
      norm_num [t]
    · obtain ⟨n, block, hn, hblock, htime, -⟩ :=
        hcosts model hmodel none (by decide) (some 7) (by decide)
      have hn_eq : n = 0 := Except.ok.inj (hn.symm.trans (by decide +kernel))
      rw [htime, hn_eq, Int.cast_zero, zero_mul]
  · have hsame : Identified (terrain {}) [museum, cafe, museum] := by
      simp [Identified, terrain, museum, cafe]
    have hunlocated : ∀ a ∈ [museum, cafe, museum], a.place.location = none := by
      simp only [List.forall_mem_cons]
      exact ⟨rfl, rfl, rfl, List.forall_mem_nil _⟩
    have hstill : ∀ a ∈ [museum, cafe, museum], ∀ b, Stop.distance {} a b = 0 :=
      fun a ha b => leg_of_unlocated {} (hunlocated a ha) b
    have hcharted : Charted (terrain {}) [museum, cafe, museum] := by
      refine charted_of_unlocated ?_ hunlocated
      simp only [List.forall_mem_cons]
      exact ⟨⟨.morning, rfl⟩, ⟨.afternoon, rfl⟩, ⟨.morning, rfl⟩, List.forall_mem_nil _⟩
    obtain ⟨model, hmodel⟩ := hcharted.exists_build
    obtain ⟨n, block, hn, hblock, htime, -⟩ :=
      hglobe {} [museum, cafe, museum] hsame
        (fun a ha b hb => (hstill a ha b).trans (hstill b hb a).symm)
        (fun a ha => hstill a ha a) model hmodel museum (by simp) cafe (by simp)
    rw [hstill museum (by simp)] at hn
    have hn_eq : n = 0 := Except.ok.inj (hn.symm.trans (minutes_zero {}))
    have hblock_eq : block = .afternoon := Except.ok.inj (hblock.symm.trans rfl)
    rw [hn_eq, hblock_eq] at htime
    exact ⟨hsame, model, hmodel, htime⟩

end CostModel

end Wayfare.Route
