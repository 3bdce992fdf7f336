import Wayfare.Proofs.Cluster.Partition
import Wayfare.Proofs.Decimal.Arithmetic
import Wayfare.Proofs.Numeric

/-! # First centres can always be chosen

The positions of evenly spaced points are rounded quotients, and stay within the
list as long as it is no longer than numbers are exact. Points drawn at random
are always among the given ones; that they can be drawn asks that the distances
can be weighed. Never are there more centres than asked for.
-/

namespace Wayfare.Cluster.Seeding

open Wayfare.Decimal

/-! ## Evenly spaced points -/

theorem stands_ofNat {n : Nat} (h : n < 2 ^ 53) : Stands (Float.ofNat n) n :=
  .of_isNat (isNat_ofNat ⟨n, 0, h, by norm_num, by simp⟩)

/-- The step from one position to the next is at most half a unit of its last bit too long. -/
theorem exists_step {n k : Nat} (hk : 0 < k) (hkn : k < n) (hn : n ≤ 2 ^ 52) :
    ∃ s, Stands (Float.ofNat n / Float.ofNat k) s ∧ s * (2 ^ 53 - 1) ≤ n / k * 2 ^ 53 := by
  have hk' : (0 : ℚ) < k := by exact_mod_cast hk
  have hlong : (1 : ℚ) ≤ n / k := (one_le_div hk').mpr (by exact_mod_cast hkn.le)
  have hrange : (n / k : ℚ) < 2 ^ (1023 : Int) := by
    calc (n / k : ℚ) ≤ n := div_le_self (Nat.cast_nonneg n) (by exact_mod_cast hk)
      _ ≤ 2 ^ (52 : Int) := by exact_mod_cast hn
      _ < 2 ^ (1023 : Int) := zpow_lt_zpow_right₀ one_lt_two (by norm_num)
  obtain ⟨m, e, hcanonical, hnear⟩ := exists_nearest (zero_le_one.trans hlong) hrange
  have hquotient := ofFloat_div_of_isNat (hk.trans hkn) hk (isNat_ofNat ⟨n, 0, by omega, by norm_num, by simp⟩)
    (isNat_ofNat ⟨k, 0, by omega, by norm_num, by simp⟩) hcanonical hnear
  exact ⟨_, .of_ofFloat hquotient, hnear.le_relative hcanonical hlong⟩

/-- Every position of evenly spaced points is one of the list. -/
theorem spacedPositions_lt {n k i : Nat} (hkn : k < n) (hn : n ≤ 2 ^ 52)
    (hi : i ∈ spacedPositions n k) : i < n := by
  obtain ⟨j, hj, rfl⟩ := List.mem_map.mp hi
  have hjk := List.mem_range.mp hj
  obtain ⟨s, hs, hstep⟩ := exists_step (by omega) hkn hn
  have hk : (0 : ℚ) < k := by exact_mod_cast (by omega : 0 < k)
  have hhalf : ((2 * n - 1 : Nat) : ℚ) * 2 ^ (-1 : Int) = n - 1 / 2 := by
    rw [Nat.cast_sub (by omega), zpow_neg_one]
    push_cast
    ring
  -- The last position falls short of the end by a whole step, which is more than rounding adds.
  have hbound : (j : ℚ) * s ≤ (2 * n - 1 : Nat) * 2 ^ (-1 : Int) := by
    have hlong : (1 : ℚ) ≤ n / k := (one_le_div hk).mpr (by exact_mod_cast hkn.le)
    have hshort : (j : ℚ) * (n / k) ≤ n - n / k := by
      have hsteps : (j + 1 : ℚ) * (n / k) ≤ k * (n / k) := by
        gcongr
        exact_mod_cast hjk
      rw [mul_div_cancel₀ _ hk.ne'] at hsteps
      linarith
    have hrounded : (j : ℚ) * s * (2 ^ 53 - 1) ≤ j * (n / k) * 2 ^ 53 := by
      rw [mul_assoc, mul_assoc]
      exact mul_le_mul_of_nonneg_left hstep (Nat.cast_nonneg j)
    have hsmall : (n : ℚ) ≤ 2 ^ 52 := by exact_mod_cast hn
    rw [hhalf]
    linarith
  obtain ⟨p, hp, hle⟩ := (stands_ofNat (n := j) (by omega)).mul hs (by omega) (by norm_num)
    (by norm_num) hbound
  rw [hp.wholePart?, Option.getD_some, Int.toNat_natCast, Nat.floor_lt hp.nonneg]
  rw [hhalf] at hle
  linarith

/-! ## Points drawn by weight -/

/-- A weight of which any number of points that a list can have stays in range. -/
def heaviest : Float := 1e60

/-- Every distance among some points has a weight, which is neither below zero nor too heavy. -/
def Measure.Weighs (m : Measure) (points : List (Point Float)) : Prop :=
  ∀ p ∈ points, ∀ q ∈ points, ∃ w, m.weigh (m.gap p q) = .ok w ∧ 0.0 ≤ w ∧ w ≤ heaviest

/-- A weight that stands for a fraction within the bound. -/
def Light (w : Float) : Prop :=
  ∃ v, Stands w v ∧ v ≤ 2 ^ (200 : Int)

theorem light_of_between {w : Float} (hzero : 0.0 ≤ w) (hle : w ≤ heaviest) : Light w := by
  have htop : Binary.ofFloat heaviest = .finite false 5605193857299268 147 := by decide +kernel
  exact Stands.of_between hzero hle (by norm_num) htop

/-- Sums of light weights stay in range. -/
theorem exists_lastSum {ws : List Float} (hlight : ∀ w ∈ ws, Light w) {sum : Float} {a : ℚ} {c : Nat}
    (hsum : Stands sum a) (hle : a ≤ c * 2 ^ (200 : Int)) (hc : c + ws.length < 2 ^ 53) :
    ∃ b, Stands ((runningSums sum ws).getLastD sum) b := by
  induction ws generalizing sum a c with
  | nil => exact ⟨a, hsum⟩
  | cons w rest ih =>
      obtain ⟨⟨v, hv, hvle⟩, hrest⟩ := List.forall_mem_cons.mp hlight
      rw [List.length_cons] at hc
      have hnext : a + v ≤ (c + 1 : Nat) * 2 ^ (200 : Int) := by
        push_cast
        linarith
      obtain ⟨b, hb, hble⟩ := hsum.add hv (by omega) (by norm_num) (by norm_num) hnext
      rw [runningSums, List.getLastD_cons]
      exact ih hrest hb hble (by omega)

theorem exists_chooseWeighted {ws : List Float} (hlight : ∀ w ∈ ws, Light w)
    (hlength : ws.length ≤ 2 ^ 52) (t : Twister) : ∃ drawn, chooseWeighted ws t = .ok drawn := by
  have hzero : Stands 0.0 0 := ⟨false, 0, -1074, by decide +kernel, .inl rfl, by simp⟩
  obtain ⟨b, hb⟩ := exists_lastSum (c := 0) hlight hzero (by simp) (by omega)
  simp only [chooseWeighted, hb.isNaN, hb.isInf]
  exact ⟨_, rfl⟩

theorem Measure.Weighs.exists_light {m : Measure} {points centres : List (Point Float)}
    (hweighs : m.Weighs points) (hsub : centres ⊆ points) {p : Point Float} (hp : p ∈ points)
    {d : Float} {ds : List Float} (hgaps : centres.map (m.gap p) = d :: ds) :
    ∃ w, m.weigh (leastOf d ds) = .ok w ∧ Light w := by
  obtain ⟨q, hq, heq⟩ := List.mem_map.mp (hgaps ▸ leastOf_mem d ds)
  obtain ⟨w, hw, hzero, hle⟩ := hweighs p hp q (hsub hq)
  exact ⟨w, heq ▸ hw, light_of_between hzero hle⟩

/-- A point can be drawn if there are centres and the distances can be weighed. -/
theorem exists_chooseFar {m : Measure} {points centres : List (Point Float)} (hweighs : m.Weighs points)
    (hlength : points.length ≤ 2 ^ 52) (hcentres : centres ≠ []) (hsub : centres ⊆ points)
    (t : Twister) : ∃ drawn, chooseFar m points centres t = .ok drawn := by
  have hgaps {p : Point Float} : centres.map (m.gap p) ≠ [] := mt List.map_eq_nil_iff.mp hcentres
  refine Result.exists_bind_eq_ok (Result.exists_mapM_eq_ok fun p hp => ?_) fun weights hweights => ?_
  · split
    next hnone => exact absurd hnone hgaps
    next d ds hsome => exact (hweighs.exists_light hsub hp hsome).imp fun _ h => h.1
  · have hlight : ∀ w ∈ weights, Light w := by
      intro w hw
      obtain ⟨p, hp, heq⟩ := Result.exists_of_mem_mapM hweights hw
      split at heq
      next hnone => exact absurd hnone hgaps
      next d ds hsome =>
        obtain ⟨w', hw', hlight⟩ := hweighs.exists_light hsub hp hsome
        exact Except.ok.inj (hw'.symm.trans heq) ▸ hlight
    have hlong := (Result.mapM_eq_ok.mp hweights).length_eq
    split
    · exact ⟨_, rfl⟩
    · exact exists_chooseWeighted hlight (hlong ▸ hlength) t

theorem exists_drawMore {m : Measure} {points : List (Point Float)} (hweighs : m.Weighs points)
    (hlength : points.length ≤ 2 ^ 52) {drawn : List Nat} (hdrawn : ∃ i ∈ drawn, i < points.length)
    (t : Twister) (more : Nat) : ∃ all, drawMore m points drawn t more = .ok all := by
  induction more generalizing drawn t with
  | zero => exact ⟨drawn, rfl⟩
  | succ more ih =>
      obtain ⟨i, hi, hlt⟩ := hdrawn
      have hcentres : (drawn.filterMap fun j => points[j]?) ≠ [] :=
        List.ne_nil_of_mem (List.mem_filterMap.mpr ⟨i, hi, List.getElem?_eq_getElem hlt⟩)
      have hsub : (drawn.filterMap fun j => points[j]?) ⊆ points := by
        intro q hq
        obtain ⟨j, _, hj⟩ := List.mem_filterMap.mp hq
        exact List.mem_of_getElem? hj
      refine Result.exists_bind_eq_ok (exists_chooseFar hweighs hlength hcentres hsub t) fun next _ => ?_
      exact ih ⟨i, List.mem_append_left _ hi, hlt⟩ next.2

theorem length_drawMore {m : Measure} {points : List (Point Float)} {drawn all : List Nat}
    {t : Twister} {more : Nat} (h : drawMore m points drawn t more = .ok all) :
    all.length = drawn.length + more := by
  induction more generalizing drawn t with
  | zero =>
      cases h
      rfl
  | succ more ih =>
      obtain ⟨⟨i, t'⟩, _, h⟩ := Result.bind_eq_ok.mp h
      rw [ih h, List.length_append, List.length_singleton]
      omega

/-! ## Either way -/

variable {s : Seeding} {m : Measure} {seed : Int} {points centres : List (Point Float)} {k : Nat}

/-- First centres are some of the points. -/
theorem subset_of_centres (h : s.centres m seed points k = .ok centres) : centres ⊆ points := by
  obtain ⟨all, _, h⟩ := Result.bind_eq_ok.mp h
  rw [Result.pure_eq_ok] at h
  subst h
  intro q hq
  obtain ⟨i, _, hi⟩ := List.mem_filterMap.mp hq
  exact List.mem_of_getElem? hi

theorem length_centres_le (hk : 0 < k) (h : s.centres m seed points k = .ok centres) :
    centres.length ≤ k := by
  obtain ⟨all, hall, h⟩ := Result.bind_eq_ok.mp h
  rw [Result.pure_eq_ok] at h
  subst h
  refine List.length_filterMap_le _ _ |>.trans ?_
  cases s with
  | spread =>
      have hlength := (Result.mapM_eq_ok.mp hall).length_eq
      rw [spacedPositions, List.length_map, List.length_range] at hlength
      exact hlength.ge
  | plusPlus =>
      rw [positions, drawnPositions] at hall
      split at hall
      next => cases hall
      next =>
        rw [length_drawMore hall, List.length_singleton]
        omega

theorem exists_centres (hlength : points.length ≤ 2 ^ 52) (hkn : k < points.length)
    (hweighs : s = plusPlus → m.Weighs points) : ∃ centres, s.centres m seed points k = .ok centres := by
  cases s with
  | spread => exact exists_centres_spread fun i hi => spacedPositions_lt hkn hlength hi
  | plusPlus =>
      have hpoints : points ≠ [] := List.length_pos_iff.mp (by omega)
      have hdraw : ∃ all, plusPlus.positions m seed points k = .ok all := by
        rw [positions, drawnPositions, List.isEmpty_eq_false_iff.mpr hpoints]
        refine exists_drawMore (hweighs rfl) hlength ⟨_, List.mem_singleton_self _, ?_⟩ _ _
        exact Twister.choose_lt (List.length_pos_iff.mpr hpoints) _
      exact Result.exists_bind_eq_ok hdraw fun _ _ => ⟨_, rfl⟩

end Wayfare.Cluster.Seeding
