import Mathlib.Data.Prod.Lex
import Mathlib.Order.Compare

/-! # The order of real numbers

A real number of the machine is a number unless it is not the same as itself.
Numbers are ordered like the points of a line: first by how far to which side
they stand, then by exponent and mantissa, which count downwards on the negative
side.
-/

namespace Wayfare.RealOrder

open Float.Model Float.Model.UnpackedFloat

/-- Where a number stands: on which side of zero and whether beyond all others, at which exponent, and at
which mantissa. -/
def standing : UnpackedFloat → Int ×ₗ Int ×ₗ Int
  | .infinity .negative => toLex (-2, toLex (0, 0))
  | .finite .negative m e _ => toLex (-1, toLex (-e, -Int.ofNat m))
  | .zero _ => toLex (0, toLex (0, 0))
  | .finite .positive m e _ => toLex (1, toLex (e, Int.ofNat m))
  | .infinity .positive => toLex (2, toLex (0, 0))
  | .notANumber => toLex (0, toLex (0, 0))

/-- Finite numbers on one side are ordered by exponent and mantissa. -/
theorem compares_finite (e f : Int) (m n : Nat) :
    ((compare e f).then (compare m n)).Compares (toLex (e, Int.ofNat m)) (toLex (f, Int.ofNat n)) ∧
      ((compare e f).then (compare m n)).swap.Compares (toLex (-e, -Int.ofNat m))
        (toLex (-f, -Int.ofNat n)) := by
  rcases lt_trichotomy e f with hef | rfl | hef
  · simp [Int.compare_eq_lt.mpr hef, Ordering.Compares, Prod.Lex.toLex_lt_toLex, hef]
  · rcases lt_trichotomy m n with hmn | rfl | hmn
    · simp [Nat.compare_eq_lt.mpr hmn, Ordering.Compares, Prod.Lex.toLex_lt_toLex, hmn]
    · simp [Ordering.Compares]
    · simp [Nat.compare_eq_gt.mpr hmn, Ordering.Compares, Prod.Lex.toLex_lt_toLex, hmn]
  · simp [Int.compare_eq_gt.mpr hef, Ordering.Compares, Prod.Lex.toLex_lt_toLex, hef]

theorem compares_toLex {o : Ordering} {p q : Int ×ₗ Int} (h : o.Compares p q) (side : Int) :
    o.Compares (toLex (side, p)) (toLex (side, q)) := by
  cases o <;> simp [Ordering.Compares, Prod.Lex.toLex_lt_toLex] at h ⊢ <;> exact h

/-- Numbers compare as their standings do. -/
theorem compares_standing {a b : UnpackedFloat} (ha : a ≠ .notANumber) (hb : b ≠ .notANumber) :
    ∃ o, a.compare b = some o ∧ o.Compares (standing a) (standing b) := by
  have hside {p q : Int} (h : p < q) (x y : Int ×ₗ Int) : toLex (p, x) < toLex (q, y) :=
    Prod.Lex.toLex_lt_toLex.mpr (.inl h)
  cases a with
  | notANumber => exact absurd rfl ha
  | infinity s =>
      cases b with
      | notANumber => exact absurd rfl hb
      | infinity t =>
          cases s <;> cases t
          · exact ⟨_, rfl, rfl⟩
          · exact ⟨_, rfl, hside (by decide) _ _⟩
          · exact ⟨_, rfl, hside (by decide) _ _⟩
          · exact ⟨_, rfl, rfl⟩
      | zero t => cases s <;> exact ⟨_, rfl, hside (by decide) _ _⟩
      | finite t n f _ => cases s <;> cases t <;> exact ⟨_, rfl, hside (by decide) _ _⟩
  | zero s =>
      cases b with
      | notANumber => exact absurd rfl hb
      | infinity t => cases t <;> exact ⟨_, rfl, hside (by decide) _ _⟩
      | zero t => exact ⟨_, rfl, rfl⟩
      | finite t n f _ => cases t <;> exact ⟨_, rfl, hside (by decide) _ _⟩
  | finite s m e _ =>
      cases b with
      | notANumber => exact absurd rfl hb
      | infinity t => cases s <;> cases t <;> exact ⟨_, rfl, hside (by decide) _ _⟩
      | zero t => cases s <;> exact ⟨_, rfl, hside (by decide) _ _⟩
      | finite t n f _ =>
          cases s <;> cases t
          · exact ⟨_, rfl, compares_toLex (compares_finite e f m n).2 (-1)⟩
          · exact ⟨_, rfl, hside (by decide) _ _⟩
          · exact ⟨_, rfl, hside (by decide) _ _⟩
          · exact ⟨_, rfl, compares_toLex (compares_finite e f m n).1 1⟩

theorem side_le {β : Type} [LinearOrder β] {p q : Int} {a b : β} (h : toLex (p, a) ≤ toLex (q, b)) : p ≤ q :=
  (Prod.Lex.toLex_le_toLex.mp h).elim le_of_lt fun h => h.1.le

theorem exponent_le {side p q m n : Int}
    (h : toLex (side, toLex (p, m)) ≤ toLex (side, toLex (q, n))) : p ≤ q :=
  side_le ((Prod.Lex.toLex_le_toLex.mp h).resolve_left (lt_irrefl _)).2

/-- Where a real number of the machine stands. -/
def place (x : Float) : Int ×ₗ Int ×ₗ Int :=
  standing x.toModel.unpack

/-- A real number of the machine stands for a number unless it differs from itself. -/
def IsNumber (x : Float) : Prop :=
  (x == x) = true

instance (x : Float) : Decidable (IsNumber x) :=
  inferInstanceAs (Decidable ((x == x) = true))

theorem isNumber_iff {x : Float} : IsNumber x ↔ x.toModel.unpack ≠ .notANumber := by
  change (x.toModel.unpack.compare x.toModel.unpack == some .eq) = true ↔ _
  constructor
  · intro h hnone
    rw [hnone] at h
    cases h
  · intro h
    obtain ⟨o, ho, hcompares⟩ := compares_standing h h
    obtain rfl := hcompares.eq_eq.mpr rfl
    rw [ho]
    rfl

section

variable {x y : Float}

theorem lt_iff (hx : IsNumber x) (hy : IsNumber y) : x < y ↔ place x < place y := by
  obtain ⟨o, ho, hcompares⟩ := compares_standing (isNumber_iff.mp hx) (isNumber_iff.mp hy)
  have hlt : x < y ↔ (x.toModel.unpack.compare y.toModel.unpack == some .lt) = true :=
    decide_eq_true_iff
  rw [hlt, ho, beq_iff_eq, Option.some.injEq]
  exact hcompares.eq_lt

theorem le_iff (hx : IsNumber x) (hy : IsNumber y) : x ≤ y ↔ place x ≤ place y := by
  obtain ⟨o, ho, hcompares⟩ := compares_standing (isNumber_iff.mp hx) (isNumber_iff.mp hy)
  have hle : x ≤ y ↔ (x.toModel.unpack.compare y.toModel.unpack).any (·.isLE) = true :=
    decide_eq_true_iff
  rw [hle, ho, Option.any_some, Ordering.isLE_iff_ne_gt]
  exact hcompares.ne_gt

theorem beq_iff (hx : IsNumber x) (hy : IsNumber y) : (x == y) = true ↔ place x = place y := by
  obtain ⟨o, ho, hcompares⟩ := compares_standing (isNumber_iff.mp hx) (isNumber_iff.mp hy)
  change (x.toModel.unpack.compare y.toModel.unpack == some .eq) = true ↔ _
  rw [ho, beq_iff_eq, Option.some.injEq]
  exact hcompares.eq_eq

/-- What stands for no number is not below anything, and nothing is below it. -/
theorem isNumber_of_le (h : x ≤ y) : IsNumber x ∧ IsNumber y := by
  rw [isNumber_iff, isNumber_iff]
  have hle : (x.toModel.unpack.compare y.toModel.unpack).any (·.isLE) = true := of_decide_eq_true h
  constructor
  · intro hx
    rw [hx] at hle
    cases hle
  · intro hy
    rw [hy] at hle
    cases hx : x.toModel.unpack with
    | infinity s => cases s <;> rw [hx] at hle <;> cases hle
    | _ => rw [hx] at hle; cases hle

theorem not_lt_of_le_of_le {z : Float} (h : x ≤ y) (h' : y ≤ z) : ¬z < x := by
  obtain ⟨hx, hy⟩ := isNumber_of_le h
  have hz := (isNumber_of_le h').2
  rw [lt_iff hz hx, not_lt]
  exact ((le_iff hx hy).mp h).trans ((le_iff hy hz).mp h')

/-- What stands for no number is not the same as anything. -/
theorem isNumber_of_beq (h : (x == y) = true) : IsNumber x ∧ IsNumber y := by
  rw [isNumber_iff, isNumber_iff]
  change (x.toModel.unpack.compare y.toModel.unpack == some .eq) = true at h
  constructor
  · intro hx
    rw [hx] at h
    cases h
  · intro hy
    rw [hy] at h
    cases hx : x.toModel.unpack with
    | infinity s => cases s <;> rw [hx] at h <;> cases h
    | _ => rw [hx] at h; cases h

end

end Wayfare.RealOrder
