import Wayfare.Decimal.Binary
import Wayfare.Fault

/-! # Arithmetic shared by the planner

The planner's algorithms run over any number type with the usual operations.
Here are the few things that they need beyond those: sums in the order in which
terms are given, and whole numbers as members of the type.
-/

namespace Wayfare

instance natCastFloat : NatCast Float := ⟨Float.ofNat⟩

instance intCastFloat : IntCast Float := ⟨Float.ofInt⟩

variable {α : Type}

/-- The sum of numbers, added from the first to the last. -/
def total [Zero α] [Add α] (xs : List α) : α :=
  xs.foldl (· + ·) 0

def sumNat (ns : List Nat) : Nat :=
  ns.foldr (· + ·) 0

def sumInt (ns : List Int) : Int :=
  ns.foldr (· + ·) 0

@[simp] theorem sumNat_cons (n : Nat) (ns : List Nat) : sumNat (n :: ns) = n + sumNat ns :=
  rfl

@[simp] theorem sumInt_cons (n : Int) (ns : List Int) : sumInt (n :: ns) = n + sumInt ns :=
  rfl

/-- The greater of a number and a floor; the floor unless the number is above it. -/
def atLeast [LT α] [DecidableLT α] (floor x : α) : α :=
  if floor < x then x else floor

/-- The lesser of a number and a ceiling; the ceiling unless the number is below it. -/
def atMost [LT α] [DecidableLT α] (ceiling x : α) : α :=
  if x < ceiling then x else ceiling

/-- The least of a first number and some others; of equal ones the first. -/
def leastOf [LT α] [DecidableLT α] (x : α) (xs : List α) : α :=
  xs.foldl (fun least y => if y < least then y else least) x

/-- A quotient; there is none by zero. -/
def divide [Zero α] [BEq α] [Div α] (x y : α) : Result α :=
  if y == 0 then .error .divisionByZero else .ok (x / y)

theorem exists_divide [Zero α] [BEq α] [Div α] (x : α) {y : α} (h : (y == 0) = false) :
    ∃ q, divide x y = .ok q := by
  rw [divide, h]
  exact ⟨_, rfl⟩

/-- The least whole number that is not below a real one. -/
def ceilReal (x : Float) : Result Int :=
  if x.isNaN then .error .unreadable
  else Result.ofOption .tooLarge (Decimal.ceiling? x)

end Wayfare
