import Wayfare.Decimal.Binary
import Wayfare.Fault

/-! # Numbers of either kind

A number that comes from outside is whole and of any size, or real. Numbers of
both kinds are compared by what they stand for, without rounding.
-/

namespace Wayfare

open Wayfare.Decimal

/-- A whole or a real number. -/
inductive Number where
  | int (n : Int)
  | real (x : Float)

instance instInhabitedNumber : Inhabited Number := ⟨.int 0⟩

/-- Where a number stands on the line: at a fraction, or beyond all of them on either side. -/
inductive LinePosition where
  | beyondLeft
  | fraction (num : Int) (den : Nat)
  | beyondRight

/-- Whether one position is not to the right of another. -/
def LinePosition.notAfter : LinePosition → LinePosition → Bool
  | beyondLeft, _ => true
  | _, beyondRight => true
  | fraction a b, fraction c d => decide (a * Int.ofNat d ≤ c * Int.ofNat b)
  | _, _ => false

namespace Number

/-- Where a number stands; a real number that stands for none stands nowhere. -/
def position? : Number → Option LinePosition
  | int n => some (.fraction n 1)
  | real x =>
      match Binary.ofFloat x with
      | .notANumber => none
      | .infinite negative => some (if negative then .beyondLeft else .beyondRight)
      | .finite negative m e =>
          let (num, den) := Decimal.fraction m e
          some (.fraction (if negative then -Int.ofNat num else Int.ofNat num) den)

/-- Whether a number is less than another or stands for the same. -/
def notAbove (a b : Number) : Bool :=
  match a.position?, b.position? with
  | some p, some q => p.notAfter q
  | _, _ => false

def isBelow (a b : Number) : Bool :=
  match a.position?, b.position? with
  | some p, some q => !q.notAfter p
  | _, _ => false

instance instLENumber : LE Number := ⟨fun a b => a.notAbove b = true⟩

instance instLTNumber : LT Number := ⟨fun a b => a.isBelow b = true⟩

instance instDecidableLENumber : DecidableLE Number := fun a b =>
  inferInstanceAs (Decidable (a.notAbove b = true))

instance instDecidableLTNumber : DecidableLT Number := fun a b =>
  inferInstanceAs (Decidable (a.isBelow b = true))

/-- Whether two numbers stand for the same; what stands for no number is not the same as anything. -/
def same (a b : Number) : Bool :=
  a.notAbove b && b.notAbove a

/-- The nearest real number; a whole number beyond all range is infinite. -/
def toReal : Number → Float
  | int n => Float.ofInt n
  | real x => x

/-- The nearest real number, if the number is in range. -/
def toReal? : Number → Result Float
  | int n =>
      let x := Float.ofInt n
      if x.isInf then .error .tooLarge else .ok x
  | real x => .ok x

/-- The least whole number that is not below a number; there is none for what is infinite or stands for
no number. -/
def ceiling? : Number → Option Int
  | int n => some n
  | real x => Decimal.ceiling? x

/-- The greatest whole number that is not above a number; there is none for what is infinite or stands
for no number. -/
def floor? : Number → Option Int
  | int n => some n
  | real x => (Decimal.ceiling? (-x)).map fun n => -n

/-- The whole number that a number stands for, if it stands for one. -/
def whole? (a : Number) : Option Int :=
  a.ceiling?.filter fun n => a.floor? == some n

/-- The sum of two numbers, real unless both are whole. -/
def add : Number → Number → Number
  | int m, int n => int (m + n)
  | a, b => real (a.toReal + b.toReal)

/-- The difference of two numbers, real unless both are whole. -/
def sub : Number → Number → Result Number
  | int m, int n => .ok (int (m - n))
  | a, b => do return real ((← a.toReal?) - (← b.toReal?))

def times : Number → Nat → Number
  | int n, k => int (n * Int.ofNat k)
  | real x, k => real (x * Float.ofNat k)

/-- The sum of numbers, added from the first to the last. -/
def sum (ns : List Number) : Number :=
  ns.foldl add (int 0)

/-- The real number nearest to a quotient of two numbers above zero, as a number of at most 53 bits and
a power of two. -/
def nearestQuotient (num den : Nat) : Nat × Int :=
  let guess := Int.ofNat num.log2 - Int.ofNat den.log2 - 53
  let long := decide (den * Nat.pow 2 (guess + 53).toNat ≤ num * Nat.pow 2 (-(guess + 53)).toNat)
  let power := max (if long then guess + 1 else guess) (-1074)
  (roundDiv (num * Nat.pow 2 (-power).toNat) (den * Nat.pow 2 power.toNat), power)

/-- The quotient of two whole numbers, rounded once. -/
def divideInts (a b : Int) : Result Float :=
  if b = 0 then .error .divisionByZero
  else if a = 0 then .ok (if b < 0 then -0.0 else 0.0)
  else
    let (mantissa, power) := nearestQuotient a.natAbs b.natAbs
    let size := Float.scaleB (Float.ofNat mantissa) power
    if size.isInf then .error .tooLarge
    else .ok (if decide (a < 0) == decide (b < 0) then size else -size)

/-- The quotient of two numbers; there is none by zero. -/
def divide : Number → Number → Result Float
  | int a, int b => divideInts a b
  | a, b => do
      let x ← a.toReal?
      let y ← b.toReal?
      if y == 0.0 then throw .divisionByZero
      return x / y

end Number

end Wayfare
