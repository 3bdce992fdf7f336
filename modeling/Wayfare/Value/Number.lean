import Wayfare.Number
import Wayfare.Value
import Wayfare.Decimal.Numeral

/-! # Values as numbers

A number field accepts any kind of number, a truth value as one or zero, and a
text that reads as a number.
-/

namespace Wayfare.Value

/-- A whole number as the nearest real one, if it is in range. -/
def realOfInt (n : Int) : Result Float :=
  let x := Float.ofInt n
  if x.isInf then .error .tooLarge else .ok x

def intOfReal (x : Float) : Result Int :=
  if x.isNaN then .error .unreadable
  else Result.ofOption .tooLarge (Decimal.wholePart? x)

def toReal : Value → Result Float
  | bool b => .ok (if b then 1.0 else 0.0)
  | int n => realOfInt n
  | real x => .ok x
  | text s => Result.ofOption .unreadable (Decimal.readReal s)
  | _ => .error .wrongKind

/-- A value as a whole number; a real number loses its fraction. -/
def toInt : Value → Result Int
  | bool b => .ok (if b then 1 else 0)
  | int n => .ok n
  | real x => intOfReal x
  | text s => Result.ofOption .unreadable (Decimal.readInt s)
  | _ => .error .wrongKind

/-- A number as it is; a truth value counts as one or zero. -/
def number? : Value → Option Number
  | bool b => some (.int (if b then 1 else 0))
  | int n => some (.int n)
  | real x => some (.real x)
  | _ => none

/-- A number that takes part in a computation as it is: no text is read. -/
def asNumber (v : Value) : Result Number :=
  Result.ofOption .wrongKind v.number?

/-- A number that takes part in a computation as a real one. -/
def asReal (v : Value) : Result Float := do
  (← v.asNumber).toReal?

def ofNumber : Number → Value
  | .int n => int n
  | .real x => real x

/-- A whole number that takes part in a computation as it is. -/
def asInt : Value → Result Int
  | bool b => .ok (if b then 1 else 0)
  | int n => .ok n
  | _ => .error .wrongKind

/-- A text, or nothing. -/
def asText? : Value → Result (Option String)
  | null => .ok none
  | text s => .ok (some s)
  | _ => .error .wrongKind

/-- A number, or nothing. -/
def asReal? : Value → Result (Option Float)
  | null => .ok none
  | v => some <$> v.asReal

/-- A number, zero when it counts as not given; anything else is a fault. -/
def numberOrZero (v : Value) : Result Number :=
  if v.isTruthy then v.asNumber else .ok (.int 0)

/-- A number that is only compared: a whole number beyond all range is greater or less than all others. -/
def asMagnitude (v : Value) : Result Float :=
  Number.toReal <$> v.asNumber

/-- How often something is done that is done at least once. A number of at most one stands for one, and a
real number above one cannot be counted to. -/
def asRepeats (v : Value) : Result Int := do
  match ← v.asNumber with
  | .int n => return max 1 n
  | .real x => if 1.0 < x then throw .wrongKind else return 1

/-- How many of the first items are taken. A number of at most zero stands for none, and a real number
above zero cannot be counted to. -/
def asCut (v : Value) : Result Nat := do
  match ← v.asNumber with
  | .int n => return n.toNat
  | .real x => if 0.0 < x then throw .wrongKind else return 0

def plenty : Int := 1000000000000000000

/-- Up to how many entries there is room: up to a number that is not whole there is room for one entry
more than the whole numbers below it. Nothing is at least what stands for no number. -/
def asCapacity (v : Value) : Result Int := do
  let n ← v.asNumber
  return match n.ceiling? with
    | some c => c
    | none => if n ≤ .int 0 then 0 else plenty

/-- The text that a value is, empty when it is none. -/
def textOrEmpty : Value → String
  | text s => s
  | _ => ""

/-- A text, or nothing when a value counts as not given; any other value is a fault. -/
def givenText? (v : Value) : Result (Option String) :=
  if !v.isTruthy then .ok none
  else
    match v with
    | text s => .ok (some s)
    | _ => .error .missingMember

/-- The texts among some items; items that count as not given are left out, and any other is a fault. -/
def givenTexts (items : List Value) : Result (List String) :=
  (items.filter isTruthy).mapM fun
    | text s => .ok s
    | _ => .error .missingMember

mutual

/-- Whether two values are equal. Two numbers of different kinds are equal when they stand for the same
number; the real number that stands for none equals itself. -/
def same : Value → Value → Bool
  | null, null => true
  | text a, text b => a == b
  | moment a, moment b => a.same b
  | list a, list b => sameItems a b
  | record a, record b => a.length == b.length && sameFields a b
  | bool a, bool b => a == b
  | int a, int b => a == b
  | real a, real b => a == b || (a.isNaN && b.isNaN)
  | bool a, int b => (if a then 1 else 0) == b
  | int a, bool b => a == (if b then 1 else 0)
  | bool a, real b => (if a then 1.0 else 0.0) == b
  | real a, bool b => a == (if b then 1.0 else 0.0)
  | int a, real b => Decimal.wholePart? b == some a && Float.ofInt a == b
  | real a, int b => Decimal.wholePart? a == some b && Float.ofInt b == a
  | _, _ => false

def sameItems : List Value → List Value → Bool
  | [], [] => true
  | a :: as, b :: bs => same a b && sameItems as bs
  | _, _ => false

/-- Whether a record has all fields of another, with equal values. -/
def sameFields : List (String × Value) → List (String × Value) → Bool
  | [], _ => true
  | (name, a) :: as, bs =>
      (match bs.lookup name with
        | some b => same a b
        | none => false) && sameFields as bs

end

instance instBEqValue : BEq Value := ⟨same⟩

/-- Whether two values can be ordered: both are numbers, both are texts, or both are moments that can be
ordered. -/
def comparable : Value → Value → Bool
  | text _, text _ => true
  | moment a, moment b => a.comparable b
  | a, b => a.number?.isSome && b.number?.isSome

def isBelow : Value → Value → Bool
  | text a, text b => decide (a < b)
  | moment a, moment b => decide (a.instant < b.instant)
  | a, b =>
      match a.number?, b.number? with
      | some m, some n => decide (m < n)
      | _, _ => false

/-- Whether each value of a list can be ordered with the one after it. -/
def areComparable : List Value → Bool
  | a :: b :: rest => comparable a b && areComparable (b :: rest)
  | _ => true

/-- Sorts items by a value of each; equal ones keep their order. Values that cannot be ordered are a
fault. -/
def sortBy {α : Type} (key : α → Value) (items : List α) : Result (List α) :=
  if areComparable (items.map key) then
    .ok (items.mergeSort fun a b => !isBelow (key b) (key a))
  else .error .wrongKind

end Wayfare.Value

namespace Wayfare.Fields

def onlyNamed (fields : Fields) (names : List String) : Result Unit :=
  if fields.all fun f => names.contains f.1 then .ok () else .error .wrongKind

end Wayfare.Fields
