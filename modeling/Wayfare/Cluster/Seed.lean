import Wayfare.Cluster.Digest
import Wayfare.Value.Number

/-! # Seeds

A generator is seeded by a whole number. Other values are turned into one: a
real number by what it leaves when divided by a prime, a text by its bytes and
their digest.
-/

namespace Wayfare.Cluster

open Wayfare.Decimal

/-- The prime by which real numbers are divided. -/
def modulus : Nat := 2305843009213693951

/-- What a number of so many bits and a power of two leaves: a power of two comes round after 61
steps. -/
def residue (mantissa : Nat) (power : Int) : Nat :=
  mantissa * Nat.pow 2 (power.emod 61).toNat % modulus

/-- The number in whose place negative one stands. -/
def wordSize : Int := 18446744073709551616

/-- A number of either sign as a seed. Nothing is seeded by negative one. -/
def wrapped (n : Int) : Int :=
  if n = -1 then wordSize - 2 else if n < 0 then wordSize + n else n

/-- The seed of a real number; the infinite ones have one of their own. -/
def seedOfReal (x : Float) : Int :=
  match Binary.ofFloat x with
  | .notANumber => 0
  | .infinite negative => wrapped (if negative then -314159 else 314159)
  | .finite negative m e =>
      let r := Int.ofNat (residue m e)
      wrapped (if negative then -r else r)

def seedOfText (s : String) : Int :=
  let bytes := s.toUTF8.toList.map (·.toNat)
  Int.ofNat (Digest.numberOf (bytes ++ Digest.ofBytes bytes))

def readSeed : Value → Result Int
  | .null => .ok 0
  | .bool b => .ok (if b then 1 else 0)
  | .int n => .ok n
  | .real x => .ok (seedOfReal x)
  | .text s => .ok (seedOfText s)
  | _ => .error .wrongKind

end Wayfare.Cluster
