/-! # Digests

A digest turns bytes into eight words of 64 bits each, so that other bytes almost
surely give other words. The bytes are filled up to blocks of 128, and every
block stirs the words in eighty rounds. The constants are fractions of roots of
prime numbers.
-/

namespace Wayfare.Cluster.Digest

/-- The prime numbers whose roots give the constants. -/
def primes : List Nat :=
  (List.range 410).filter fun n =>
    decide (2 ≤ n) && (List.range n).all fun d => decide (d < 2) || n % d != 0

/-- The greatest number whose power is not above `n`, among those that add to `r` less than two to the
given number of bits. -/
def rootFrom (degree n : Nat) : Nat → Nat → Nat
  | 0, r => r
  | bits + 1, r =>
      let larger := r + Nat.pow 2 bits
      rootFrom degree n bits (if Nat.pow larger degree ≤ n then larger else r)

/-- The first 64 bits of the fraction of a root. -/
def rootFraction (degree n : Nat) : UInt64 :=
  UInt64.ofNat (rootFrom degree (n * Nat.pow 2 (64 * degree)) 72 0)

def initial : Array UInt64 :=
  ((primes.take 8).map (rootFraction 2)).toArray

def roundConstants : Array UInt64 :=
  (primes.map (rootFraction 3)).toArray

def turn (x : UInt64) (n : UInt64) : UInt64 :=
  (x >>> n) ||| (x <<< (64 - n))

/-- The bytes of a number, the highest first. -/
def bytesOf (n : Nat) : Nat → List Nat
  | 0 => []
  | k + 1 => n / Nat.pow 256 k % 256 :: bytesOf n k

/-- The number of some bytes, the highest first. -/
def numberOf (bytes : List Nat) : Nat :=
  bytes.foldl (fun n b => n * 256 + b) 0

/-- Bytes filled up to whole blocks: a mark, zeros, and the number of bits. -/
def filled (bytes : List Nat) : List Nat :=
  let zeros := (239 - bytes.length % 128) % 128
  bytes ++ 128 :: List.replicate zeros 0 ++ bytesOf (8 * bytes.length) 16

def chunks (size : Nat) : Nat → List Nat → List (List Nat)
  | 0, _ => []
  | count + 1, bytes => bytes.take size :: chunks size count (bytes.drop size)

def schedule (block : List Nat) : Array UInt64 :=
  let first := ((chunks 8 16 block).map fun w => UInt64.ofNat (numberOf w)).toArray
  (List.range 64).foldl
    (fun words i =>
      let near := words.getD (i + 1) 0
      let far := words.getD (i + 14) 0
      words.push (words.getD i 0 + (turn near 1 ^^^ turn near 8 ^^^ (near >>> 7)) +
        words.getD (i + 9) 0 + (turn far 19 ^^^ turn far 61 ^^^ (far >>> 6))))
    first

/-- One round: the words move on by one place, and two of them are stirred. -/
def round (input : UInt64) (words : Array UInt64) : Array UInt64 :=
  let a := words.getD 0 0
  let e := words.getD 4 0
  let choice := (e &&& words.getD 5 0) ^^^ ((~~~e) &&& words.getD 6 0)
  let majority := (a &&& words.getD 1 0) ^^^ (a &&& words.getD 2 0) ^^^
    (words.getD 1 0 &&& words.getD 2 0)
  let stirred := words.getD 7 0 + (turn e 14 ^^^ turn e 18 ^^^ turn e 41) + choice + input
  let sum := stirred + (turn a 28 ^^^ turn a 34 ^^^ turn a 39) + majority
  #[sum, a, words.getD 1 0, words.getD 2 0, words.getD 3 0 + stirred, e, words.getD 5 0,
    words.getD 6 0]

def absorb (words : Array UInt64) (block : List Nat) : Array UInt64 :=
  let inputs := (schedule block).toList.zip roundConstants.toList
  let stirred := inputs.foldl (fun w (x, k) => round (x + k) w) words
  ((words.toList.zip stirred.toList).map fun (x, y) => x + y).toArray

/-- The digest of some bytes, as bytes. -/
def ofBytes (bytes : List Nat) : List Nat :=
  let whole := filled bytes
  let words := (chunks 128 (whole.length / 128) whole).foldl absorb initial
  words.toList.flatMap fun w => bytesOf w.toNat 8

end Wayfare.Cluster.Digest
