/-! # A seeded generator

A generator of uniform numbers with a state of 624 words and a period of
2 ^ 19937 - 1. The same seed always gives the same numbers.
-/

namespace Wayfare.Cluster

/-- The state of the generator: its words, and how many of them are used up. -/
structure Twister where
  words : Array UInt32
  used : Nat

namespace Twister

def size : Nat := 624

def stir (previous : UInt32) : UInt32 :=
  previous ^^^ (previous >>> 30)

def sown (seed : UInt32) : Array UInt32 :=
  (List.range (size - 1)).foldl
    (fun words i =>
      words.push (1812433253 * stir (words.getD i 0) + UInt32.ofNat (i + 1)))
    #[seed]

/-- One step of mixing: the words and the position of the next one to be changed. -/
def mix (change : UInt32 → UInt32 → UInt32) (state : Array UInt32 × Nat) : Array UInt32 × Nat :=
  let (words, i) := state
  let words := words.setIfInBounds i (change (words.getD i 0) (stir (words.getD (i - 1) 0)))
  if i + 1 < size then (words, i + 1)
  else (words.setIfInBounds 0 (words.getD (size - 1) 0), 1)

/-- The state that grows from a key of several words. -/
def ofKey (key : Array UInt32) : Twister :=
  let steps := max size key.size
  let first := (List.range steps).foldl
    (fun state n =>
      let j := n % key.size
      mix (fun word previous => (word ^^^ (previous * 1664525)) + key.getD j 0 + UInt32.ofNat j)
        state)
    (sown 19650218, 1)
  let second := (List.range (size - 1)).foldl
    (fun state _ =>
      mix (fun word previous => (word ^^^ (previous * 1566083941)) - UInt32.ofNat state.2) state)
    first
  ⟨second.1.setIfInBounds 0 0x80000000, size⟩

def wordCount : Nat := 4294967296

/-- The digits of a number to the base of a word, the lowest first. -/
def limbs : Nat → Nat → List UInt32
  | 0, _ => []
  | fuel + 1, n =>
      if n < wordCount then [UInt32.ofNat n]
      else UInt32.ofNat (n % wordCount) :: limbs fuel (n / wordCount)

/-- The generator of a seed; its sign does not matter. -/
def ofSeed (seed : Int) : Twister :=
  ofKey (limbs (seed.natAbs.log2 / 32 + 1) seed.natAbs).toArray

/-- The next state's word from three words of this one. -/
def twist (word next far : UInt32) : UInt32 :=
  let y := (word &&& 0x80000000) ||| (next &&& 0x7fffffff)
  far ^^^ (y >>> 1) ^^^ (if y &&& 1 == 0 then 0 else 0x9908b0df)

def renewed (words : Array UInt32) : Array UInt32 :=
  (List.range size).foldl
    (fun words i =>
      words.setIfInBounds i
        (twist (words.getD i 0) (words.getD ((i + 1) % size) 0) (words.getD ((i + 397) % size) 0)))
    words

def temper (y : UInt32) : UInt32 :=
  let y := y ^^^ (y >>> 11)
  let y := y ^^^ ((y <<< 7) &&& 0x9d2c5680)
  let y := y ^^^ ((y <<< 15) &&& 0xefc60000)
  y ^^^ (y >>> 18)

def next (t : Twister) : UInt32 × Twister :=
  let t := if t.used < size then t else ⟨renewed t.words, 0⟩
  (temper (t.words.getD t.used 0), ⟨t.words, t.used + 1⟩)

/-- The next number from zero to less than one, with 53 random bits. -/
def nextReal (t : Twister) : Float × Twister :=
  let (a, t) := t.next
  let (b, t) := t.next
  let high := Float.ofNat (a >>> 5).toNat
  let low := Float.ofNat (b >>> 6).toNat
  ((high * 67108864.0 + low) / 9007199254740992.0, t)

/-- The next number below `n`: as many bits as `n` has, drawn again as long as they are too large. -/
def nextBelow (n : Nat) : Nat → Twister → Nat × Twister
  | 0, t => (0, t)
  | tries + 1, t =>
      let (word, t) := t.next
      -- The leading bits of the word are taken, not the trailing ones.
      let r := word.toNat / Nat.pow 2 (31 - n.log2)
      if r < n then (r, t) else nextBelow n tries t

/-- How often a number that is too large is drawn again. -/
def maxTries : Nat := 100000

/-- A position in a list of `n` items, all equally likely; nothing is drawn for an empty list. -/
def choose (n : Nat) (t : Twister) : Nat × Twister :=
  if n = 0 then (0, t) else nextBelow n maxTries t

end Twister

end Wayfare.Cluster
