import Wayfare.Text.Case
import Wayfare.Text.WordTable

/-! # Keywords

A keyword is found in a text whatever the case of its letters. Keywords in the
Latin alphabet have to stand there as whole words, perhaps in the plural; other
keywords match anywhere, since some scripts write compounds without spaces.
-/

namespace Wayfare.Category

open Wayfare.Text

/-- A list of keywords in lower case, the longest first. -/
structure Keywords where
  /-- Those that match as whole words. -/
  latin : List (List Char)
  /-- Those that match anywhere. -/
  other : List (List Char)
  deriving DecidableEq, Repr

/-- Sorts keywords by where they may match; empty ones match nowhere. -/
def Keywords.ofList (words : List String) : Keywords :=
  let keys := ((words.filter (!·.isEmpty)).map fun w => (lower w).toList).eraseDups
  let sorted := keys.mergeSort fun a b => b.length ≤ a.length
  let ascii := fun (w : List Char) => w.all fun c => decide (c.toNat < 128)
  ⟨sorted.filter ascii, sorted.filter fun w => !ascii w⟩

/-- Whether a word begins or ends between a character and the text after it. -/
def isBoundary (before : Option Char) (after : List Char) : Bool :=
  (before.map isWordChar).getD false != (after.head?.map isWordChar).getD false

/-- Whether a text begins with a word, whatever the case of the letters. -/
def startsWith : List Char → List Char → Bool
  | [], _ => true
  | _ :: _, [] => false
  | w :: ws, c :: cs => sameLetter w c && startsWith ws cs

/-- Whether a text begins with a word that ends where the text has a boundary. -/
def startsWithWhole (word text : List Char) : Bool :=
  startsWith word text && isBoundary (text.take word.length).getLast? (text.drop word.length)

/-- The endings of a plural, and none; the longest first. -/
def endings : List (List Char) :=
  [['e', 's'], ['s'], []]

/-- The forms of the whole-word keywords, in the order in which they are tried. -/
def Keywords.forms (k : Keywords) : List (List Char) :=
  k.latin.flatMap fun w => endings.map fun e => w ++ e

/-- The length of the match at the front of a text, given the character before it. -/
def Keywords.matchAt (k : Keywords) (before : Option Char) (text : List Char) : Option Nat :=
  let whole :=
    if isBoundary before text then k.forms.find? fun w => startsWithWhole w text else none
  (whole <|> k.other.find? fun w => startsWith w text).map List.length

/-- The first match in a text whose front is at `position`. -/
def Keywords.findFrom (k : Keywords) (position : Nat) (before : Option Char) :
    List Char → Option (Nat × Nat)
  | [] => none
  | c :: cs =>
      match k.matchAt before (c :: cs) with
      | some n => some (position, position + n)
      | none => k.findFrom (position + 1) (some c) cs

def Keywords.find? (k : Keywords) (text : String) : Option (Nat × Nat) :=
  k.findFrom 0 none text.toList

def Keywords.occursIn (k : Keywords) (text : String) : Bool :=
  (k.find? text).isSome

end Wayfare.Category
