import Wayfare.Place
import Wayfare.Text.Blank
import Wayfare.Text.Case
import Wayfare.Validation

/-! # The pool

The places from which candidates are taken, in stored order. A query names a
region and keywords and takes as many places as it is allowed. Places are looked
at one by one until there are enough, and what a place turns out to hold matters
only when it is looked at; an entry of the pool can even be empty.
-/

namespace Wayfare

open Wayfare.Text

/-- The places on offer. -/
abbrev Pool := List (Option Place)

namespace Pool

/-- A text without white space around it and in lower case. -/
def folded (s : String) : String :=
  lower (trim s)

/-- Whether a place lies in a region: by its region if that is given, else by its address. -/
def inRegion (region : String) (p : Place) : Result Bool := do
  match ← p.region.givenText? with
  | some own => return folded own == folded region
  | none => do
      let address := (← p.address.givenText?).getD ""
      return occursIn (folded region).toList (lower address).toList

/-- Whether a category text holds one of some keywords; no keywords ask for nothing. -/
def hasKeyword (keywords : List String) (category : String) : Bool :=
  let given := (keywords.filter (!·.isEmpty)).map lower
  let text := (lower category).toList
  given.isEmpty || given.any fun k => occursIn k.toList text

/-- Whether a place is one that a query asks for. The category is looked at only in the region. -/
def answers (region : String) (keywords : List String) (p : Place) : Result Bool := do
  if ← inRegion region p then return hasKeyword keywords (← p.readCategory) else return false

/-- The first `room` places that a query asks for. -/
def search (region : String) (keywords : List String) : Nat → Pool → Result (List Place)
  | 0, _ => .ok []
  | _, [] => .ok []
  | _, none :: _ => .error .missingMember
  | room + 1, some p :: rest => do
      if ← answers region keywords p then return p :: (← search region keywords room rest)
      else search region keywords (room + 1) rest

/-- The first `limit` places of a region with one of the keywords. No place lies in a blank region. -/
def query (pool : Pool) (region : String) (keywords : List String) (limit : Nat) :
    Result (List Place) :=
  if (folded region).isEmpty then .ok [] else search region keywords limit pool

/-- The answer to a query whose parts can be anything. Without room nothing else is looked at, and the
region only when there is a place. -/
def queryWith (pool : Pool) (region keywords : Value) (limit : Number) : Result (List Place) :=
  if limit ≤ .int 0 then .ok []
  else do
    let keywords ← Value.givenTexts (← Validation.entries keywords)
    match region, pool with
    | _, [] => return []
    | .text region, _ => query pool region keywords (limit.ceiling?.getD Value.plenty).toNat
    | _, _ => throw .missingMember

end Pool

end Wayfare
