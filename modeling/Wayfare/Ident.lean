import Wayfare.Value.Number

/-! # Identifiers

An identifier tells entries apart. It is nearly always a text, but numbers
serve as well; two numbers that stand for the same are the same identifier, of
whatever kind they are. Lists and records identify nothing.
-/

namespace Wayfare

/-- What tells entries apart. -/
inductive Ident where
  | absent
  | whole (n : Int)
  /-- A real number that stands for no whole one, by its bits. -/
  | other (bits : UInt64)
  | text (s : String)
  deriving DecidableEq, Repr

namespace Ident

def ofNumber (n : Number) : Ident :=
  match n.whole? with
  | some m => whole m
  | none => other n.toReal.toBits

def number? : Ident → Option Number
  | whole n => some (.int n)
  | other bits => some (.real (Float.ofBits bits))
  | _ => none

/-- Whether an identifier comes before another: numbers by what they stand for, then texts. -/
def isBelow : Ident → Ident → Bool
  | text a, text b => decide (a < b)
  | text _, _ => false
  | _, text _ => true
  | a, b =>
      match a.number?, b.number? with
      | some m, some n => decide (m < n)
      | m, n => m.isNone && n.isSome

def isText : Ident → Bool
  | text _ => true
  | _ => false

/-- Whether lists of identifiers can be ordered: where they differ first, both have a text or neither
has. -/
def areOrdered : List Ident → List Ident → Bool
  | a :: as, b :: bs => if a = b then areOrdered as bs else a.isText == b.isText
  | _, _ => true

instance instLTIdent : LT Ident := ⟨fun a b => a.isBelow b = true⟩

instance instDecidableLTIdent : DecidableLT Ident := fun a b =>
  inferInstanceAs (Decidable (a.isBelow b = true))

end Ident

/-- The identifier that a value is, if it is one. -/
def Value.ident? : Value → Option Ident
  | .null => some .absent
  | .text s => some (.text s)
  | v => v.number?.map Ident.ofNumber

end Wayfare
