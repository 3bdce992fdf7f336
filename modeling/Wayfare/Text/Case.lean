import Wayfare.Text.CaseTable

/-! # Letter case

Lower-casing of whole texts, and comparison of single letters that ignores
case.
-/

namespace Wayfare.Text

/-- The lower-case letter of a run of upper-case letters, if the code point is in the run. -/
def lowerInRun (n : Nat) (run : Nat × Nat × Nat × Int) : Option Nat :=
  let (first, last, step, delta) := run
  if first ≤ n && n ≤ last && (n - first) % step == 0 then some (Int.ofNat n + delta).toNat
  else none

/-- The lower-case form of a single letter; any other character is its own. -/
def lowerChar (c : Char) : Char :=
  if c.toNat < 128 then c.toLower
  else ((lowerRuns.findSome? (lowerInRun c.toNat)).map Char.ofNat).getD c

def isCased (c : Char) : Bool :=
  casedRanges.has c

/-- Whether a character, such as an accent, is passed over when looking for the end of a word. -/
def isCaseIgnorable (c : Char) : Bool :=
  ignorableRanges.has c

/-- Whether the next character that is not passed over is a letter with case. -/
def meetsCased (cs : List Char) : Bool :=
  match cs.dropWhile isCaseIgnorable with
  | [] => false
  | c :: _ => isCased c

/-- Lower-cases the rest of a text; `seen` is what came before it, in reverse. A capital sigma at the
end of a word becomes the final sigma, and a capital I with a dot keeps the dot as an accent. -/
def lowerFrom (seen : List Char) : List Char → List Char
  | [] => []
  | c :: rest =>
      let low :=
        if c == 'Σ' then
          if meetsCased seen && !meetsCased rest then ['ς'] else ['σ']
        else if c == 'İ' then ['i', '\u0307']
        else [lowerChar c]
      low ++ lowerFrom (c :: seen) rest

def lower (s : String) : String :=
  String.ofList (lowerFrom [] s.toList)

/-- Whether a character of a text stands for a letter when case is ignored. -/
def sameLetter (letter c : Char) : Bool :=
  let key := lowerChar letter
  let low := lowerChar c
  low == key ||
    ((letterVariants.find? fun row => row.1 == key.toNat).map
      fun row => row.2.contains low.toNat).getD false

/-- Characters outside the Latin alphabet whose capitals are Latin letters. -/
def latinCapitals : List (Char × String) :=
  [('ı', "I"), ('ſ', "S"), ('ß', "SS"), ('ﬀ', "FF"), ('ﬁ', "FI"), ('ﬂ', "FL"), ('ﬃ', "FFI"),
   ('ﬄ', "FFL"), ('ﬅ', "ST"), ('ﬆ', "ST")]

/-- Capitals of a text as far as they are Latin letters; every other character stays. -/
def upperLatin (s : String) : String :=
  String.ofList <| s.toList.flatMap fun c =>
    match latinCapitals.lookup c with
    | some capital => capital.toList
    | none => [c.toUpper]

def occursIn (part whole : List Char) : Bool :=
  match whole with
  | [] => part.isEmpty
  | _ :: rest => part.isPrefixOf whole || occursIn part rest

end Wayfare.Text
