import Wayfare.Value

/-! # Writing values as JSON

One line of JSON per value: a space after each comma and colon, characters
beyond ASCII as they are. A moment is written as the text shown to people.
-/

namespace Wayfare.Value

open Wayfare.Calendar

def jsonChar (c : Char) : List Char :=
  if c == '"' || c == '\\' then ['\\', c]
  else if c == '\n' then ['\\', 'n']
  else if c == '\r' then ['\\', 'r']
  else if c == '\t' then ['\\', 't']
  else if c == '\x08' then ['\\', 'b']
  else if c == '\x0c' then ['\\', 'f']
  else if c.toNat < 32 then '\\' :: 'u' :: Text.hexadecimal 4 c.toNat
  else [c]

def jsonText (s : String) : List Char :=
  '"' :: s.toList.flatMap jsonChar ++ ['"']

/-- A JSON number, with words for what no number can say. -/
def jsonReal (x : Float) : List Char :=
  match Decimal.Binary.ofFloat x with
  | .notANumber => "NaN".toList
  | .infinite negative => (if negative then "-Infinity" else "Infinity").toList
  | .finite _ _ _ => (Decimal.shortest x).toList

def jsonJoin : List (List Char) → List Char
  | [] => []
  | [part] => part
  | part :: rest => part ++ ',' :: ' ' :: jsonJoin rest

mutual

def json : Value → List Char
  | null => "null".toList
  | bool b => (if b then "true" else "false").toList
  | int n => (toString n).toList
  | real x => jsonReal x
  | text s => jsonText s
  | list items => '[' :: jsonJoin (jsonItems items) ++ [']']
  | record fields => '\x7b' :: jsonJoin (jsonFields fields) ++ ['\x7d']
  | moment m => jsonText m.display

def jsonItems : List Value → List (List Char)
  | [] => []
  | v :: rest => json v :: jsonItems rest

def jsonFields : List (String × Value) → List (List Char)
  | [] => []
  | (name, v) :: rest => (jsonText name ++ ':' :: ' ' :: json v) :: jsonFields rest

end

def toJson (v : Value) : String :=
  String.ofList v.json

end Wayfare.Value
