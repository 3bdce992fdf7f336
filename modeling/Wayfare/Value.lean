import Wayfare.Calendar.Moment
import Wayfare.Decimal.Shortest
import Wayfare.Entries
import Wayfare.Text.Quoted

/-! # Values

A field of an incoming record can hold anything. Records are read, checked and
quoted in messages as values; the types of the planner proper come after that.
-/

namespace Wayfare

open Wayfare.Calendar

/-- What a field of a record can hold. -/
inductive Value where
  | null
  | bool (b : Bool)
  | int (n : Int)
  | real (x : Float)
  | text (s : String)
  | list (items : List Value)
  | record (fields : List (String × Value))
  | moment (time : Moment)

instance : Inhabited Value := ⟨.null⟩

/-- The fields of a record in the order in which they were given. -/
abbrev Fields := List (String × Value)

namespace Value

/-- The names of the kinds of value, as messages give them. -/
def kindName : Value → String
  | null => "NoneType"
  | bool _ => "bool"
  | int _ => "int"
  | real _ => "float"
  | text _ => "str"
  | list _ => "list"
  | record _ => "dict"
  | moment _ => "datetime"

def isNull : Value → Bool
  | null => true
  | _ => false

theorem eq_null_of_isNull {v : Value} (h : v.isNull = true) : v = .null := by
  cases v with
  | null => rfl
  | bool | int | real | text | list | record | moment => cases h

/-- Whether a value counts as given: neither absent, nor false, nor zero, nor empty. -/
def isTruthy : Value → Bool
  | null => false
  | bool b => b
  | int n => n != 0
  | real x => x != 0.0
  | text s => !s.isEmpty
  | list items => !items.isEmpty
  | record fields => !fields.isEmpty
  | moment _ => true

mutual

def quoted : Value → String
  | null => "None"
  | bool b => if b then "True" else "False"
  | int n => toString n
  | real x => Decimal.shortest x
  | text s => Text.quoted s
  | list items => "[" ++ ", ".intercalate (quotedItems items) ++ "]"
  | record fields => "\x7b" ++ ", ".intercalate (quotedFields fields) ++ "\x7d"
  | moment m => m.quoted

def quotedItems : List Value → List String
  | [] => []
  | v :: rest => quoted v :: quotedItems rest

def quotedFields : List (String × Value) → List String
  | [] => []
  | (name, v) :: rest => (Text.quoted name ++ ": " ++ quoted v) :: quotedFields rest

end

theorem quotedItems_eq_map (items : List Value) : quotedItems items = items.map quoted := by
  induction items with
  | nil => rfl
  | cons v rest ih => rw [quotedItems, ih, List.map_cons]

/-- A value as it reads on its own: texts and moments without quotes. -/
def display : Value → String
  | text s => s
  | moment m => m.display
  | v => v.quoted

/-- An optional value, absent when there is none. -/
def ofOption {α : Type} (f : α → Value) : Option α → Value
  | some a => f a
  | none => null

def ofText? (s : Option String) : Value :=
  ofOption text s

end Value

namespace Fields

/-- The value of a field, absent when the record lacks it. -/
def field (fields : Fields) (name : String) : Value :=
  (fields.lookup name).getD .null

/-- Sets a field: in its old place if the record has it, at the end otherwise. -/
def set (fields : Fields) (name : String) (v : Value) : Fields :=
  changeEntry name (fun _ => v) fields

@[simp] theorem field_set (fields : Fields) (name : String) (v : Value) :
    (fields.set name v).field name = v := by
  simp [set, field]

theorem field_set_of_ne {name other : String} (h : other ≠ name) (fields : Fields) (v : Value) :
    (fields.set name v).field other = fields.field other := by
  simp [set, field, lookup_changeEntry_of_ne h]

end Fields

end Wayfare
