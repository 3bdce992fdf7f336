/-! # Time blocks

A day is divided into six named blocks. Each covers some hours of the clock;
the night belongs to the first and the last of them.
-/

namespace Wayfare

/-- A named part of a day. -/
inductive Block where
  | breakfast
  | morning
  | lunch
  | afternoon
  | dinner
  | evening
  deriving DecidableEq, Repr

namespace Block

/-- The blocks in the order of the day. -/
def all : List Block :=
  [breakfast, morning, lunch, afternoon, dinner, evening]

def name : Block → String
  | breakfast => "BREAKFAST"
  | morning => "MORNING_ACTIVITY"
  | lunch => "LUNCH"
  | afternoon => "AFTERNOON_ACTIVITY"
  | dinner => "DINNER"
  | evening => "EVENING_ACTIVITY"

def label : Block → String
  | breakfast => "breakfast"
  | morning => "morning_activity"
  | lunch => "lunch"
  | afternoon => "afternoon_activity"
  | dinner => "dinner"
  | evening => "evening_activity"

def startHour : Block → Nat
  | breakfast => 7
  | morning => 9
  | lunch => 12
  | afternoon => 14
  | dinner => 18
  | evening => 20

def endHour : Block → Nat
  | breakfast => 9
  | morning => 12
  | lunch => 14
  | afternoon => 18
  | dinner => 20
  | evening => 22

/-- Whether an hour of the clock lies in a block. -/
def covers (b : Block) (hour : Int) : Bool :=
  decide (Int.ofNat b.startHour ≤ hour) && decide (hour < Int.ofNat b.endHour)

/-- The block of an hour: hours before the first block count to it, later ones to the last. -/
def ofHour (hour : Int) : Block :=
  match all.find? (·.covers hour) with
  | some b => b
  | none => if hour < 7 then breakfast else evening

def ofName? (s : String) : Option Block :=
  all.find? (·.name == s)

end Block

/-- Something for each block of a day. -/
structure PerBlock (α : Type) where
  breakfast : α
  morning : α
  lunch : α
  afternoon : α
  dinner : α
  evening : α
  deriving Repr

namespace PerBlock

variable {α β : Type}

def get (p : PerBlock α) : Block → α
  | .breakfast => p.breakfast
  | .morning => p.morning
  | .lunch => p.lunch
  | .afternoon => p.afternoon
  | .dinner => p.dinner
  | .evening => p.evening

def ofFn (f : Block → α) : PerBlock α :=
  ⟨f .breakfast, f .morning, f .lunch, f .afternoon, f .dinner, f .evening⟩

def modify (p : PerBlock α) (b : Block) (f : α → α) : PerBlock α :=
  ofFn fun c => if c = b then f (p.get c) else p.get c

@[simp] theorem get_ofFn (f : Block → α) (b : Block) : (ofFn f).get b = f b := by
  cases b <;> rfl

theorem get_modify (p : PerBlock α) (b c : Block) (f : α → α) :
    (p.modify b f).get c = if c = b then f (p.get c) else p.get c :=
  get_ofFn _ _

/-- What belongs to the blocks, in the order of the day. -/
def toList (p : PerBlock α) : List α :=
  Block.all.map p.get

end PerBlock

end Wayfare
