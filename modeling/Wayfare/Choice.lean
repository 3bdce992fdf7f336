/-! # Choosing from a list

A choice splits a list at one of its members. The list is gone through from the
first to the last, and the choice moves on only to a member that is better, so
of equally good ones the first is chosen.
-/

namespace Wayfare

variable {P α : Type}

/-- A member of a list with what stands before and after it. -/
structure Choice (P : Type) where
  before : List P
  best : P
  after : List P

namespace Choice

/-- The members of the list that were not chosen, in order. -/
def others (c : Choice P) : List P :=
  c.before ++ c.after

/-- Goes on to one more member, which is chosen if it is better than the choice so far. -/
def step (better : P → P → Bool) (c : Choice P) (x : P) : Choice P :=
  if better x c.best then ⟨c.before ++ c.best :: c.after, x, []⟩
  else ⟨c.before, c.best, c.after ++ [x]⟩

/-- The choice from a first member and the rest of a list. -/
def first (better : P → P → Bool) (x : P) (rest : List P) : Choice P :=
  rest.foldl (step better) ⟨[], x, []⟩

def least [LT α] [DecidableLT α] (key : P → α) (x : P) (rest : List P) : Choice P :=
  first (fun a b => decide (key a < key b)) x rest

def greatest [LT α] [DecidableLT α] (key : P → α) (x : P) (rest : List P) : Choice P :=
  first (fun a b => decide (key b < key a)) x rest

def toList (c : Choice P) : List P :=
  c.before ++ c.best :: c.after

@[simp] theorem toList_step (better : P → P → Bool) (c : Choice P) (x : P) :
    (step better c x).toList = c.toList ++ [x] := by
  unfold step
  split <;> simp [toList]

theorem toList_foldl (better : P → P → Bool) (rest : List P) (c : Choice P) :
    (rest.foldl (step better) c).toList = c.toList ++ rest := by
  induction rest generalizing c with
  | nil => simp
  | cons x rest ih => simp [ih]

/-- A choice loses nothing and keeps the order. -/
@[simp] theorem toList_first (better : P → P → Bool) (x : P) (rest : List P) :
    (first better x rest).toList = x :: rest := by
  rw [first, toList_foldl]
  rfl

@[simp] theorem length_others_first (better : P → P → Bool) (x : P) (rest : List P) :
    (first better x rest).others.length = rest.length := by
  have h := congrArg List.length (toList_first better x rest)
  simp only [toList, List.length_append, List.length_cons] at h
  simp only [others, List.length_append]
  omega

end Choice

end Wayfare
