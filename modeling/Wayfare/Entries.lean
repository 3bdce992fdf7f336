/-! # Named entries

Lists of entries that go by a name, such as the fields of a record or the files
of a log. An entry keeps the place at which it was first made.
-/

namespace Wayfare

variable {κ α : Type} [BEq κ]

/-- Changes the entry of a name in its place; a name without an entry gets one at the end. -/
def changeEntry (name : κ) (f : Option α → α) : List (κ × α) → List (κ × α)
  | [] => [(name, f none)]
  | e :: rest =>
      if e.1 == name then (name, f (some e.2)) :: rest else e :: changeEntry name f rest

@[simp] theorem lookup_changeEntry [LawfulBEq κ] (name : κ) (f : Option α → α)
    (entries : List (κ × α)) :
    (changeEntry name f entries).lookup name = some (f (entries.lookup name)) := by
  induction entries with
  | nil => exact List.lookup_cons_self
  | cons e rest ih =>
      rw [changeEntry]
      split
      next hown =>
        rw [← eq_of_beq hown, List.lookup_cons_self, List.lookup_cons_self]
      next hown =>
        have hne : (name == e.1) = false := by
          rw [BEq.comm]
          exact Bool.eq_false_iff.2 hown
        rw [List.lookup_cons, List.lookup_cons, hne]
        exact ih

/-- Nothing else is changed. -/
theorem lookup_changeEntry_of_ne [LawfulBEq κ] {name other : κ} (h : other ≠ name)
    (f : Option α → α) (entries : List (κ × α)) :
    (changeEntry name f entries).lookup other = entries.lookup other := by
  induction entries with
  | nil =>
      rw [changeEntry, List.lookup_cons, beq_false_of_ne h]
  | cons e rest ih =>
      rw [changeEntry]
      split
      next hown =>
        rw [List.lookup_cons, List.lookup_cons, eq_of_beq hown, beq_false_of_ne h]
      next =>
        rw [List.lookup_cons, List.lookup_cons, ih]

end Wayfare
