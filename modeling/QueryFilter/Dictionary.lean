/-!
# Dictionaries

Entries by name.  The entries stand in the order in which their names were first entered, and
looking up a name finds the entry that was last given to it.
-/

namespace QueryFilter

/-- Entries, each with its name. -/
abbrev Dictionary (α : Type) := List (String × α)

namespace Dictionary

variable {α : Type}

/-- The entry of a name. -/
def get? (name : String) : Dictionary α → Option α
  | [] => none
  | (key, entry) :: d => if name = key then some entry else get? name d

/-- Replaces the entry of a name, which may be absent, by what `f` makes of it. -/
def alter (name : String) (f : Option α → α) : Dictionary α → Dictionary α
  | [] => [(name, f none)]
  | (key, entry) :: d =>
    if name = key then (key, f (some entry)) :: d else (key, entry) :: alter name f d

theorem get?_alter (name other : String) (f : Option α → α) (d : Dictionary α) :
    get? other (alter name f d) = if other = name then some (f (get? name d)) else get? other d := by
  induction d with
  | nil => simp [alter, get?]
  | cons e d ih =>
    obtain ⟨key, entry⟩ := e
    simp only [alter]
    split
    next h =>
      subst h
      by_cases ho : other = name <;> simp [get?, ho]
    next h =>
      by_cases ho : other = key
      · subst ho
        simp [get?, Ne.symm h]
      · simp [get?, h, ho, ih]

/-- Gives a name an entry. -/
def insert (name : String) (entry : α) (d : Dictionary α) : Dictionary α :=
  alter name (fun _ => entry) d

end Dictionary

end QueryFilter
