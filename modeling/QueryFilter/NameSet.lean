/-!
# Sets of names

A set of names is kept as the list of its members in the order of their characters.
-/

namespace QueryFilter

/-- The members of a set of names, in order, each once. -/
abbrev NameSet := List String

namespace NameSet

/-- Adds a name to a set. -/
def insert (name : String) : NameSet → NameSet
  | [] => [name]
  | first :: others =>
    if name < first then name :: first :: others
    else if name = first then first :: others
    else first :: insert name others

/-- The set of the names of a list. -/
def ofList (names : List String) : NameSet :=
  names.foldl (fun set name => insert name set) []

theorem mem_insert {x name : String} {set : NameSet} :
    x ∈ insert name set ↔ x = name ∨ x ∈ set := by
  induction set with
  | nil => simp [insert]
  | cons first others ih =>
    simp only [insert]
    split
    · simp
    · split
      next h => simp [h]
      next => simp [ih, or_left_comm]

theorem mem_ofList {x : String} {names : List String} : x ∈ ofList names ↔ x ∈ names := by
  have h : ∀ (names : List String) (set : NameSet),
      x ∈ names.foldl (fun set name => insert name set) set ↔ x ∈ names ∨ x ∈ set := by
    intro names
    induction names with
    | nil => simp
    | cons name names ih => intro set; simp [ih, mem_insert, or_assoc, or_left_comm]
  simp [ofList, h]

end NameSet

end QueryFilter
