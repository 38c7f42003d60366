import QueryFilter.Text.Split

/-!
# Field paths

A field is named by a column, or by a table and a column with a dot between them.  A `FieldPath`
is a text of that shape: one or two segments between dots, none of them empty.  Whether the name
is safe in a statement, and whether it may be queried, is decided elsewhere.
-/

namespace QueryFilter

/-! ## Segments -/

/-- The pieces of a text between its dots. -/
def segments (s : List Char) : List (List Char) := Text.split '.' s

/-- The piece of a text behind its last dot. -/
def lastSegment (s : List Char) : List Char :=
  (segments s).getLastD []

/-- A text without a dot is its own last piece. -/
theorem lastSegment_of_not_mem {s : List Char} (h : '.' ∉ s) : lastSegment s = s := by
  rw [lastSegment, segments, Text.split_of_not_mem h]
  rfl

/-! ## Paths -/

/-- The greatest number of segments of a field path. -/
def maxSegments : Nat := 2

/-- Why a text is not a field path. -/
inductive FieldPath.Fault where
  | emptySegment
  | tooManySegments
  deriving DecidableEq

/-- The rule of field paths that a text breaks, if it breaks one. -/
def FieldPath.fault? (text : String) : Option FieldPath.Fault :=
  let parts := segments text.toList
  if parts.any List.isEmpty then some .emptySegment
  else if maxSegments < parts.length then some .tooManySegments
  else none

/-- A column, or a table and a column with a dot between them. -/
structure FieldPath where
  text : String
  wellShaped : FieldPath.fault? text = none
  deriving DecidableEq

namespace FieldPath

/-- Reads a field path, which is its own text. -/
def ofString (text : String) : Except Fault FieldPath :=
  match h : fault? text with
  | some fault => .error fault
  | none => .ok ⟨text, h⟩

/-- The table, if there is one, and the column. -/
def parts (f : FieldPath) : List String :=
  (segments f.text.toList).map String.ofList

/-- The column: the last segment. -/
def column (f : FieldPath) : String :=
  String.ofList (lastSegment f.text.toList)

/-- Whether the path names a table. -/
def isQualified (f : FieldPath) : Bool :=
  f.text.toList.contains '.'

end FieldPath

end QueryFilter
