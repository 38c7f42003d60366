import QueryFilter.Dictionary
import QueryFilter.NameSet

/-!
# Schemas

A schema names the tables of a database and the fields of each, with their types.  Where a policy
lists no allowed fields, the fields of the schema are the ones that may be queried.
-/

namespace QueryFilter

/-- The fields of a table, with their types. -/
abbrev TableFields := Dictionary String

/-- The tables of a database. -/
structure Schema where
  tables : Dictionary TableFields

namespace Schema

/-- The schema without tables. -/
def empty : Schema := ⟨[]⟩

/-- Adds a field to a table, which is added if it is new. -/
def insert (s : Schema) (table field type : String) : Schema :=
  ⟨s.tables.alter table fun fields => (fields.getD []).insert field type⟩

/-- Adds fields to a table.  Without fields nothing is added. -/
def addTable (s : Schema) (table : String) (fields : List (String × String)) : Schema :=
  fields.foldl (fun s (field, type) => s.insert table field type) s

/-- The schema of some tables.  Of two tables with one name the last counts, and of two fields of a
table with one name. -/
def ofTables (tables : List (String × List (String × String))) : Schema :=
  ⟨tables.foldl (fun d (table, fields) =>
    d.insert table (fields.foldl (fun d (field, type) => d.insert field type) [])) []⟩

/-- Whether a schema has no tables. -/
def isEmpty (s : Schema) : Bool := s.tables.isEmpty

/-- The type of a field of a table. -/
def fieldType? (s : Schema) (table field : String) : Option String :=
  (s.tables.get? table).bind (·.get? field)

/-- The names by which the fields can be queried: alone, and behind the name of their table. -/
def fieldNames (s : Schema) : NameSet :=
  NameSet.ofList (s.tables.flatMap fun (table, fields) =>
    fields.flatMap fun (field, _) => [table ++ "." ++ field, field])

end Schema

end QueryFilter
