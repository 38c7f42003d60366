import QueryFilter.Dictionary
import QueryFilter.NameSet
import QueryFilter.Number.Decimal
import QueryFilter.Query
import QueryFilter.Text.Blank

/-!
# Policies

A policy says which queries are accepted: the fields, operators and values that may occur, and how
large a query may be.  It also carries the limits that apply when a query is run.

The numbers and switches of a policy can be given as named settings.  A setting that is absent, or
that does not read as what it should be, leaves the default.
-/

namespace QueryFilter

/-- Which queries are accepted. -/
structure Policy where
  /-- The fields that may be queried.  If there are none, a schema decides. -/
  allowedFields : NameSet := []
  /-- Fields that may not be queried. -/
  deniedFields : NameSet := []
  /-- For some fields, values that they may not be compared with. -/
  deniedValues : Dictionary (List Value) := []
  /-- Operators that may not be used. -/
  deniedOperators : List Operator := [.regex]
  /-- The greatest number of connectives above a condition. -/
  maxDepth : Nat := 10
  /-- The greatest number of conditions. -/
  maxClauses : Nat := 50
  /-- The greatest number of characters of a text value. -/
  maxValueLength : Nat := 1000
  /-- The greatest number of values of a list. -/
  maxListLength : Nat := 100
  /-- Whether wildcards are bounded and collapsed. -/
  sanitizeWildcards : Bool := true
  /-- Whether fields may name a table. -/
  allowQualified : Bool := true
  /-- The page size where none is requested. -/
  defaultLimit : Nat := 100
  /-- The greatest page size. -/
  maxLimit : Nat := 1000
  /-- The greatest running time in milliseconds. -/
  timeout : Nat := 30000

namespace Policy

/-- The policy that denies no operator. -/
def permissive : Policy := { deniedOperators := [] }

/-- Replaces the fields that may be queried. -/
def allowFields (p : Policy) (fields : List String) : Policy :=
  { p with allowedFields := NameSet.ofList fields }

/-- Replaces the fields that may not be queried. -/
def denyFields (p : Policy) (fields : List String) : Policy :=
  { p with deniedFields := NameSet.ofList fields }

/-- Adds values that a field may not be compared with. -/
def denyValues (p : Policy) (field : String) (values : List Value) : Policy :=
  { p with deniedValues := p.deniedValues.alter field fun denied => denied.getD [] ++ values }

/-- The page size for a request: the requested one, or the default, brought between one and the
greatest. -/
def effectiveLimit (p : Policy) (requested : Option Nat) : Nat :=
  max 1 (min (requested.getD p.defaultLimit) (max p.maxLimit 1))

/-! ## Settings -/

/-- Reads a count.  Blanks around it are ignored. -/
def readCount? (text : String) : Option Nat :=
  Number.readCount? (Text.trimBlanks text.toList)

/-- Reads a switch.  Blanks around it are ignored, and so is the case of ASCII letters. -/
def readSwitch? (text : String) : Option Bool :=
  let word := String.ofList ((Text.trimBlanks text.toList).map Char.toLower)
  if ["1", "true", "yes", "on"].contains word then some true
  else if ["0", "false", "no", "off"].contains word then some false
  else none

/-- The policy with some settings in place of the defaults. -/
def ofSettings (setting? : String → Option String) : Policy :=
  let defaults : Policy := {}
  let count (name : String) (default : Nat) : Nat :=
    ((setting? name).bind readCount?).getD default
  let switch (name : String) (default : Bool) : Bool :=
    ((setting? name).bind readSwitch?).getD default
  { maxDepth := count "LQL_MAX_QUERY_DEPTH" defaults.maxDepth
    maxClauses := count "LQL_MAX_CLAUSE_COUNT" defaults.maxClauses
    maxValueLength := count "LQL_MAX_VALUE_LENGTH" defaults.maxValueLength
    maxListLength := count "LQL_MAX_ARRAY_LENGTH" defaults.maxListLength
    defaultLimit := count "LQL_DEFAULT_LIMIT" defaults.defaultLimit
    maxLimit := count "LQL_MAX_LIMIT" defaults.maxLimit
    timeout := count "LQL_QUERY_TIMEOUT_MS" defaults.timeout
    sanitizeWildcards := switch "LQL_SANITIZE_WILDCARDS" defaults.sanitizeWildcards
    allowQualified := switch "LQL_ALLOW_DOT_NOTATION" defaults.allowQualified }

end Policy

end QueryFilter
