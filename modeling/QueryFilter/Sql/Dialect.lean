/-!
# Dialects

Where the two databases differ: placeholders, truth values, and the operators for patterns.
-/

namespace QueryFilter.Sql

/-- A database whose language is written. -/
inductive Dialect where
  | postgres | sqlite
  deriving DecidableEq

namespace Dialect

/-- The name of a dialect in messages. -/
def name : Dialect → String
  | postgres => "postgres"
  | sqlite => "sqlite"

/-- The placeholder of the parameter with a number. -/
def placeholder (d : Dialect) (n : Nat) : String :=
  match d with
  | postgres => "$" ++ toString n
  | sqlite => "?" ++ toString n

/-- A truth value. -/
def boolLiteral (d : Dialect) (b : Bool) : String :=
  match d, b with
  | postgres, true => "TRUE"
  | postgres, false => "FALSE"
  | sqlite, true => "1"
  | sqlite, false => "0"

/-- An identifier in quotes. -/
def quoteIdentifier (_ : Dialect) (segment : String) : String := "\"" ++ segment ++ "\""

/-- The operator that matches a regular expression, where there is one. -/
def regexOperator? : Dialect → Option String
  | postgres => some "~"
  | sqlite => none

/-- The operator that matches a pattern with regard to case, where `LIKE` disregards it. -/
def globOperator? : Dialect → Option String
  | postgres => none
  | sqlite => some "GLOB"

/-- Whether there is an operator `ILIKE`. -/
def hasIlike : Dialect → Bool
  | postgres => true
  | sqlite => false

/-- What follows a `LIKE` pattern to make the backslash an escape. -/
def likeEscape : Dialect → String
  | postgres => ""
  | sqlite => " ESCAPE '\\'"

/-- The placeholders of `count` parameters from the number `start` on. -/
def placeholders (d : Dialect) (count start : Nat) : String :=
  ", ".intercalate ((List.range' start count).map d.placeholder)

end Dialect

end QueryFilter.Sql
