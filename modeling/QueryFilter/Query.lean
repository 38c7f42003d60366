import QueryFilter.Field
import QueryFilter.Value

/-!
# Queries

A query is a tree of comparisons joined by connectives.  Both readers of queries produce `and` and
`or` nodes with two operands and `not` nodes with one; a tree built by hand may pair a connective
with the other number of operands, and may hold conditions that are already written in the
language of the database.
-/

namespace QueryFilter

/-! ## Comparisons -/

/-- How a field is compared with a value. -/
inductive Operator where
  | eq | ne | gt | gte | lt | lte
  /-- Matches a wildcard pattern. -/
  | like
  /-- Matches a wildcard pattern without regard to case. -/
  | ilike
  | oneOf | noneOf
  /-- Lies in a range. -/
  | between
  /-- Matches a regular expression. -/
  | regex
  deriving DecidableEq

namespace Operator

/-- The name of an operator in messages. -/
def symbol : Operator → String
  | eq => "=="
  | ne => "!="
  | gt => ">"
  | gte => ">="
  | lt => "<"
  | lte => "<="
  | like => "LIKE"
  | ilike => "ILIKE"
  | oneOf => "IN"
  | noneOf => "NOT IN"
  | between => "BETWEEN"
  | regex => "REGEX"

/-- Whether an operator takes a wildcard pattern. -/
def isPattern : Operator → Bool
  | like | ilike => true
  | _ => false

/-- Whether an operator tests for equality or for its opposite. -/
def isEquality : Operator → Bool
  | eq | ne => true
  | _ => false

end Operator

/-- A field, an operator and the value that the field is compared with. -/
structure Comparison where
  field : FieldPath
  operator : Operator
  value : Value
  /-- Set for words that were written without quotes. -/
  ignoreCase : Bool

namespace Comparison

/-- Whether the comparison tests texts for equality without regard to case. -/
def foldsCase (c : Comparison) : Bool :=
  c.ignoreCase && c.operator.isEquality && c.value.text?.isSome

/-- Whether two comparisons are the same, values compared by `Value.same`. -/
def same (c d : Comparison) : Bool :=
  c.field == d.field && c.operator == d.operator && c.value.same d.value &&
    c.ignoreCase == d.ignoreCase

end Comparison

/-! ## Trees -/

/-- What joins the operands of a node. -/
inductive Connective where
  | and | or | not
  deriving DecidableEq

/-- A condition in the language of the database, with a question mark for each parameter. -/
structure RawCondition where
  sql : String
  params : List Value

/-- A tree of conditions. -/
inductive Query where
  | comparison (c : Comparison)
  | raw (r : RawCondition)
  /-- A connective with one operand.  It is well formed if the connective is `not`. -/
  | unary (op : Connective) (operand : Query)
  /-- A connective with two operands.  It is well formed if the connective is not `not`. -/
  | binary (op : Connective) (left right : Query)

namespace Query

/-- Both queries hold. -/
def and (left right : Query) : Query := binary .and left right

/-- At least one of two queries holds. -/
def or (left right : Query) : Query := binary .or left right

/-- A query does not hold. -/
def not (operand : Query) : Query := unary .not operand

/-- Joins queries from the left by `or` if that is the connective, and by `and` otherwise.  A
single query stays as it is. -/
def join? (op : Connective) : List Query → Option Query
  | [] => none
  | first :: others => some (others.foldl (if op = .or then Query.or else Query.and) first)

/-- Whether two queries are the same tree, values compared by `Value.same`. -/
def same : Query → Query → Bool
  | comparison c, comparison d => c.same d
  | raw r, raw s => r.sql == s.sql && Value.sameItems r.params s.params
  | unary op q, unary op' q' => op == op' && q.same q'
  | binary op l r, binary op' l' r' => op == op' && l.same l' && r.same r'
  | _, _ => false

end Query

end QueryFilter
