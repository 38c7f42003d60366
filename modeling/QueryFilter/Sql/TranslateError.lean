import QueryFilter.Pattern
import QueryFilter.Query
import QueryFilter.Sql.Dialect
import QueryFilter.Sql.Identifier

/-!
# Errors of the translation

Why a query has no condition in the language of a database.
-/

namespace QueryFilter.Sql

/-- What was found in place of a value that fits an operator. -/
inductive Mismatch where
  | null | boolean | number | string | list | range
  | nullElement | nestedList | notTwoBounds | badBound
  deriving DecidableEq

/-- The wording of a mismatch. -/
def Mismatch.message : Mismatch → String
  | null => "null"
  | boolean => "a boolean"
  | number => "a number"
  | string => "a string"
  | list => "a list"
  | range => "a range"
  | nullElement => "a null list element"
  | nestedList => "a nested list"
  | notTwoBounds => "a list that is not two bounds"
  | badBound => "a range bound that is not a value"

/-- The mismatch of a value that does not fit an operator at all. -/
def Mismatch.ofValue : Value → Mismatch
  | .null => null
  | .bool _ => boolean
  | .int _ | .float _ => number
  | .text _ => string
  | .list _ => list
  | .range .. => range

/-- Why a query has no condition in the language of a database. -/
inductive TranslateError where
  | invalidIdentifier (field : String) (fault : IdentifierFault)
  | unsafePattern (fault : Pattern.Fault)
  | unsupportedOperator (operator : Operator) (dialect : Dialect)
  | invalidValue (operator : Operator) (found : Mismatch)
  /-- A `not` with two operands. -/
  | binaryNot
  /-- An `and` or an `or` with one operand. -/
  | unaryJunction
  | nestingTooDeep (max : Nat)
  | rawParameterMismatch (markers params : Nat)
  | nonFiniteNumber
  deriving DecidableEq

/-- The wording of an error. -/
def TranslateError.message : TranslateError → String
  | invalidIdentifier field fault => "invalid field name '" ++ field ++ "': " ++ fault.message
  | unsafePattern fault => "unsafe pattern: " ++ fault.message
  | unsupportedOperator operator dialect =>
    "operator " ++ operator.symbol ++ " is not supported by " ++ dialect.name
  | invalidValue operator found => "operator " ++ operator.symbol ++ " cannot take " ++ found.message
  | binaryNot => "malformed logical node: NOT takes exactly one operand"
  | unaryJunction => "malformed logical node: AND and OR take exactly two operands"
  | nestingTooDeep max => s!"expression nesting exceeds {max} levels"
  | rawParameterMismatch markers params =>
    s!"raw condition has {markers} placeholders but {params} parameters"
  | nonFiniteNumber => "number is not finite"

/-- Checks that a text is an identifier. -/
def checkIdentifier (field : String) : Except TranslateError Unit :=
  match identifierFault? field.toList with
  | some fault => .error (.invalidIdentifier field fault)
  | none => .ok ()

/-- Checks that a pattern may stand in a statement. -/
def checkPattern (pattern : String) : Except TranslateError Unit :=
  match Pattern.fault? pattern.toList with
  | some fault => .error (.unsafePattern fault)
  | none => .ok ()

end QueryFilter.Sql
