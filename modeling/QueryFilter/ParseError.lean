import QueryFilter.Field

/-!
# Errors of the readers

A reader refuses its input for one of the causes listed here.  Each cause has a kind, which callers
branch on, and a wording.  The position counts the characters in front of the fault; faults in a
filter document have position zero.
-/

namespace QueryFilter

/-- The greatest number of characters of a query text or of a filter document. -/
def maxInputLength : Nat := 16384

/-- The greatest number of parentheses and negations around a comparison, and of connectives
around a filter object. -/
def maxNesting : Nat := 64

namespace ParseError

/-- What kind of thing is wrong with the input. -/
inductive Kind where
  | emptyQuery | inputTooLong | unexpectedChar | unexpectedEnd | unterminatedString
  | unterminatedRegex | invalidField | invalidRange | invalidValue | nonScalarValue
  | nestingTooDeep | invalidJson | unknownOperator
  deriving DecidableEq

/-- What is wrong with a query text. -/
inductive TextCause where
  | tooLong
  | empty
  | tooDeep
  | unexpected (c : Char)
  | unexpectedEnd
  | missingTerm
  | missingOperand
  | unclosedParenthesis
  | expectedParenthesis (found : Char)
  | danglingEscape
  -- fields
  | missingField
  | missingColon
  | expectedColon (name : List Char)
  | wildcardInField
  -- values
  | missingValue
  | expectedValue
  | missingOperatorValue
  | expectedComparator
  | mixedWildcards
  | groupAfterOrdering
  | rangeAfterComparator
  | unterminatedString
  | unterminatedRegex
  | emptyRegex
  -- ranges
  | unclosedRange
  | expectedTo
  | expectedRangeEnd
  | expectedBound
  | wildcardInBound
  -- groups
  | unclosedGroup
  | emptyGroup
  | onlyOrInGroup
  | expectedGroupValue
  | nonScalarInGroup
  | wildcardInGroup
  deriving DecidableEq

/-- What is wrong with a filter document. -/
inductive FilterCause where
  | tooLong
  | notUtf8
  | notJson
  | tooDeep
  | expectedObject
  | emptyObject
  | unknownConnective (key : String)
  | expectedFilters (key : String)
  | noFilters (key : String)
  | bareList
  | unknownOperator (key : String)
  -- values
  | objectValue
  | arrayValue
  | nestedArray
  | integerOutOfRange
  | notFinite
  | expectedArray (key : String)
  | expectedPair (key : String)
  | expectedTwo (key : String)
  | expectedString (key : String)
  deriving DecidableEq

/-- Why a reader refuses its input. -/
inductive Cause where
  | text (c : TextCause)
  | filter (c : FilterCause)
  | field (f : FieldPath.Fault)
  | nullBound
  deriving DecidableEq

/-! ## Kinds -/

/-- The kind of a fault in a query text. -/
def TextCause.kind : TextCause → Kind
  | tooLong => .inputTooLong
  | empty => .emptyQuery
  | tooDeep => .nestingTooDeep
  | unexpectedEnd | missingTerm | unclosedParenthesis | danglingEscape | missingField
  | missingColon | missingValue | missingOperatorValue | unclosedRange | unclosedGroup =>
    .unexpectedEnd
  | unexpected _ | missingOperand | expectedParenthesis _ | expectedColon _ | expectedValue
  | expectedComparator | expectedGroupValue => .unexpectedChar
  | wildcardInField => .invalidField
  | mixedWildcards | groupAfterOrdering | rangeAfterComparator | emptyRegex | emptyGroup
  | onlyOrInGroup | wildcardInGroup => .invalidValue
  | expectedTo | expectedRangeEnd | expectedBound | wildcardInBound => .invalidRange
  | nonScalarInGroup => .nonScalarValue
  | unterminatedString => .unterminatedString
  | unterminatedRegex => .unterminatedRegex

/-- The kind of a fault in a filter document. -/
def FilterCause.kind : FilterCause → Kind
  | tooLong => .inputTooLong
  | notUtf8 | notJson => .invalidJson
  | tooDeep => .nestingTooDeep
  | emptyObject | noFilters _ => .emptyQuery
  | unknownConnective _ | unknownOperator _ => .unknownOperator
  | expectedObject | expectedFilters _ | bareList | integerOutOfRange | notFinite
  | expectedArray _ | expectedPair _ | expectedString _ => .invalidValue
  | objectValue | arrayValue | nestedArray => .nonScalarValue
  | expectedTwo _ => .invalidRange

/-- The kind of a cause. -/
def Cause.kind : Cause → Kind
  | text c => c.kind
  | filter c => c.kind
  | field _ => .invalidField
  | nullBound => .invalidRange

/-! ## Wording -/

/-- The wording of a fault in a query text. -/
def TextCause.message : TextCause → String
  | tooLong => s!"query exceeds {maxInputLength} characters"
  | empty => "empty query"
  | tooDeep => s!"query nesting exceeds {maxNesting} levels"
  | unexpected c => "unexpected '" ++ c.toString ++ "'"
  | unexpectedEnd => "unexpected end of query"
  | missingTerm => "expected a field:value term"
  | missingOperand => "operator without a left operand"
  | unclosedParenthesis => "expected ')'"
  | expectedParenthesis found => "expected ')', found '" ++ found.toString ++ "'"
  | danglingEscape => "dangling escape character"
  | missingField => "expected a field name"
  | missingColon => "expected ':' after field name"
  | expectedColon name => "expected ':' after field name '" ++ String.ofList name ++ "'"
  | wildcardInField => "wildcards are not allowed in field names"
  | missingValue | expectedValue => "expected a value after ':'"
  | missingOperatorValue => "expected a value after comparison operator"
  | expectedComparator => "expected a comparison operator"
  | mixedWildcards => "escaped and unescaped wildcards cannot be mixed in one term"
  | groupAfterOrdering => "value groups cannot follow an ordering operator"
  | rangeAfterComparator => "ranges cannot follow a comparison operator"
  | unterminatedString => "unterminated quoted string"
  | unterminatedRegex => "unterminated regular expression"
  | emptyRegex => "empty regular expression"
  | unclosedRange => "unclosed range"
  | expectedTo => "expected 'TO' in range"
  | expectedRangeEnd => "expected ']' or '\x7d' to close range"
  | expectedBound => "expected a range bound"
  | wildcardInBound => "wildcards are not allowed in range bounds"
  | unclosedGroup => "unclosed value group"
  | emptyGroup => "empty value group"
  | onlyOrInGroup => "only OR may join values in a group"
  | expectedGroupValue => "expected a value"
  | nonScalarInGroup => "value groups may only contain scalar values"
  | wildcardInGroup => "wildcards are not allowed in value groups"

/-- The wording of a fault in a filter document. -/
def FilterCause.message : FilterCause → String
  | tooLong => s!"filter exceeds {maxInputLength} characters"
  | notUtf8 => "filter is not valid UTF-8"
  | notJson => "invalid JSON syntax"
  | tooDeep => s!"filter nesting exceeds {maxNesting} levels"
  | expectedObject => "expected a filter object"
  | emptyObject => "filter object cannot be empty"
  | unknownConnective key => "unknown logical operator '" ++ key ++ "'"
  | expectedFilters key => key ++ " expects an array of filters"
  | noFilters key => key ++ " requires at least one filter"
  | bareList => "list values require $in, $nin or $between"
  | unknownOperator key => "unknown operator '" ++ key ++ "'"
  | objectValue => "objects are not valid filter values"
  | arrayValue => "expected a scalar value, found an array"
  | nestedArray => "arrays cannot be nested"
  | integerOutOfRange => "integer out of range"
  | notFinite => "number is not finite"
  | expectedArray key => "operator '" ++ key ++ "' expects an array"
  | expectedPair key => "operator '" ++ key ++ "' expects an array of 2 values"
  | expectedTwo key => "operator '" ++ key ++ "' expects exactly 2 values"
  | expectedString key => "operator '" ++ key ++ "' expects a string"

/-- The wording of a cause. -/
def Cause.message : Cause → String
  | text c => c.message
  | filter c => c.message
  | field .emptySegment => "field name has an empty segment"
  | field .tooManySegments => s!"field name has more than {maxSegments} segments"
  | nullBound => "null is not a valid range bound"

end ParseError

/-- A cause and the number of characters in front of it. -/
structure ParseError where
  cause : ParseError.Cause
  position : Nat
  deriving DecidableEq

namespace ParseError

/-- The kind of an error. -/
def kind (e : ParseError) : Kind := e.cause.kind

/-- The wording of an error, its position included. -/
def message (e : ParseError) : String :=
  s!"{e.cause.message} at position {e.position}"

/-- An error in a filter document. -/
def ofFilter (c : FilterCause) : ParseError := ⟨.filter c, 0⟩

end ParseError

/-- Reads a field path that stands alone. -/
def FieldPath.read (text : String) : Except ParseError FieldPath :=
  (FieldPath.ofString text).mapError fun fault => ⟨.field fault, 0⟩

end QueryFilter
