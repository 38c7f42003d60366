import QueryFilter.Number.Decimal
import QueryFilter.Pattern
import QueryFilter.Query
import QueryFilter.Text.Blank

/-!
# The canonical text of a query

The text of a query that was read is meant to read back as the same query.  Operands of connectives
stand in parentheses, exact texts in quotes, and words that ignore case are bare, so that the text
depends neither on precedence nor on the typing of bare words.  Field names are written as they are,
and so a name that needs a backslash does not come back; nor does a query whose parentheses are
nested deeper than a reader follows.

Each `write` function takes the text that follows and puts its own in front, which makes the whole
text in one pass.
-/

namespace QueryFilter

/-! ## Characters -/

/-- Whether a bare term needs a backslash in front of a character. -/
def needsEscape (c : Char) : Bool :=
  Text.isBlank c ||
    ['\\', '"', '(', ')', '[', ']', '\x7b', '\x7d', ':', '/', '>', '<', '=', '!'].contains c

/-- Whether a bare term that starts with a character may be a number. -/
def startsNumber (c : Char) : Bool := c.isDigit || c == '-' || c == '+' || c == '.'

/-- The words that are not texts when they are bare. -/
def reservedWords : List (List Char) := ["true".toList, "false".toList, "null".toList]

/-- The characters of a text, a backslash in front of those that `escaped` selects. -/
def escapeWhere (escaped : Char → Bool) (s : List Char) : List Char :=
  s.flatMap fun c => if escaped c then ['\\', c] else [c]

/-- A text in quotes. -/
def quoted (s : List Char) : List Char :=
  '"' :: escapeWhere (fun c => c == '"' || c == '\\') s ++ ['"']

/-- A bare pattern.  Its wildcards keep their meaning. -/
def barePattern (s : List Char) : List Char :=
  escapeWhere needsEscape s

/-- A bare word that reads as this text and as nothing else: wildcards are escaped, and so is a
first character that would make it a number or a reserved word. -/
def bareWord (s : List Char) : List Char :=
  match s with
  | [] => []
  | c :: rest =>
    let escaped := fun c => needsEscape c || isWildcard c
    escapeWhere (fun c => escaped c || startsNumber c || reservedWords.contains s) [c] ++
      escapeWhere escaped rest

/-- A regular expression between slashes. -/
def delimitedRegex (s : List Char) : List Char :=
  '/' :: escapeWhere (· == '/') s ++ ['/']

/-! ## Values -/

namespace Value

mutual

/-- Writes a value. -/
def write : Value → List Char → List Char
  | null, rest => "null".toList ++ rest
  | bool b, rest => (if b then "true" else "false").toList ++ rest
  | int n, rest => Number.integerText n.toInt ++ rest
  | float x, rest => Number.floatText x ++ rest
  | text s, rest => quoted s.toList ++ rest
  | list items, rest => '(' :: writeItems items (')' :: rest)
  | range low high closedLow closedHigh, rest =>
    (if closedLow then '[' else '\x7b') :: writeBound low (" TO ".toList ++
      writeBound high ((if closedHigh then ']' else '\x7d') :: rest))

/-- Writes values with `OR` between them. -/
def writeItems : List Value → List Char → List Char
  | [], rest => rest
  | [item], rest => item.write rest
  | item :: items, rest => item.write (" OR ".toList ++ writeItems items rest)

/-- Writes a bound, a star if it is open. -/
def writeBound : Option Value → List Char → List Char
  | none, rest => '*' :: rest
  | some bound, rest => bound.write rest

end

end Value

/-! ## Comparisons -/

namespace Operator

/-- What stands between the colon and a value. -/
def sign : Operator → List Char
  | ne | noneOf => "!=".toList
  | gt => ">".toList
  | gte => ">=".toList
  | lt => "<".toList
  | lte => "<=".toList
  | _ => []

end Operator

namespace Comparison

/-- Writes the operator and the value of a comparison that does not fold case. -/
def writeExact (operator : Operator) (value : Value) (rest : List Char) : List Char :=
  match operator, value with
  | .between, .list [low, high] => Value.write (.range (some low) (some high) true true) rest
  | .like, .text s | .ilike, .text s => barePattern s.toList ++ rest
  | .regex, .text s => delimitedRegex s.toList ++ rest
  | _, .range low high closedLow closedHigh =>
    Value.write (.range low high closedLow closedHigh) rest
  | _, value => operator.sign ++ value.write rest

/-- Writes the part of a comparison behind the colon.  The empty text cannot be bare. -/
def writeClause (c : Comparison) (rest : List Char) : List Char :=
  match c.foldsCase, c.value with
  | true, .text s =>
    if s.toList = [] then writeExact c.operator c.value rest
    else c.operator.sign ++ bareWord s.toList ++ rest
  | _, _ => writeExact c.operator c.value rest

/-- Writes a comparison. -/
def write (c : Comparison) (rest : List Char) : List Char :=
  c.field.text.toList ++ ':' :: c.writeClause rest

end Comparison

/-! ## Trees -/

namespace Query

/-- Writes a query.  A connective with the wrong number of operands is written as the negation of
its left operand. -/
def write : Query → List Char → List Char
  | comparison c, rest => c.write rest
  | raw r, rest => "<raw: ".toList ++ r.sql.toList ++ '>' :: rest
  | unary _ q, rest => "NOT (".toList ++ q.write (')' :: rest)
  | binary .not l _, rest => "NOT (".toList ++ l.write (')' :: rest)
  | binary .and l r, rest => '(' :: l.write (") AND (".toList ++ r.write (')' :: rest))
  | binary .or l r, rest => '(' :: l.write (") OR (".toList ++ r.write (')' :: rest))

/-- The canonical text of a query. -/
def render (q : Query) : String :=
  String.ofList (q.write [])

end Query

end QueryFilter
