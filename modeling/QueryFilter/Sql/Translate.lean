import QueryFilter.Sql.Fragment
import QueryFilter.Sql.TranslateError

/-!
# Translating a query

A comparison becomes the pieces of a condition.  A tree is walked with an agenda of what is still
to be written: texts that close or join operands, and nodes with the number of connectives above
them.  Operands always stand in parentheses.  The first error from left to right is the result, and
the depth of a node is checked before anything else about it.
-/

namespace QueryFilter.Sql

/-- How to write a condition. -/
structure Translator where
  dialect : Dialect
  /-- Whether the segments of field names stand in quotes. -/
  quoteIdentifiers : Bool := false
  /-- Whether comparisons that disregard case compare lower-case forms. -/
  foldCase : Bool := true
  /-- The greatest number of connectives above a node. -/
  maxDepth : Nat := 1024

/-! ## Values -/

/-- The piece of a value.  Infinities and NaN cannot be bound. -/
def bind (v : Value) : Except TranslateError Piece :=
  match v with
  | .float x => if Number.isFinite x then .ok (.value v) else .error .nonFiniteNumber
  | v => .ok (.value v)

/-- The sign of a comparison with a scalar. -/
def comparisonSign? : Operator → Option String
  | .eq => some "="
  | .ne => some "<>"
  | .gt => some ">"
  | .gte => some ">="
  | .lt => some "<"
  | .lte => some "<="
  | _ => none

/-- What is wrong with a value of a list, if anything is. -/
def elementMismatch? (v : Value) : Option Mismatch :=
  if !v.isScalar then some .nestedList else if v.isNull then some .nullElement else none

/-- What is wrong with a bound of a range, if anything is. -/
def boundMismatch? (v : Value) : Option Mismatch :=
  if !v.isScalar || v.isNull then some .badBound else none

/-! ## Conditions -/

/-- The pieces of bound values with commas between them. -/
def separated : List Piece → List Piece
  | [] => []
  | [piece] => [piece]
  | piece :: pieces => piece :: .text ", " :: separated pieces

/-- The condition that a field is among some values, or is not.  Without values it is constant. -/
def membership (field keyword whenEmpty : String) (operator : Operator) (items : List Value) :
    Except TranslateError (List Piece) :=
  match items.findSome? elementMismatch? with
  | some found => .error (.invalidValue operator found)
  | none =>
    if items.isEmpty then .ok [.text whenEmpty]
    else do
      let bound ← items.mapM bind
      .ok (.text (field ++ " " ++ keyword ++ " (") :: separated bound ++ [.text ")"])

/-- The condition that a field is on one side of a bound. -/
def onSide (field sign : String) (bound : Value) : Except TranslateError (List Piece) := do
  .ok [.text (field ++ " " ++ sign ++ " "), ← bind bound]

/-- The condition that a field is in a range.  It holds of every value if both bounds are open. -/
def inRange (field : String) (operator : Operator) (low high : Option Value)
    (closedLow closedHigh : Bool) : Except TranslateError (List Piece) :=
  match (Value.bounds low high).findSome? boundMismatch? with
  | some found => .error (.invalidValue operator found)
  | none =>
    let above := onSide field (if closedLow then ">=" else ">")
    let below := onSide field (if closedHigh then "<=" else "<")
    match low, high with
    | none, none => .ok [.text (field ++ " IS NOT NULL")]
    | some low, none => above low
    | none, some high => below high
    | some low, some high => do .ok ((← above low) ++ .text " AND " :: (← below high))

namespace Translator

variable (t : Translator)

/-- A field name as it is written. -/
def fieldText (field : FieldPath) : Except TranslateError String := do
  checkIdentifier field.text
  .ok (if t.quoteIdentifiers then ".".intercalate (field.parts.map t.dialect.quoteIdentifier)
    else field.text)

/-- The condition that a field matches a pattern. -/
def patternCondition (field : String) (operator : Operator) (pattern : String) :
    Except TranslateError (List Piece) := do
  checkPattern pattern
  let bound (p : List Char) := bind (.text (String.ofList p))
  match operator, t.dialect.globOperator? with
  | .like, some glob =>
    .ok [.text (field ++ " " ++ glob ++ " "), ← bound (Pattern.toGlob pattern.toList)]
  | operator, _ =>
    let keyword := if operator = .ilike ∧ t.dialect.hasIlike then "ILIKE" else "LIKE"
    .ok [.text (field ++ " " ++ keyword ++ " "), ← bound (Pattern.toLike pattern.toList),
      .text t.dialect.likeEscape]

/-- The condition of an operator and a value, case included. -/
def condition (field : String) (operator : Operator) (value : Value) :
    Except TranslateError (List Piece) :=
  match operator, value with
  | .eq, .null => .ok [.text (field ++ " IS NULL")]
  | .ne, .null => .ok [.text (field ++ " IS NOT NULL")]
  | .oneOf, .list items | .eq, .list items => membership field "IN" "1 = 0" operator items
  | .noneOf, .list items | .ne, .list items => membership field "NOT IN" "1 = 1" operator items
  | .between, .range low high closedLow closedHigh =>
    inRange field operator low high closedLow closedHigh
  | .between, .list [low, high] => inRange field operator (some low) (some high) true true
  | .between, .list _ => .error (.invalidValue operator .notTwoBounds)
  | .like, .text pattern | .ilike, .text pattern => t.patternCondition field operator pattern
  | .regex, .text pattern =>
    match t.dialect.regexOperator? with
    | none => .error (.unsupportedOperator operator t.dialect)
    | some regex => onSide field regex (.text pattern)
  | operator, value =>
    match comparisonSign? operator with
    | some sign =>
      if value.isScalar && !value.isNull then onSide field sign value
      else .error (.invalidValue operator (.ofValue value))
    | none => .error (.invalidValue operator (.ofValue value))

/-- The condition of a comparison. -/
def comparison (c : Comparison) : Except TranslateError (List Piece) := do
  let field ← t.fieldText c.field
  if t.foldCase && c.foldsCase then
    let sign := (comparisonSign? c.operator).getD ""
    .ok [.text ("lower(" ++ field ++ ") " ++ sign ++ " lower("), ← bind c.value, .text ")"]
  else t.condition field c.operator c.value

end Translator

/-! ## Raw conditions -/

/-- Puts values between chunks of text. -/
def interleave : List (List Char) → List Piece → List Piece
  | [], pieces => pieces
  | chunk :: _, [] => [.text (String.ofList chunk)]
  | chunk :: chunks, piece :: pieces =>
    .text (String.ofList chunk) :: piece :: interleave chunks pieces

/-- The condition of a raw condition: its text, with a parameter for each question mark. -/
def rawCondition (r : RawCondition) : Except TranslateError (List Piece) :=
  let markers := r.sql.toList.count '?'
  if markers ≠ r.params.length then .error (.rawParameterMismatch markers r.params.length)
  else do
    let bound ← r.params.mapM bind
    .ok (interleave (Text.split '?' r.sql.toList) bound)

/-! ## Trees -/

/-- What is still to be written: a text, or a node with the number of connectives above it. -/
inductive Task where
  | text (s : String)
  | node (q : Query) (ancestors : Nat)

namespace Task

/-- The number of steps that a node takes. -/
def nodeWeight : Query → Nat
  | .comparison _ | .raw _ => 1
  | .unary _ q => nodeWeight q + 2
  | .binary _ l r => nodeWeight l + nodeWeight r + 3

/-- The number of steps that an agenda takes. -/
def weight : List Task → Nat
  | [] => 0
  | text _ :: tasks => 1 + weight tasks
  | node q _ :: tasks => nodeWeight q + weight tasks

/-- What is to be written behind the opening of a node. -/
def inside (ancestors : Nat) : Query → List Task
  | .unary _ q => [node q (ancestors + 1), text ")"]
  | .binary op l r =>
    [node l (ancestors + 1), text (if op = .and then ") AND (" else ") OR ("),
      node r (ancestors + 1), text ")"]
  | _ => []

theorem weight_inside_lt (ancestors : Nat) (q : Query) (tasks : List Task) :
    weight (inside ancestors q ++ tasks) < weight (node q ancestors :: tasks) := by
  cases q <;> simp [inside, weight, nodeWeight] <;> omega

end Task

namespace Translator

variable (t : Translator)

/-- The pieces at the opening of a node: all of a leaf, and the opening parenthesis of a
connective. -/
def opening (ancestors : Nat) (q : Query) : Except TranslateError (List Piece) :=
  if t.maxDepth < ancestors then .error (.nestingTooDeep t.maxDepth)
  else match q with
    | .comparison c => t.comparison c
    | .raw r => rawCondition r
    | .unary .not _ => .ok [.text "NOT ("]
    | .unary _ _ => .error .unaryJunction
    | .binary .not _ _ => .error .binaryNot
    | .binary _ _ _ => .ok [.text "("]

/-- Writes what is on the agenda behind `done`, the pieces so far, last first. -/
def run (done : List Piece) : List Task → Except TranslateError (List Piece)
  | [] => .ok done.reverse
  | .text s :: tasks => run (.text s :: done) tasks
  | .node q ancestors :: tasks =>
    match t.opening ancestors q with
    | .error e => .error e
    | .ok pieces => run (pieces.reverse ++ done) (Task.inside ancestors q ++ tasks)
termination_by tasks => Task.weight tasks
decreasing_by
  · simp only [Task.weight]
    omega
  · exact Task.weight_inside_lt ancestors q tasks

/-- The pieces of a query. -/
def pieces (q : Query) : Except TranslateError (List Piece) :=
  t.run [] [.node q 0]

/-- Translates a query into a condition with placeholders. -/
def translate (q : Query) : Except TranslateError Fragment :=
  (t.pieces q).map (Fragment.ofPieces t.dialect)

/-- Translates a query into a condition with literals, for display. -/
def translateInline (q : Query) : Except TranslateError String :=
  (t.pieces q).map (inlineOfPieces t.dialect)

end Translator

end QueryFilter.Sql
