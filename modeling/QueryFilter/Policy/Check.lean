import QueryFilter.Pattern
import QueryFilter.Policy
import QueryFilter.Policy.Coercion
import QueryFilter.Policy.Schema
import QueryFilter.Query.Measure
import QueryFilter.Query.Place

/-!
# Checking a query against a policy

A query is checked in passes, and the first violation of the first pass that finds one is the
result: qualified names, field access, operators, denied values, depth, number of conditions, shape
and length of values, and wildcards.  Each pass looks at every comparison from left to right.  Raw
conditions count as conditions, and nothing else about them is checked.

A query that passes is returned with the runs of wildcards in its patterns collapsed, if the policy
asks for that.
-/

namespace QueryFilter

/-- How a query violates a policy. -/
inductive Violation where
  | qualifiedField
  | fieldAccess
  | deniedOperator (operator : Operator)
  | deniedValue
  | tooDeep (max : Nat)
  | tooManyClauses (count max : Nat)
  | listTooLong (max : Nat)
  | notScalar
  | valueTooLong (max : Nat)
  | tooManyWildcards (count : Nat)
  | complexPattern
  deriving DecidableEq

/-- The wording of a violation.  It does not tell a denied field from one that does not exist. -/
def Violation.message : Violation → String
  | qualifiedField => "table-qualified field names are not allowed"
  | fieldAccess => "query references a field that is not available"
  | deniedOperator operator => "operator " ++ operator.symbol ++ " is not allowed"
  | deniedValue => "query compares a field against a value that is not allowed"
  | tooDeep max => s!"query nesting exceeds the maximum depth of {max}"
  | tooManyClauses count max => s!"query has {count} clauses, the maximum is {max}"
  | listTooLong max => s!"list has more than {max} values"
  | notScalar => "only scalar values are allowed here"
  | valueTooLong max => s!"value exceeds the maximum length of {max} characters"
  | tooManyWildcards count =>
    s!"pattern has {count} wildcards, the maximum is {Pattern.maxWildcards}"
  | complexPattern => "pattern alternates wildcards and literals too many times"

/-- The scalars that a value compares a field with: itself, its items or its bounds. -/
def Value.parts : Value → List Value
  | .list items => items
  | .range low high _ _ => bounds low high
  | v => [v]

theorem Value.parts_of_isScalar {v : Value} (hscalar : v.isScalar) : v.parts = [v] := by
  cases v with
  | list | range => cases hscalar
  | null | bool | int | float | text => rfl

namespace Policy

variable (p : Policy)

/-! ## Fields -/

/-- Whether a field may not be queried.  An entry without table denies the column in every table,
and an entry with one denies the column without table as well, since that may be the same. -/
def deniesField (f : FieldPath) : Bool :=
  p.deniedFields.contains f.text || p.deniedFields.contains f.column ||
    (!f.isQualified && p.deniedFields.any fun entry => lastSegment entry.toList == f.text.toList)

/-- The fields that may be queried.  If there are none, every field may be. -/
def allowSet (schema : Option Schema) : NameSet :=
  if p.allowedFields.isEmpty then (schema.map Schema.fieldNames).getD [] else p.allowedFields

/-- Whether a field may not be queried, or is not among those that may be. -/
def refusesField (allowed : NameSet) (f : FieldPath) : Bool :=
  p.deniesField f || (!allowed.isEmpty && !allowed.contains f.text)

/-! ## Values -/

/-- The values that a field may not be compared with: those of its path, or else of its column. -/
def deniedValuesOf (f : FieldPath) : List Value :=
  ((p.deniedValues.get? f.text).or (p.deniedValues.get? f.column)).getD []

/-- Whether a comparison compares its field with a denied value. -/
def refusesValue (c : Comparison) : Bool :=
  c.value.parts.any fun v => (p.deniedValuesOf c.field).any fun d => v.looselyEqual c.foldsCase d

/-- The violation of a value that has to be a scalar. -/
def scalarViolation? : Value → Option Violation
  | .list _ | .range .. => some .notScalar
  | .text s => if p.maxValueLength < s.length then some (.valueTooLong p.maxValueLength) else none
  | _ => none

/-- The violation of the value of a comparison. -/
def valueViolation? (v : Value) : Option Violation :=
  match v with
  | .list items =>
    if p.maxListLength < items.length then some (.listTooLong p.maxListLength)
    else items.findSome? p.scalarViolation?
  | v => v.parts.findSome? p.scalarViolation?

/-- The pattern of a comparison, if it has one. -/
def patternOf? (c : Comparison) : Option String :=
  if c.operator.isPattern then c.value.text? else none

/-- The violation of the pattern of a comparison. -/
def patternViolation? (c : Comparison) : Option Violation :=
  match (patternOf? c).bind fun s => Pattern.excess? s.toList with
  | some (.wildcards n) => some (.tooManyWildcards n)
  | some (.alternations _) => some .complexPattern
  | none => none

/-! ## The passes -/

/-- The violation if a condition is met. -/
def violationIf (condition : Bool) (v : Violation) : Option Violation :=
  if condition then some v else none

/-- The first violation of a query. -/
def violation? (schema : Option Schema) (q : Query) : Option Violation :=
  let comparisons := q.comparisons
  let allowed := p.allowSet schema
  let each (pass : Comparison → Option Violation) := comparisons.findSome? pass
  (each fun c => violationIf (!p.allowQualified && c.field.isQualified) .qualifiedField) <|>
  (each fun c => violationIf (p.refusesField allowed c.field) .fieldAccess) <|>
  (each fun c =>
    violationIf (p.deniedOperators.contains c.operator) (.deniedOperator c.operator)) <|>
  (each fun c => violationIf (p.refusesValue c) .deniedValue) <|>
  violationIf (Query.reachesBelow p.maxDepth [(q, 0)]) (.tooDeep p.maxDepth) <|>
  violationIf (p.maxClauses < q.clauseCount) (.tooManyClauses q.clauseCount p.maxClauses) <|>
  (each fun c => p.valueViolation? c.value) <|>
  (each fun c => if p.sanitizeWildcards then patternViolation? c else none)

/-- Checks a query. -/
def check (schema : Option Schema) (q : Query) : Except Violation Unit :=
  match p.violation? schema q with
  | some v => .error v
  | none => .ok ()

end Policy

/-! ## Sanitizing -/

/-- Collapses the wildcards of the pattern of a comparison, if it has one. -/
def Comparison.collapse (c : Comparison) : Comparison :=
  match Policy.patternOf? c with
  | some s => { c with value := .text (String.ofList (Pattern.collapse s.toList)) }
  | none => c

/-- Collapses the wildcards of the patterns at the places of an agenda and below them, each where it
stands.  What is to the right comes first. -/
def Query.collapseFrom (q : Query) : (agenda : List Place) → Query
  | [] => q
  | place :: agenda =>
    match _h : q.at? place with
    | some (.comparison c) => (q.replaceAt place (.comparison c.collapse)).collapseFrom agenda
    | some (.unary _ _) => q.collapseFrom ((place ++ [.left]) :: agenda)
    | some (.binary _ _ _) =>
      q.collapseFrom ((place ++ [.right]) :: (place ++ [.left]) :: agenda)
    | some (.raw _) | none => q.collapseFrom agenda
termination_by agenda => q.sizeOn agenda
decreasing_by
  · rw [sizeOn_replaceAt _h, sizeOn, sizeAt_of_at? _h, size]
    omega
  · have := sizeAt_operand _h
    simp only [sizeOn]
    omega
  · have := sizeAt_operands _h
    simp only [sizeOn]
    omega
  · rw [sizeOn, sizeAt_of_at? _h, size]
    omega
  · simp only [sizeOn, sizeAt, _h, Option.elim_none]
    omega

/-- Collapses the wildcards of all patterns of a query, each where it stands. -/
def Query.sanitize (q : Query) : Query := q.collapseFrom [[]]

/-- Checks a query, and returns it in the form in which it may be used. -/
def Policy.validate (p : Policy) (schema : Option Schema) (q : Query) : Except Violation Query :=
  (p.check schema q).map fun _ => if p.sanitizeWildcards then q.sanitize else q

end QueryFilter
