import QueryFilter.Query.Term

/-!
# Comparisons in a query text

A comparison is a field, a colon and a clause.  The clause is a bare term, a quoted text, a regular
expression, a range, a group of values, or a comparison sign and a value.

Bare terms are typed, and a bare term with a wildcard is a pattern unless a comparison sign stands
in front of it.  A bare word that is tested for equality ignores case; everything else is exact.
-/

namespace QueryFilter

open Text (isBlank skipBlanks)

/-! ## Ranges -/

/-- Reads a bound of a range.  A star alone is an open bound. -/
def readBound : List Char → Except Fault (Option Value × List Char)
  | [] => .error (.here .unclosedRange [])
  | c :: s =>
    if c = '"' then
      match readQuoted s with
      | .error fault => .error fault
      | .ok (v, rest) => .ok (some v, rest)
    else
      match Term.read (c :: s) with
      | .error fault => .error fault
      | .ok (t, rest) =>
        if t = [] then .error (.here .expectedBound rest)
        else if t.hasWildcard then
          if t.text = ['*'] then .ok (none, rest) else .error (.here .wildcardInBound (c :: s))
        else if t.scalar.isNull then .error ⟨.nullBound, (c :: s).length⟩
        else .ok (some t.scalar, rest)

/-- Reads the bracket that closes a range, and tells whether the upper bound belongs to it. -/
def readRangeEnd : List Char → Except Fault (Bool × List Char)
  | [] => .error (.here .unclosedRange [])
  | c :: s =>
    if c = ']' then .ok (true, s)
    else if c = '\x7d' then .ok (false, s)
    else .error (.here .expectedRangeEnd (c :: s))

/-- Reads a range behind its opening bracket. -/
def readRange (closedLow : Bool) (s : List Char) : Except Fault (Value × List Char) := do
  let (low, s) ← readBound (skipBlanks s)
  let s := skipBlanks s
  match keyword? "TO" s with
  | none => .error (.atEndOr .unclosedRange (fun _ => .expectedTo) s)
  | some s =>
    let (high, s) ← readBound (skipBlanks s)
    let (closedHigh, s) ← readRangeEnd (skipBlanks s)
    .ok (.range low high closedLow closedHigh, s)

/-! ## Groups -/

/-- Reads a value of a group. -/
def readGroupValue : List Char → Except Fault (Value × List Char)
  | [] => .error (.here .unclosedGroup [])
  | c :: s =>
    if c = '"' then readQuoted s
    else if c = '(' ∨ c = '[' ∨ c = '\x7b' then .error (.here .nonScalarInGroup (c :: s))
    else
      match Term.read (c :: s) with
      | .error fault => .error fault
      | .ok (t, rest) =>
        if t = [] then .error (.unexpectedHere rest)
        else if t.hasWildcard then .error (.here .wildcardInGroup (c :: s))
        else .ok (t.scalar, rest)

theorem length_of_readGroupValue {s rest : List Char} {v : Value}
    (h : readGroupValue s = .ok (v, rest)) : rest.length < s.length := by
  unfold readGroupValue at h
  split at h
  · simp at h
  · split at h
    · have := length_of_readQuoted h
      simp only [List.length_cons]
      omega
    · split at h
      · simp at h
      · split at h
        · simp at h
        next ht =>
          have := Term.length_of_read ht
          grind [List.length_pos_iff]

/-- The text at the next value of a group, behind the sign of disjunction that may precede every
value but the first. -/
def nextGroupValue (isFirst : Bool) (s : List Char) : List Char :=
  if isFirst then s
  else match orSign? s with
    | some rest => skipBlanks rest
    | none => s

theorem nextGroupValue_length_le (isFirst : Bool) (s : List Char) :
    (nextGroupValue isFirst s).length ≤ s.length := by
  unfold nextGroupValue
  split
  · exact Nat.le_refl _
  · split
    next rest h =>
      have := length_of_orSign? h
      have := Text.skipBlanks_length_le rest
      omega
    · exact Nat.le_refl _

/-- The fault of a word at the place of a group value that cannot stand there. -/
def groupWordFault? (s : List Char) : Option Fault :=
  if atKeyword "AND" s || atKeyword "NOT" s || (symbol? "&&" s).isSome then
    some (.here .onlyOrInGroup s)
  else if atKeyword "OR" s then some (.here .expectedGroupValue s)
  else none

/-- Reads the values of a group up to its closing parenthesis. -/
def readGroupValues (isFirst : Bool) (s : List Char) : Except Fault (List Value × List Char) :=
  let s₁ := skipBlanks s
  if s₁.head? = some ')' then .ok ([], s₁.tail)
  else
    let s₂ := nextGroupValue isFirst s₁
    match groupWordFault? s₂ with
    | some fault => .error fault
    | none =>
      match _h : readGroupValue s₂ with
      | .error fault => .error fault
      | .ok (item, rest) =>
        match readGroupValues false rest with
        | .error fault => .error fault
        | .ok (items, rest) => .ok (item :: items, rest)
termination_by s.length
decreasing_by
  have := length_of_readGroupValue _h
  have : s₂.length ≤ s₁.length := nextGroupValue_length_le isFirst s₁
  have : s₁.length ≤ s.length := Text.skipBlanks_length_le s
  omega

/-- Reads a group behind its opening parenthesis. -/
def readGroup (s : List Char) : Except Fault (Value × List Char) :=
  match readGroupValues true s with
  | .error fault => .error fault
  | .ok ([], _) => .error ⟨.text .emptyGroup, s.length + 1⟩
  | .ok (items, rest) => .ok (.list items, rest)

/-! ## Clauses -/

/-- An operator and a value as they are read. -/
structure Clause where
  operator : Operator
  value : Value
  ignoreCase : Bool := false

namespace Clause

/-- The clause of a bare term behind an operator. -/
def bare (operator : Operator) (t : Term) : Clause :=
  ⟨operator, t.scalar, operator.isEquality && t.scalar.text?.isSome⟩

/-- The comparison of a field by a clause. -/
def on (c : Clause) (field : FieldPath) : Comparison :=
  ⟨field, c.operator, c.value, c.ignoreCase⟩

end Clause

/-- Attaches an operator to the value that a reader has found. -/
def withOperator (operator : Operator) (found : Except Fault (Value × List Char)) :
    Except Fault (Clause × List Char) :=
  match found with
  | .error fault => .error fault
  | .ok (v, rest) => .ok (⟨operator, v, false⟩, rest)

/-- The operator of a comparison sign, and the text behind the sign. -/
def comparator? : List Char → Option (Operator × List Char)
  | [] => none
  | c :: s =>
    let (strict, wide) : Option Operator × Option Operator :=
      if c = '>' then (some .gt, some .gte)
      else if c = '<' then (some .lt, some .lte)
      else if c = '=' then (some .eq, none)
      else if c = '!' then (none, some .ne)
      else (none, none)
    match wide, s.head? with
    | some operator, some '=' => some (operator, s.tail)
    | _, _ => strict.map (·, s)

/-- The operator of a group behind a comparison sign. -/
def groupOperator? : Operator → Option Operator
  | .eq => some .oneOf
  | .ne => some .noneOf
  | _ => none

/-- Reads the value behind a comparison sign.  Wildcards are literal here. -/
def readOperand (operator : Operator) : List Char → Except Fault (Clause × List Char)
  | [] => .error (.here .missingOperatorValue [])
  | c :: s =>
    if c = '"' then withOperator operator (readQuoted s)
    else if c = '(' then
      match groupOperator? operator with
      | some membership => withOperator membership (readGroup s)
      | none => .error (.here .groupAfterOrdering (c :: s))
    else if c = '[' ∨ c = '\x7b' then .error (.here .rangeAfterComparator (c :: s))
    else
      match Term.read (c :: s) with
      | .error fault => .error fault
      | .ok (t, rest) =>
        if t = [] then .error (.unexpectedHere rest) else .ok (.bare operator t, rest)

/-- Reads a bare term that is the whole clause.  With a wildcard it is a pattern. -/
def readBare (s : List Char) : Except Fault (Clause × List Char) :=
  match Term.read s with
  | .error fault => .error fault
  | .ok (t, rest) =>
    if t = [] then .error (.unexpectedHere rest)
    else if t.hasWildcard then
      if t.hasEscapedWildcard then .error (.here .mixedWildcards s)
      else .ok (⟨.like, .text (String.ofList t.text), false⟩, rest)
    else .ok (.bare .eq t, rest)

/-- Reads the clause behind the colon. -/
def readClause : List Char → Except Fault (Clause × List Char)
  | [] => .error (.here .missingValue [])
  | c :: s =>
    if isBlank c then .error (.here .expectedValue (c :: s))
    else if c = '>' ∨ c = '<' ∨ c = '=' ∨ c = '!' then
      match comparator? (c :: s) with
      | none => .error (.here .expectedComparator (c :: s))
      | some (operator, rest) => readOperand operator rest
    else if c = '"' then withOperator .eq (readQuoted s)
    else if c = '/' then withOperator .regex (readRegex s)
    else if c = '[' then withOperator .between (readRange true s)
    else if c = '\x7b' then withOperator .between (readRange false s)
    else if c = '(' then withOperator .oneOf (readGroup s)
    else readBare (c :: s)

/-- Reads a comparison. -/
def readComparison (s : List Char) : Except Fault (Comparison × List Char) := do
  let (name, rest) ← Term.read s
  if name = [] then .error (.atEndOr .missingField .unexpected rest)
  else match rest with
    | ':' :: rest =>
      if name.hasWildcard then .error (.here .wildcardInField s)
      else match FieldPath.ofString (String.ofList name.text) with
        | .error fault => .error ⟨.field fault, s.length⟩
        | .ok field =>
          let (clause, rest) ← readClause rest
          .ok (clause.on field, rest)
    | rest => .error (.atEndOr .missingColon (fun _ => .expectedColon name.text) rest)

end QueryFilter
