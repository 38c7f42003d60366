import QueryFilter.Query.Progress

/-!
# Reading a query text

The grammar, lowest precedence first:

    disjunction  = conjunction { ("OR" | "||") conjunction }
    conjunction  = operand { [ "AND" | "&&" ] operand }
    operand      = { "+" } ( ("NOT" | "!" | "-") operand | "(" disjunction ")" | comparison )

Operands that stand side by side are joined by `and`.  A sign in front of an operand is attached to
it.

Negations and parentheses may be nested `maxNesting` levels deep.  The readers recurse on the number
of levels that remain: `operand (n + 1)` reads what stands inside by `operand n`, and `operand 0`
refuses to go in.  Within one level the readers loop, and every turn of a loop shortens the
remaining text, because an operand takes at least one character.
-/

namespace QueryFilter

open Text (skipBlanks)

/-- A reader that takes at least one character. -/
structure Reader (α : Type) where
  run : List Char → Except Fault (α × List Char)
  shortens : ∀ {s rest : List Char} {a : α}, run s = .ok (a, rest) → rest.length < s.length

/-! ## One level of the grammar -/

/-- Whether a conjunction ends at this text. -/
def endsConjunction (s : List Char) : Bool :=
  s.isEmpty || s.head? == some ')' || (orSign? s).isSome

/-- The text behind a sign of conjunction, if there is one. -/
def skipAndSign (s : List Char) : List Char := (andSign? s).getD s

theorem skipAndSign_length_le (s : List Char) : (skipAndSign s).length ≤ s.length := by
  unfold skipAndSign
  cases h : andSign? s with
  | none => exact Nat.le_refl _
  | some rest => exact Nat.le_of_lt (length_of_andSign? h)

/-- Reads the operands of a conjunction that follow the first, and joins them to it. -/
def readConjuncts (operand : Reader Query) (left : Query) (s : List Char) :
    Except Fault (Query × List Char) :=
  let s₁ := skipBlanks s
  if endsConjunction s₁ then .ok (left, s₁)
  else
    match _h : operand.run (skipAndSign s₁) with
    | .error fault => .error fault
    | .ok (right, rest) => readConjuncts operand (left.and right) rest
termination_by s.length
decreasing_by
  have := operand.shortens _h
  have := skipAndSign_length_le s₁
  have : s₁.length ≤ s.length := Text.skipBlanks_length_le s
  omega

theorem length_of_readConjuncts {operand : Reader Query} {left q : Query} {s rest : List Char}
    (h : readConjuncts operand left s = .ok (q, rest)) : rest.length ≤ s.length := by
  fun_induction readConjuncts operand left s with
  | case1 left s s₁ =>
    obtain ⟨-, rfl⟩ := Prod.mk.inj (Except.ok.inj h)
    exact Text.skipBlanks_length_le s
  | case2 => simp at h
  | case3 left s s₁ _ _ _ hright ih =>
    have := ih h
    have := operand.shortens hright
    have := skipAndSign_length_le s₁
    have : s₁.length ≤ s.length := Text.skipBlanks_length_le s
    omega

/-- Reads a conjunction. -/
def readConjunction (operand : Reader Query) (s : List Char) : Except Fault (Query × List Char) :=
  match operand.run s with
  | .error fault => .error fault
  | .ok (first, rest) => readConjuncts operand first rest

theorem length_of_readConjunction {operand : Reader Query} {q : Query} {s rest : List Char}
    (h : readConjunction operand s = .ok (q, rest)) : rest.length < s.length := by
  unfold readConjunction at h
  split at h
  · simp at h
  next hfirst => exact Nat.lt_of_le_of_lt (length_of_readConjuncts h) (operand.shortens hfirst)

/-- Reads the operands of a disjunction that follow the first, and joins them to it. -/
def readDisjuncts (operand : Reader Query) (left : Query) (s : List Char) :
    Except Fault (Query × List Char) :=
  let s₁ := skipBlanks s
  match _hor : orSign? s₁ with
  | none => .ok (left, s₁)
  | some s₂ =>
    match _hright : readConjunction operand s₂ with
    | .error fault => .error fault
    | .ok (right, rest) => readDisjuncts operand (left.or right) rest
termination_by s.length
decreasing_by
  have := length_of_readConjunction _hright
  have := length_of_orSign? _hor
  have : s₁.length ≤ s.length := Text.skipBlanks_length_le s
  omega

theorem length_of_readDisjuncts {operand : Reader Query} {left q : Query} {s rest : List Char}
    (h : readDisjuncts operand left s = .ok (q, rest)) : rest.length ≤ s.length := by
  fun_induction readDisjuncts operand left s with
  | case1 left s s₁ =>
    obtain ⟨-, rfl⟩ := Prod.mk.inj (Except.ok.inj h)
    exact Text.skipBlanks_length_le s
  | case2 => simp at h
  | case3 left s s₁ _ hor _ _ hright ih =>
    have := ih h
    have := length_of_readConjunction hright
    have := length_of_orSign? hor
    have : s₁.length ≤ s.length := Text.skipBlanks_length_le s
    omega

/-- Reads a disjunction. -/
def readDisjunction (operand : Reader Query) (s : List Char) : Except Fault (Query × List Char) :=
  match readConjunction operand s with
  | .error fault => .error fault
  | .ok (first, rest) => readDisjuncts operand first rest

theorem length_of_readDisjunction {operand : Reader Query} {q : Query} {s rest : List Char}
    (h : readDisjunction operand s = .ok (q, rest)) : rest.length < s.length := by
  unfold readDisjunction at h
  split at h
  · simp at h
  next hfirst =>
    exact Nat.lt_of_le_of_lt (length_of_readDisjuncts h) (length_of_readConjunction hfirst)

/-- Reads the parenthesis that closes a query. -/
def closeParenthesis (q : Query) (s : List Char) : Except Fault (Query × List Char) :=
  match skipBlanks s with
  | [] => .error (.here .unclosedParenthesis [])
  | c :: rest =>
    if c = ')' then .ok (q, rest) else .error (.here (.expectedParenthesis c) (c :: rest))

theorem length_of_closeParenthesis {q q' : Query} {s rest : List Char}
    (h : closeParenthesis q s = .ok (q', rest)) : rest.length < s.length := by
  have := Text.skipBlanks_length_le s
  unfold closeParenthesis at h
  split at h <;> grind

/-! ## Operands -/

/-- The text behind blanks and plus signs. -/
def skipPlusSigns : List Char → List Char
  | [] => []
  | c :: s => if Text.isBlank c || (c == '+' && attached s) then skipPlusSigns s else c :: s

theorem skipPlusSigns_length_le (s : List Char) : (skipPlusSigns s).length ≤ s.length := by
  induction s with
  | nil => exact Nat.le_refl _
  | cons c s ih =>
    unfold skipPlusSigns
    split
    · exact Nat.le_succ_of_le ih
    · exact Nat.le_refl _

/-- The text behind a sign of negation. -/
def notSign? (s : List Char) : Option (List Char) :=
  (keyword? "NOT" s).or
    (match s with
    | c :: rest => if (c = '!' ∨ c = '-') ∧ attached rest then some rest else none
    | [] => none)

theorem length_of_notSign? {s rest : List Char} (h : notSign? s = some rest) :
    rest.length < s.length := by
  rcases Option.or_eq_some_iff.mp h with h | ⟨-, h⟩
  · have := length_of_keyword? h
    simp at this
    omega
  · grind

/-- Reads an operand without signs in front of it.  What stands inside parentheses is read by
`inner`, which is absent where nothing may be nested. -/
def readPrimary (inner : Option (Reader Query)) : List Char → Except Fault (Query × List Char)
  | [] => .error (.here .missingTerm [])
  | c :: s =>
    if c = '(' then
      match inner with
      | none => .error (.here .tooDeep (c :: s))
      | some operand =>
        match readDisjunction operand s with
        | .error fault => .error fault
        | .ok (q, rest) => closeParenthesis q rest
    else if atKeyword "AND" (c :: s) || atKeyword "OR" (c :: s) then
      .error (.here .missingOperand (c :: s))
    else
      match readComparison (c :: s) with
      | .error fault => .error fault
      | .ok (comparison, rest) => .ok (.comparison comparison, rest)

theorem length_of_readPrimary {inner : Option (Reader Query)} {q : Query} {s rest : List Char}
    (h : readPrimary inner s = .ok (q, rest)) : rest.length < s.length := by
  unfold readPrimary at h
  split at h
  · simp at h
  · split at h
    · split at h
      · simp at h
      · split at h
        · simp at h
        next hinside =>
          have := length_of_readDisjunction hinside
          have := length_of_closeParenthesis h
          rw [List.length_cons]
          omega
    · split at h
      · simp at h
      · split at h
        · simp at h
        next hcomparison =>
          obtain ⟨-, rfl⟩ := Prod.mk.inj (Except.ok.inj h)
          exact length_of_readComparison hcomparison

/-- Reads an operand.  What stands behind a negation is read by `inner`, as is what stands inside
parentheses. -/
def readOperandWith (inner : Option (Reader Query)) (s : List Char) :
    Except Fault (Query × List Char) :=
  let s₁ := skipPlusSigns s
  match notSign? s₁ with
  | none => readPrimary inner s₁
  | some s₂ =>
    match inner with
    | none => .error (.here .tooDeep s₁)
    | some operand =>
      match operand.run s₂ with
      | .error fault => .error fault
      | .ok (q, rest) => .ok (q.not, rest)

theorem length_of_readOperandWith {inner : Option (Reader Query)} {q : Query} {s rest : List Char}
    (h : readOperandWith inner s = .ok (q, rest)) : rest.length < s.length := by
  have := skipPlusSigns_length_le s
  unfold readOperandWith at h
  dsimp only at h
  split at h
  · have := length_of_readPrimary h
    omega
  next hnot =>
    have := length_of_notSign? hnot
    split at h
    · simp at h
    next operand =>
      split at h
      · simp at h
      next hoperand =>
        obtain ⟨-, rfl⟩ := Prod.mk.inj (Except.ok.inj h)
        have := operand.shortens hoperand
        omega

/-- Reads an operand with at most `levels` negations and parentheses nested in it. -/
def operand : (levels : Nat) → Reader Query
  | 0 => ⟨readOperandWith none, length_of_readOperandWith⟩
  | levels + 1 => ⟨readOperandWith (some (operand levels)), length_of_readOperandWith⟩

/-! ## Query texts -/

/-- Reads a query that is the whole text, with at most `levels` negations and parentheses nested in
it. -/
def readQuery (levels : Nat) (s : List Char) : Except Fault Query :=
  match readDisjunction (operand levels) s with
  | .error fault => .error fault
  | .ok (q, rest) =>
    match skipBlanks rest with
    | [] => .ok q
    | c :: rest => .error (.here (.unexpected c) (c :: rest))

/-- Reads the text of a query. -/
def Query.parse (text : String) : Except ParseError Query :=
  let s := text.toList
  if maxInputLength < s.length then .error ⟨.text .tooLong, maxInputLength⟩
  else if (skipBlanks s).isEmpty then .error ⟨.text .empty, 0⟩
  else (readQuery maxNesting s).mapError fun fault => ⟨fault.cause, s.length - fault.left⟩

end QueryFilter
