import QueryFilter.Query.Grammar

/-!
# The faults of a comparison

A comparison is not nested, so no fault in it is that too much is nested, wherever it is read
(`readComparison_shallow`).  The readers of its parts are gone through one by one: each finds faults
of its own, and the faults of the readers that it calls.
-/

namespace QueryFilter

/-- A step does not fail because too much is nested. -/
def Shallow {α : Type} (x : Except Fault α) : Prop :=
  ∀ fault, x = .error fault → fault.cause.kind ≠ .nestingTooDeep

namespace Shallow

variable {α β : Type}

theorem ok (a : α) : Shallow (.ok a) := nofun

theorem error {fault : Fault} (h : fault.cause.kind ≠ .nestingTooDeep) :
    Shallow (.error fault : Except Fault α) := by
  rintro _ ⟨⟩
  exact h

theorem bind {x : Except Fault α} (hx : Shallow x) {f : α → Except Fault β}
    (hf : ∀ a, Shallow (f a)) : Shallow (x >>= f) := by
  cases x with
  | error fault => exact error (hx fault rfl)
  | ok a => exact hf a

end Shallow

/-! ## Words -/

theorem kind_atEndOr {atEnd : ParseError.TextCause} {other : Char → ParseError.TextCause}
    (hend : atEnd.kind ≠ .nestingTooDeep) (hother : ∀ c, (other c).kind ≠ .nestingTooDeep)
    (s : List Char) : (Fault.atEndOr atEnd other s).cause.kind ≠ .nestingTooDeep := by
  cases s with
  | nil => exact hend
  | cons c s => exact hother c

theorem kind_unexpectedHere (s : List Char) :
    (Fault.unexpectedHere s).cause.kind ≠ .nestingTooDeep := kind_atEndOr (by nofun) (by nofun) s

theorem Term.read_shallow (s : List Char) : Shallow (Term.read s) := by
  fun_induction Term.read s with
  | case1 | case4 | case5 | case7 => exact .ok _
  | case2 => exact .error (by rintro ⟨⟩)
  | case3 e s fault hread ih => exact .error (ih fault hread)
  | case6 c s hc hends fault hread ih => exact .error (ih fault hread)

theorem readQuoted_shallow (s : List Char) : Shallow (readQuoted s) := by
  unfold readQuoted
  split
  · exact .ok _
  · exact .error nofun

theorem readRegex_shallow (s : List Char) : Shallow (readRegex s) := by
  unfold readRegex
  split
  · exact .error nofun
  · exact .ok _
  · exact .error nofun

/-! ## Ranges and groups -/

theorem readBound_shallow (s : List Char) : Shallow (readBound s) := by
  have hterm := Term.read_shallow s
  have hquoted := readQuoted_shallow s.tail
  unfold readBound
  intro fault h
  grind [Shallow, Fault.here, ParseError.Cause.kind, ParseError.TextCause.kind]

theorem readRangeEnd_shallow (s : List Char) : Shallow (readRangeEnd s) := by
  unfold readRangeEnd
  intro fault h
  grind [Shallow, Fault.here, ParseError.Cause.kind, ParseError.TextCause.kind]

theorem readRange_shallow (closedLow : Bool) (s : List Char) : Shallow (readRange closedLow s) := by
  refine (readBound_shallow _).bind fun low => ?_
  dsimp only
  split
  · exact .error (kind_atEndOr (by nofun) (by nofun) _)
  · refine (readBound_shallow _).bind fun high => ?_
    exact (readRangeEnd_shallow _).bind fun close => .ok _

theorem readGroupValue_shallow (s : List Char) : Shallow (readGroupValue s) := by
  have hterm := Term.read_shallow s
  have hquoted := readQuoted_shallow s.tail
  unfold readGroupValue
  intro fault h
  grind [Shallow, Fault.here, ParseError.Cause.kind, ParseError.TextCause.kind, kind_unexpectedHere]

theorem groupWordFault?_shallow {s : List Char} {fault : Fault}
    (h : groupWordFault? s = some fault) :
    fault.cause.kind ≠ .nestingTooDeep := by
  grind [groupWordFault?, Fault.here, ParseError.Cause.kind, ParseError.TextCause.kind]

theorem readGroupValues_shallow (isFirst : Bool) (s : List Char) :
    Shallow (readGroupValues isFirst s) := by
  fun_induction readGroupValues isFirst s with
  | case1 | case5 => exact .ok _
  | case2 isFirst s s₁ _ s₂ fault hfault => exact .error (groupWordFault?_shallow hfault)
  | case3 isFirst s s₁ _ s₂ _ fault hitem => exact .error (readGroupValue_shallow s₂ fault hitem)
  | case4 isFirst s s₁ _ s₂ _ item rest hitem fault hitems ih => exact .error (ih fault hitems)

theorem readGroup_shallow (s : List Char) : Shallow (readGroup s) := by
  have hitems := readGroupValues_shallow true s
  unfold readGroup
  split
  next fault h => exact .error (hitems fault h)
  next => exact .error nofun
  next => exact .ok _

/-! ## Clauses -/

theorem withOperator_shallow (operator : Operator) {found : Except Fault (Value × List Char)}
    (h : Shallow found) : Shallow (withOperator operator found) := by
  unfold withOperator
  split
  next fault => exact .error (h fault rfl)
  next => exact .ok _

theorem readOperand_shallow (operator : Operator) (s : List Char) :
    Shallow (readOperand operator s) := by
  unfold readOperand
  split
  next => exact .error nofun
  next c s =>
    split
    next => exact withOperator_shallow operator (readQuoted_shallow s)
    next =>
      split
      next =>
        split
        next membership _ => exact withOperator_shallow membership (readGroup_shallow s)
        next => exact .error nofun
      next =>
        split
        next => exact .error nofun
        next =>
          split
          next fault h => exact .error (Term.read_shallow _ fault h)
          next =>
            split
            next => exact .error (kind_unexpectedHere _)
            next => exact .ok _

theorem readBare_shallow (s : List Char) : Shallow (readBare s) := by
  have hterm := Term.read_shallow s
  unfold readBare
  intro fault h
  grind [Shallow, Fault.here, ParseError.Cause.kind, ParseError.TextCause.kind, kind_unexpectedHere]

theorem readClause_shallow (s : List Char) : Shallow (readClause s) := by
  unfold readClause
  split
  next => exact .error nofun
  next c s =>
    split
    next => exact .error nofun
    next =>
      split
      next =>
        split
        next => exact .error nofun
        next operator rest _ => exact readOperand_shallow operator rest
      next =>
        repeat' split
        · exact withOperator_shallow .eq (readQuoted_shallow s)
        · exact withOperator_shallow .regex (readRegex_shallow s)
        · exact withOperator_shallow .between (readRange_shallow true s)
        · exact withOperator_shallow .between (readRange_shallow false s)
        · exact withOperator_shallow .oneOf (readGroup_shallow s)
        · exact readBare_shallow (c :: s)

/-- A comparison does not fail because too much is nested. -/
theorem readComparison_shallow (s : List Char) : Shallow (readComparison s) := by
  refine (Term.read_shallow s).bind fun name => ?_
  dsimp only
  split
  next => exact .error (kind_atEndOr (by nofun) (by nofun) _)
  next =>
    split
    next =>
      split
      next => exact .error nofun
      next =>
        split
        next => exact .error nofun
        next => exact (readClause_shallow _).bind fun clause => .ok _
    next => exact .error (kind_atEndOr (by nofun) (by nofun) _)

end QueryFilter
