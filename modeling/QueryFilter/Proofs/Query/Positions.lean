import Mathlib.Data.List.TakeWhile
import QueryFilter.Proofs.Steps
import QueryFilter.Query.Grammar

/-!
# Faults lie in the text

An error of the reader of texts has a position, and the position is one in the text that was read:
at its end if the text ended too early, and at a character of it otherwise, which is the opening
quote or the opening slash if the fault is that it has no partner (`Query.parse_pointsInto`).

Readers know nothing of positions.  They have the text that remains, and what they leave, and the
place of a fault they find, is an ending of it (`StaysIn`).  Endings of endings are endings, so a
reader stays in its text if the readers that it calls do.  What is at the place of a fault depends
on the kind of the fault only (`ParseError.Cause.FitsHead`), and it is looked at where the fault is
found.
-/

namespace QueryFilter

open Text (isBlank skipBlanks)

/-! ## Places -/

/-- What stands at the place of a fault in a text. -/
def ParseError.Cause.FitsHead (cause : ParseError.Cause) (place : List Char) : Prop :=
  match cause.kind with
  | .emptyQuery | .inputTooLong => False
  | .unexpectedEnd => place = []
  | .unterminatedString => place.head? = some '"'
  | .unterminatedRegex => place.head? = some '/'
  | _ => place ≠ []

/-- The place of a fault is an ending of a text, and what stands there fits the cause. -/
def Fault.LiesIn (fault : Fault) (s : List Char) : Prop :=
  ∃ place, place <:+ s ∧ fault.left = place.length ∧ fault.cause.FitsHead place

/-- What a reader leaves is an ending of the text, and so is the place of a fault that it finds. -/
def StaysIn {α : Type} (s : List Char) : Except Fault (α × List Char) → Prop
  | .ok (_, rest) => rest <:+ s
  | .error fault => fault.LiesIn s

namespace Fault

variable {s s' : List Char}

theorem LiesIn.mono {fault : Fault} (h : fault.LiesIn s) (hs : s <:+ s') : fault.LiesIn s' := by
  obtain ⟨place, hplace, hleft, hfits⟩ := h
  exact ⟨place, hplace.trans hs, hleft, hfits⟩

theorem liesIn_of_suffix {cause : ParseError.Cause} {place : List Char} (hplace : place <:+ s)
    (hfits : cause.FitsHead place) : (Fault.mk cause place.length).LiesIn s :=
  ⟨place, hplace, rfl, hfits⟩

theorem liesIn_head {cause : ParseError.Cause} (hfits : cause.FitsHead s) :
    (Fault.mk cause s.length).LiesIn s :=
  liesIn_of_suffix List.suffix_rfl hfits

/-- A fault that is one thing at the end of the text, and another in front of a character. -/
theorem liesIn_atEndOr {atEnd : ParseError.TextCause} {other : Char → ParseError.TextCause}
    (hend : (ParseError.Cause.text atEnd).FitsHead [])
    (hother : ∀ c s, (ParseError.Cause.text (other c)).FitsHead (c :: s)) :
    (atEndOr atEnd other s).LiesIn s := by
  cases s with
  | nil => exact liesIn_head hend
  | cons c s => exact liesIn_head (hother c s)

theorem liesIn_unexpectedHere : (unexpectedHere s).LiesIn s :=
  liesIn_atEndOr rfl fun c s => List.cons_ne_nil c s

end Fault

open Fault (liesIn_of_suffix liesIn_head liesIn_atEndOr liesIn_unexpectedHere)

namespace StaysIn

variable {α β : Type} {s s' : List Char} {x : Except Fault (α × List Char)}

theorem of_ok (h : StaysIn s x) {a : α} {rest : List Char} (hx : x = .ok (a, rest)) :
    rest <:+ s := by
  rw [hx] at h
  exact h

theorem of_error (h : StaysIn s x) {fault : Fault} (hx : x = .error fault) : fault.LiesIn s := by
  rw [hx] at h
  exact h

theorem mono (h : StaysIn s x) (hs : s <:+ s') : StaysIn s' x := by
  cases x with
  | error fault => exact Fault.LiesIn.mono h hs
  | ok found => exact List.IsSuffix.trans h hs

theorem bind (h : StaysIn s x) {f : α × List Char → Except Fault (β × List Char)}
    (hf : ∀ a rest, x = .ok (a, rest) → StaysIn rest (f (a, rest))) : StaysIn s (x >>= f) := by
  cases x with
  | error fault => exact h
  | ok found => exact (hf found.1 found.2 rfl).mono h

end StaysIn

/-! ## Blanks, signs and keywords -/

theorem skipBlanks_suffix (s : List Char) : skipBlanks s <:+ s := List.dropWhile_suffix isBlank

section Signs

variable {s rest : List Char}

theorem suffix_of_symbol? {symbol : String} (h : symbol? symbol s = some rest) : rest <:+ s :=
  ⟨symbol.toList, (eq_append_of_symbol? h).symm⟩

theorem suffix_of_keyword? {keyword : String} (h : keyword? keyword s = some rest) : rest <:+ s :=
  suffix_of_symbol? (Option.filter_eq_some_iff.mp h).1

theorem suffix_of_orSign? (h : orSign? s = some rest) : rest <:+ s := by
  rcases Option.or_eq_some_iff.mp h with h | ⟨-, h⟩
  · exact suffix_of_keyword? h
  · exact suffix_of_symbol? h

theorem suffix_of_andSign? (h : andSign? s = some rest) : rest <:+ s := by
  rcases Option.or_eq_some_iff.mp h with h | ⟨-, h⟩
  · exact suffix_of_keyword? h
  · exact suffix_of_symbol? h

theorem skipAndSign_suffix (s : List Char) : skipAndSign s <:+ s := by
  unfold skipAndSign
  cases h : andSign? s with
  | none => exact List.suffix_rfl
  | some rest => exact suffix_of_andSign? h

theorem skipPlusSigns_suffix (s : List Char) : skipPlusSigns s <:+ s := by
  induction s with
  | nil => exact List.suffix_rfl
  | cons c s ih =>
      unfold skipPlusSigns
      split
      · exact ih.trans (List.suffix_cons c s)
      · exact List.suffix_rfl

theorem suffix_of_notSign? (h : notSign? s = some rest) : rest <:+ s := by
  rcases Option.or_eq_some_iff.mp h with h | ⟨-, h⟩
  · exact suffix_of_keyword? h
  · split at h
    next c s =>
      split at h
      · cases h
        exact List.suffix_cons _ _
      · cases h
    · cases h

end Signs

/-! ## Words -/

namespace Term

theorem read_staysIn (s : List Char) : StaysIn s (read s) := by
  fun_induction read s with
  | case1 => exact List.suffix_rfl
  | case2 => exact liesIn_of_suffix List.nil_suffix rfl
  | case3 e s fault hread ih =>
      exact (ih.of_error hread).mono ((List.suffix_cons e s).trans (List.suffix_cons _ _))
  | case4 e s t rest hread ih =>
      exact (ih.of_ok hread).trans ((List.suffix_cons e s).trans (List.suffix_cons _ _))
  | case5 => exact List.suffix_rfl
  | case6 c s hc hends fault hread ih => exact (ih.of_error hread).mono (List.suffix_cons c s)
  | case7 c s hc hends t rest hread ih => exact (ih.of_ok hread).trans (List.suffix_cons c s)

/-- An empty term takes nothing from the text. -/
theorem eq_of_read_nil {s rest : List Char} (h : read s = .ok ([], rest)) : rest = s := by
  unfold read at h
  split at h
  · cases h
    rfl
  · split at h
    · split at h
      · cases h
      · split at h <;> cases h
    · split at h
      · cases h
        rfl
      · split at h <;> cases h

end Term

/-- What is done to the text that was read does not change what is left. -/
theorem exists_of_map_read {found : Option (List Char × List Char)} {f : List Char → List Char}
    {t rest : List Char} (h : (found.map fun (t, rest) => (f t, rest)) = some (t, rest)) :
    ∃ t', found = some (t', rest) := by
  obtain ⟨⟨t', rest'⟩, hfound, heq⟩ := Option.map_eq_some_iff.mp h
  cases heq
  exact ⟨t', hfound⟩

theorem suffix_of_readQuoted? {s t rest : List Char} (h : readQuoted? s = some (t, rest)) :
    rest <:+ s := by
  fun_induction readQuoted? s generalizing t with
  | case1 => cases h
  | case2 s =>
      cases h
      exact List.suffix_cons '"' _
  | case3 c s ih =>
      obtain ⟨t', hread⟩ := exists_of_map_read h
      exact (ih hread).trans ((List.suffix_cons c s).trans (List.suffix_cons _ _))
  | case4 c s hquote hescape ih =>
      obtain ⟨t', hread⟩ := exists_of_map_read h
      exact (ih hread).trans (List.suffix_cons c s)

theorem suffix_of_readRegex? {s t rest : List Char} (h : readRegex? s = some (t, rest)) :
    rest <:+ s := by
  fun_induction readRegex? s generalizing t with
  | case1 => cases h
  | case2 s =>
      cases h
      exact List.suffix_cons '/' _
  | case3 s ih =>
      obtain ⟨t', hread⟩ := exists_of_map_read h
      exact (ih hread).trans ((List.suffix_cons '/' s).trans (List.suffix_cons _ _))
  | case4 c s hslash ih =>
      obtain ⟨t', hread⟩ := exists_of_map_read (f := fun t => '\\' :: c :: t) h
      exact (ih hread).trans ((List.suffix_cons c s).trans (List.suffix_cons _ _))
  | case5 c s hslash hescaped hescape ih =>
      obtain ⟨t', hread⟩ := exists_of_map_read h
      exact (ih hread).trans (List.suffix_cons c s)

/-- A quoted text that does not end is a fault at its opening quote. -/
theorem readQuoted_staysIn (s : List Char) : StaysIn ('"' :: s) (readQuoted s) := by
  unfold readQuoted
  split
  next t rest hread => exact (suffix_of_readQuoted? hread).trans (List.suffix_cons '"' s)
  next => exact ⟨'"' :: s, List.suffix_rfl, rfl, rfl⟩

/-- A regular expression that does not end is a fault at its opening slash. -/
theorem readRegex_staysIn (s : List Char) : StaysIn ('/' :: s) (readRegex s) := by
  unfold readRegex
  split
  next => exact ⟨'/' :: s, List.suffix_rfl, rfl, List.cons_ne_nil '/' s⟩
  next t rest _ hread => exact (suffix_of_readRegex? hread).trans (List.suffix_cons '/' s)
  next => exact ⟨'/' :: s, List.suffix_rfl, rfl, rfl⟩

/-! ## Ranges and groups -/

theorem readBound_staysIn (s : List Char) : StaysIn s (readBound s) := by
  unfold readBound
  split
  next => exact liesIn_head rfl
  next c s =>
    split
    next hc =>
      subst hc
      have hquoted := readQuoted_staysIn s
      split
      next fault h => exact hquoted.of_error h
      next v rest h => exact hquoted.of_ok h
    next =>
      have hterm := Term.read_staysIn (c :: s)
      split
      next fault h => exact hterm.of_error h
      next t rest h =>
        split
        next ht =>
          subst ht
          rw [Term.eq_of_read_nil h]
          exact liesIn_head (List.cons_ne_nil c s)
        next =>
          split
          next =>
            split
            next => exact hterm.of_ok h
            next => exact liesIn_head (List.cons_ne_nil c s)
          next =>
            split
            next => exact liesIn_head (List.cons_ne_nil c s)
            next => exact hterm.of_ok h

theorem readRangeEnd_staysIn (s : List Char) : StaysIn s (readRangeEnd s) := by
  unfold readRangeEnd
  split
  next => exact liesIn_head rfl
  next c s =>
    split
    next => exact List.suffix_cons c s
    next =>
      split
      next => exact List.suffix_cons c s
      next => exact liesIn_head (List.cons_ne_nil c s)

theorem readRange_staysIn (closedLow : Bool) (s : List Char) :
    StaysIn s (readRange closedLow s) := by
  refine ((readBound_staysIn _).mono (skipBlanks_suffix s)).bind fun low s₁ _ => ?_
  refine StaysIn.mono ?_ (skipBlanks_suffix s₁)
  dsimp only
  split
  next => exact liesIn_atEndOr rfl fun c s => List.cons_ne_nil c s
  next s₂ hto =>
    refine StaysIn.mono ?_ (suffix_of_keyword? hto)
    refine ((readBound_staysIn _).mono (skipBlanks_suffix s₂)).bind fun high s₃ _ => ?_
    refine ((readRangeEnd_staysIn _).mono (skipBlanks_suffix s₃)).bind fun closedHigh s₄ _ => ?_
    exact List.suffix_rfl

theorem readGroupValue_staysIn (s : List Char) : StaysIn s (readGroupValue s) := by
  unfold readGroupValue
  split
  next => exact liesIn_head rfl
  next c s =>
    split
    next hc =>
      subst hc
      exact readQuoted_staysIn s
    next =>
      split
      next => exact liesIn_head (List.cons_ne_nil c s)
      next =>
        have hterm := Term.read_staysIn (c :: s)
        split
        next fault h => exact hterm.of_error h
        next t rest h =>
          split
          next => exact liesIn_unexpectedHere.mono (hterm.of_ok h)
          next =>
            split
            next => exact liesIn_head (List.cons_ne_nil c s)
            next => exact hterm.of_ok h

theorem nextGroupValue_suffix (isFirst : Bool) (s : List Char) :
    nextGroupValue isFirst s <:+ s := by
  unfold nextGroupValue
  split
  · exact List.suffix_rfl
  · split
    next rest h => exact (skipBlanks_suffix rest).trans (suffix_of_orSign? h)
    · exact List.suffix_rfl

theorem liesIn_of_groupWordFault? {s : List Char} {fault : Fault}
    (h : groupWordFault? s = some fault) : fault.LiesIn s := by
  have hne : s ≠ [] := by
    rintro rfl
    exact nomatch h
  unfold groupWordFault? at h
  split at h
  · cases h
    exact liesIn_head hne
  · split at h
    · cases h
      exact liesIn_head hne
    · cases h

theorem readGroupValues_staysIn (isFirst : Bool) (s : List Char) :
    StaysIn s (readGroupValues isFirst s) := by
  fun_induction readGroupValues isFirst s with
  | case1 isFirst s s₁ => exact (List.tail_suffix s₁).trans (skipBlanks_suffix s)
  | case2 isFirst s s₁ _ s₂ fault hfault =>
      have hs₂ : s₂ <:+ s := (nextGroupValue_suffix isFirst s₁).trans (skipBlanks_suffix s)
      exact (liesIn_of_groupWordFault? hfault).mono hs₂
  | case3 isFirst s s₁ _ s₂ _ fault hitem =>
      have hs₂ : s₂ <:+ s := (nextGroupValue_suffix isFirst s₁).trans (skipBlanks_suffix s)
      exact ((readGroupValue_staysIn s₂).of_error hitem).mono hs₂
  | case4 isFirst s s₁ _ s₂ _ item rest hitem fault hitems ih =>
      have hs₂ : s₂ <:+ s := (nextGroupValue_suffix isFirst s₁).trans (skipBlanks_suffix s)
      exact (ih.of_error hitems).mono (((readGroupValue_staysIn s₂).of_ok hitem).trans hs₂)
  | case5 isFirst s s₁ _ s₂ _ item rest hitem items rest' hitems ih =>
      have hs₂ : s₂ <:+ s := (nextGroupValue_suffix isFirst s₁).trans (skipBlanks_suffix s)
      exact (ih.of_ok hitems).trans (((readGroupValue_staysIn s₂).of_ok hitem).trans hs₂)

/-- An empty group is a fault at its opening parenthesis. -/
theorem readGroup_staysIn (opening : Char) (s : List Char) :
    StaysIn (opening :: s) (readGroup s) := by
  have hitems := (readGroupValues_staysIn true s).mono (List.suffix_cons opening s)
  unfold readGroup
  split
  next fault h => exact hitems.of_error h
  next => exact ⟨opening :: s, List.suffix_rfl, rfl, List.cons_ne_nil opening s⟩
  next h => exact hitems.of_ok h

/-! ## Clauses and comparisons -/

theorem withOperator_staysIn (operator : Operator) {s : List Char}
    {found : Except Fault (Value × List Char)} (h : StaysIn s found) :
    StaysIn s (withOperator operator found) := by
  unfold withOperator
  split
  next fault => exact h
  next v rest => exact h

theorem readOperand_staysIn (operator : Operator) (s : List Char) :
    StaysIn s (readOperand operator s) := by
  unfold readOperand
  split
  next => exact liesIn_head rfl
  next c s =>
    split
    next hc =>
      subst hc
      exact withOperator_staysIn operator (readQuoted_staysIn s)
    next =>
      split
      next =>
        split
        next membership _ => exact withOperator_staysIn membership (readGroup_staysIn c s)
        next => exact liesIn_head (List.cons_ne_nil c s)
      next =>
        split
        next => exact liesIn_head (List.cons_ne_nil c s)
        next =>
          have hterm := Term.read_staysIn (c :: s)
          split
          next fault h => exact hterm.of_error h
          next t rest h =>
            split
            next => exact liesIn_unexpectedHere.mono (hterm.of_ok h)
            next => exact hterm.of_ok h

theorem readBare_staysIn (c : Char) (s : List Char) : StaysIn (c :: s) (readBare (c :: s)) := by
  have hterm := Term.read_staysIn (c :: s)
  unfold readBare
  split
  next fault h => exact hterm.of_error h
  next t rest h =>
    split
    next => exact liesIn_unexpectedHere.mono (hterm.of_ok h)
    next =>
      split
      next =>
        split
        next => exact liesIn_head (List.cons_ne_nil c s)
        next => exact hterm.of_ok h
      next => exact hterm.of_ok h

theorem suffix_of_comparator? {operator : Operator} {s rest : List Char}
    (h : comparator? s = some (operator, rest)) : rest <:+ s := by
  unfold comparator? at h
  split at h
  · cases h
  next c s =>
    dsimp only at h
    split at h
    · cases h
      exact (List.tail_suffix s).trans (List.suffix_cons c s)
    · obtain ⟨_, -, hs⟩ := Option.map_eq_some_iff.mp h
      cases hs
      exact List.suffix_cons c _

theorem readClause_staysIn (s : List Char) : StaysIn s (readClause s) := by
  unfold readClause
  split
  next => exact liesIn_head rfl
  next c s =>
    have hnil : c :: s ≠ [] := List.cons_ne_nil c s
    have hrange (closedLow : Bool) : StaysIn (c :: s) (readRange closedLow s) :=
      (readRange_staysIn closedLow s).mono (List.suffix_cons c s)
    split
    next => exact liesIn_head hnil
    next =>
      split
      next =>
        split
        next => exact liesIn_head hnil
        next operator rest h =>
          exact (readOperand_staysIn operator rest).mono (suffix_of_comparator? h)
      next =>
        split
        next hc =>
          subst hc
          exact withOperator_staysIn .eq (readQuoted_staysIn s)
        next =>
          split
          next hc =>
            subst hc
            exact withOperator_staysIn .regex (readRegex_staysIn s)
          next =>
            split
            next => exact withOperator_staysIn .between (hrange true)
            next =>
              split
              next => exact withOperator_staysIn .between (hrange false)
              next =>
                split
                next => exact withOperator_staysIn .oneOf (readGroup_staysIn c s)
                next => exact readBare_staysIn c s

theorem readComparison_staysIn (c : Char) (s : List Char) :
    StaysIn (c :: s) (readComparison (c :: s)) := by
  have hterm := Term.read_staysIn (c :: s)
  unfold readComparison
  cases hread : Term.read (c :: s) with
  | error fault => exact hterm.of_error hread
  | ok found =>
      obtain ⟨name, rest⟩ := found
      have hrest : rest <:+ c :: s := hterm.of_ok hread
      dsimp only [bind, Except.bind]
      split
      next =>
        refine Fault.LiesIn.mono ?_ hrest
        exact liesIn_atEndOr rfl fun c s => List.cons_ne_nil c s
      next =>
        split
        next rest =>
          split
          next => exact liesIn_head (List.cons_ne_nil c s)
          next =>
            split
            next fault _ => exact liesIn_head (List.cons_ne_nil c s)
            next field _ =>
              have hclause := (readClause_staysIn rest).mono ((List.suffix_cons ':' rest).trans hrest)
              exact hclause.bind fun clause rest _ => List.suffix_rfl
        next =>
        refine Fault.LiesIn.mono ?_ hrest
        exact liesIn_atEndOr rfl fun c s => List.cons_ne_nil c s

/-! ## The grammar -/

/-- All outcomes of a reader stay in the text that it is given. -/
def Reader.Stays (operand : Reader Query) : Prop := ∀ s, StaysIn s (operand.run s)

section Level

variable {operand : Reader Query} (hoperand : operand.Stays)
include hoperand

theorem readConjuncts_staysIn (left : Query) (s : List Char) :
    StaysIn s (readConjuncts operand left s) := by
  fun_induction readConjuncts operand left s with
  | case1 left s s₁ => exact skipBlanks_suffix s
  | case2 left s s₁ _ fault hright =>
      have hs₁ : skipAndSign s₁ <:+ s := (skipAndSign_suffix s₁).trans (skipBlanks_suffix s)
      exact ((hoperand _).of_error hright).mono hs₁
  | case3 left s s₁ _ right rest hright ih =>
      have hs₁ : skipAndSign s₁ <:+ s := (skipAndSign_suffix s₁).trans (skipBlanks_suffix s)
      exact ih.mono (((hoperand _).of_ok hright).trans hs₁)

theorem readConjunction_staysIn (s : List Char) : StaysIn s (readConjunction operand s) := by
  unfold readConjunction
  split
  next fault h => exact (hoperand s).of_error h
  next first rest h => exact (readConjuncts_staysIn hoperand first rest).mono ((hoperand s).of_ok h)

theorem readDisjuncts_staysIn (left : Query) (s : List Char) :
    StaysIn s (readDisjuncts operand left s) := by
  fun_induction readDisjuncts operand left s with
  | case1 left s s₁ => exact skipBlanks_suffix s
  | case2 left s s₁ s₂ hor fault hright =>
      have hs₂ : s₂ <:+ s := (suffix_of_orSign? hor).trans (skipBlanks_suffix s)
      exact ((readConjunction_staysIn hoperand s₂).of_error hright).mono hs₂
  | case3 left s s₁ s₂ hor right rest hright ih =>
      have hs₂ : s₂ <:+ s := (suffix_of_orSign? hor).trans (skipBlanks_suffix s)
      exact ih.mono (((readConjunction_staysIn hoperand s₂).of_ok hright).trans hs₂)

theorem readDisjunction_staysIn (s : List Char) : StaysIn s (readDisjunction operand s) := by
  have hfirst := readConjunction_staysIn hoperand s
  unfold readDisjunction
  split
  next fault h => exact hfirst.of_error h
  next first rest h => exact (readDisjuncts_staysIn hoperand first rest).mono (hfirst.of_ok h)

end Level

theorem closeParenthesis_staysIn (q : Query) (s : List Char) :
    StaysIn s (closeParenthesis q s) := by
  have hskip := skipBlanks_suffix s
  unfold closeParenthesis
  split
  next => exact liesIn_of_suffix List.nil_suffix rfl
  next c rest heq =>
    rw [heq] at hskip
    split
    next => exact (List.suffix_cons c rest).trans hskip
    next => exact liesIn_of_suffix hskip (List.cons_ne_nil c rest)

section Operand

variable {inner : Option (Reader Query)} (hinner : ∀ operand ∈ inner, operand.Stays)
include hinner

theorem readPrimary_staysIn (s : List Char) : StaysIn s (readPrimary inner s) := by
  unfold readPrimary
  split
  next => exact liesIn_head rfl
  next c s =>
    split
    next =>
      split
      next => exact liesIn_head (List.cons_ne_nil c s)
      next operand =>
        have hinside := (readDisjunction_staysIn (hinner operand rfl) s).mono (List.suffix_cons c s)
        split
        next fault h => exact hinside.of_error h
        next q rest h => exact (closeParenthesis_staysIn q rest).mono (hinside.of_ok h)
    next =>
      split
      next => exact liesIn_head (List.cons_ne_nil c s)
      next =>
        have hcomparison := readComparison_staysIn c s
        split
        next fault h => exact hcomparison.of_error h
        next comparison rest h => exact hcomparison.of_ok h

theorem readOperandWith_staysIn (s : List Char) : StaysIn s (readOperandWith inner s) := by
  unfold readOperandWith
  refine StaysIn.mono ?_ (skipPlusSigns_suffix s)
  dsimp only
  split
  next => exact readPrimary_staysIn hinner _
  next s₂ hnot =>
    split
    next =>
      refine liesIn_head ?_
      intro hnil
      rw [hnil] at hnot
      exact nomatch hnot
    next operand =>
      have hnegated := (hinner operand rfl s₂).mono (suffix_of_notSign? hnot)
      split
      next fault h => exact hnegated.of_error h
      next q rest h => exact hnegated.of_ok h

end Operand

/-- Operands stay in their text, at whatever level. -/
theorem operand_stays (levels : Nat) : (operand levels).Stays := by
  induction levels with
  | zero => exact readOperandWith_staysIn fun _ hnone => absurd hnone (Option.not_mem_none _)
  | succ levels ih =>
      refine readOperandWith_staysIn ?_
      rintro _ ⟨⟩
      exact ih

theorem liesIn_of_readQuery {levels : Nat} {s : List Char} {fault : Fault}
    (h : readQuery levels s = .error fault) : fault.LiesIn s := by
  have hread := readDisjunction_staysIn (operand_stays levels) s
  unfold readQuery at h
  split at h
  next herror =>
    cases h
    exact hread.of_error herror
  next q rest hok =>
    split at h
    · cases h
    next c rest' heq =>
      cases h
      have hskip := skipBlanks_suffix rest
      rw [heq] at hskip
      exact liesIn_of_suffix (hskip.trans (hread.of_ok hok)) (List.cons_ne_nil c rest')

/-! ## Positions -/

/-- The position of an error is one in the text: at its end if the text ended too early, and at a
character of it otherwise.  Only a blank text is empty. -/
structure ParseError.PointsInto (e : ParseError) (s : List Char) : Prop where
  atEnd : e.kind = .unexpectedEnd → e.position = s.length
  empty : e.kind = .emptyQuery → e.position = 0 ∧ ∀ c ∈ s, isBlank c
  inside : e.kind ≠ .unexpectedEnd → e.kind ≠ .emptyQuery → e.position < s.length
  atQuote : e.kind = .unterminatedString → s[e.position]? = some '"'
  atSlash : e.kind = .unterminatedRegex → s[e.position]? = some '/'

/-- Where a fault lies in the text, its error points into it. -/
theorem Fault.LiesIn.pointsInto {fault : Fault} {s : List Char} (h : fault.LiesIn s) :
    (ParseError.mk fault.cause (s.length - fault.left)).PointsInto s := by
  obtain ⟨place, ⟨front, rfl⟩, hleft, hfits⟩ := h
  have hposition : (front ++ place).length - fault.left = front.length := by
    rw [hleft, List.length_append, Nat.add_sub_cancel]
  have hhead : (front ++ place)[front.length]? = place.head? := by
    rw [List.getElem?_append_right (Nat.le_refl _), Nat.sub_self, List.head?_eq_getElem?]
  have hlt (hplace : place ≠ []) : front.length < (front ++ place).length := by
    rw [List.length_append]
    exact Nat.lt_add_of_pos_right (List.length_pos_iff.mpr hplace)
  rw [hposition]
  unfold ParseError.Cause.FitsHead at hfits
  constructor
  case atEnd =>
    intro hkind
    rw [show fault.cause.kind = _ from hkind] at hfits
    rw [show place = [] from hfits, List.append_nil]
  case empty =>
    intro hkind
    rw [show fault.cause.kind = _ from hkind] at hfits
    exact hfits.elim
  case inside =>
    intro hend hempty
    apply hlt
    rintro rfl
    change fault.cause.kind ≠ _ at hend hempty
    split at hfits <;> simp_all
  case atQuote =>
    intro hkind
    rw [show fault.cause.kind = _ from hkind] at hfits
    exact hhead.trans hfits
  case atSlash =>
    intro hkind
    rw [show fault.cause.kind = _ from hkind] at hfits
    exact hhead.trans hfits

theorem forall_isBlank_of_skipBlanks {s : List Char} (h : skipBlanks s = []) :
    ∀ c ∈ s, isBlank c := List.dropWhile_eq_nil_iff.mp h

/-- **Errors point into the text.**  The position of an error of the reader of texts is the end of
the text if the text ended too early, and that of a character otherwise.  An unterminated text or
expression is reported at its opening quote or slash, and a text is reported as empty at its start,
and only if it is blank. -/
theorem Query.parse_pointsInto {text : String} {e : ParseError} (h : Query.parse text = .error e) :
    e.PointsInto text.toList := by
  unfold Query.parse at h
  dsimp only at h
  split at h
  next hlong =>
    cases h
    exact ⟨nofun, nofun, fun _ _ => hlong, nofun, nofun⟩
  next =>
    split at h
    next hblank =>
      cases h
      refine ⟨nofun, fun _ => ⟨rfl, ?_⟩, fun _ hempty => absurd rfl hempty, nofun, nofun⟩
      exact forall_isBlank_of_skipBlanks (List.isEmpty_iff.mp hblank)
    next =>
      obtain ⟨fault, hfault, rfl⟩ := mapError_eq_error.mp h
      exact (liesIn_of_readQuery hfault).pointsInto

/-- A text that ends behind a colon, a quoted text that does not end, and a regular expression that
does not end, though a parenthesis closes behind it. -/
theorem Query.parse_pointsInto_unterminated :
    (Query.parse "(a:" = .error ⟨.text .missingValue, 3⟩ ∧ 3 = "(a:".toList.length) ∧
      (Query.parse " a:1 b:\"c " = .error ⟨.text .unterminatedString, 7⟩ ∧
        " a:1 b:\"c ".toList[7]? = some '"') ∧
      Query.parse "-(a:/b)" = .error ⟨.text .unterminatedRegex, 4⟩ ∧
        "-(a:/b)".toList[4]? = some '/' := by
  -- queries cannot be compared, so what is computed is the outcome without the query
  obtain ⟨hend, hquote, hslash⟩ :
      (Query.parse "(a:").map (fun _ => ()) = .error ⟨.text .missingValue, 3⟩ ∧
        (Query.parse " a:1 b:\"c ").map (fun _ => ()) = .error ⟨.text .unterminatedString, 7⟩ ∧
        (Query.parse "-(a:/b)").map (fun _ => ()) = .error ⟨.text .unterminatedRegex, 4⟩ := by
    decide +kernel
  rw [map_eq_error] at hend hquote hslash
  exact ⟨⟨hend, (parse_pointsInto hend).atEnd rfl⟩, ⟨hquote, (parse_pointsInto hquote).atQuote rfl⟩,
    hslash, (parse_pointsInto hslash).atSlash rfl⟩

end QueryFilter
