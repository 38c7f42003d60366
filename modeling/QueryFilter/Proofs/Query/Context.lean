import QueryFilter.Proofs.Query.RoundTrip
import QueryFilter.Proofs.Steps
import Mathlib.Tactic.SplitIfs

/-!
# Comparisons in a context

A comparison that is read at the end of a text is also read in front of the parenthesis that closes
the query around it, and what follows is left as it stands (`readComparison_readsBefore`).

The readers look ahead.  A bare term goes on up to a character that ends it, and a keyword counts
only in front of a blank, a parenthesis that opens or the end of the text.  A parenthesis that
closes ends a term as the end of the text does, but it does not end a keyword.  So the words behave
alike in both contexts except for a keyword at the very end, and a reader that finds something never
stops behind a keyword that it has taken.
-/

namespace QueryFilter

open Text (isBlank skipBlanks)

variable {α : Type}

/-- In front of `t`, `read'` finds what `read` finds alone, and it leaves `t` behind. -/
def ReadsBefore (t : List Char) (read read' : List Char → Except Fault (α × List Char)) : Prop :=
  ∀ {s rest : List Char} {a : α}, read s = .ok (a, rest) → read' (s ++ t) = .ok (a, rest ++ t)

variable {t : List Char} (ht : EndsQuery t)

include ht

/-! ## Words -/

theorem skipBlanks_append (s : List Char) : skipBlanks (s ++ t) = skipBlanks s ++ t := by
  induction s with
  | nil => exact ht.skipBlanks
  | cons c s ih =>
      rw [List.cons_append, Text.skipBlanks_cons, Text.skipBlanks_cons]
      split
      · exact ih
      · rfl

theorem symbol?_append {symbol : String} (hclose : ')' ∉ symbol.toList) (s : List Char) :
    symbol? symbol (s ++ t) = (symbol? symbol s).map (· ++ t) := by
  unfold symbol?
  generalize symbol.toList = p at hclose
  induction p generalizing s with
  | nil => rfl
  | cons c p ih =>
      have hc : c ≠ ')' := fun heq => hclose (heq ▸ List.mem_cons_self)
      have hp : ')' ∉ p := fun hmem => hclose (List.mem_cons_of_mem c hmem)
      cases s with
      | nil =>
          rcases ht with rfl | ⟨u, rfl⟩
          · rfl
          · exact if_neg (by simpa using hc)
      | cons d s =>
          change (if c == d then p.isPrefixOf? (s ++ t) else none) =
            (if c == d then p.isPrefixOf? s else none).map (· ++ t)
          split
          · exact ih s hp
          · rfl

/-- A keyword at the end of a text is not a keyword in front of a parenthesis that closes. -/
theorem keyword?_append {keyword : String} (hclose : ')' ∉ keyword.toList) {s : List Char}
    (hs : keyword? keyword s ≠ some []) :
    keyword? keyword (s ++ t) = (keyword? keyword s).map (· ++ t) := by
  unfold keyword? at hs ⊢
  rw [symbol?_append ht hclose]
  cases h : symbol? keyword s with
  | none => rfl
  | some rest =>
      -- only the first character behind the keyword is looked at
      cases rest with
      | nil => exact absurd (by rw [h]; rfl) hs
      | cons c rest =>
        simp only [Option.map_some, Option.filter_some, List.cons_append]
        split <;> rfl

theorem atKeyword_append {keyword : String} (hclose : ')' ∉ keyword.toList) {s : List Char}
    (hs : atKeyword keyword s = false) : atKeyword keyword (s ++ t) = false := by
  have hnone : keyword? keyword s = none := by simpa [atKeyword] using hs
  have hend : keyword? keyword s ≠ some [] := by
    rw [hnone]
    exact Option.some_ne_none [] ∘ Eq.symm
  rw [atKeyword, keyword?_append ht hclose hend, hnone]
  rfl

theorem orSign?_append {s : List Char} (hs : orSign? s ≠ some []) :
    orSign? (s ++ t) = (orSign? s).map (· ++ t) := by
  have hword : keyword? "OR" s ≠ some [] := fun h => hs (by rw [orSign?, h]; rfl)
  unfold orSign?
  rw [keyword?_append ht (by decide) hword, symbol?_append ht (by decide)]
  cases keyword? "OR" s <;> rfl

theorem andSign?_append {s : List Char} (hs : andSign? s ≠ some []) :
    andSign? (s ++ t) = (andSign? s).map (· ++ t) := by
  have hword : keyword? "AND" s ≠ some [] := fun h => hs (by rw [andSign?, h]; rfl)
  unfold andSign?
  rw [keyword?_append ht (by decide) hword, symbol?_append ht (by decide)]
  cases keyword? "AND" s <;> rfl

theorem Term.read_readsBefore : ReadsBefore t Term.read Term.read := by
  intro s rest a h
  fun_induction Term.read s generalizing a with
  | case1 =>
      cases h
      refine Term.read_spell (t := []) (fun c hc => ?_) ht.endsTerm
      cases hc
  | case2 => cases h
  | case3 => cases h
  | case4 e s word rest' hread ih =>
      cases h
      simp [Term.read, ih hread]
  | case5 c s hescape hends =>
      cases h
      rw [List.cons_append, Term.read_cons hescape, if_pos hends]
  | case6 => cases h
  | case7 c s hescape hends word rest' hread ih =>
      cases h
      rw [List.cons_append, Term.read_cons hescape, if_neg hends, ih hread]

omit ht in
theorem readQuoted?_append {s word rest : List Char} (h : readQuoted? s = some (word, rest))
    (t : List Char) : readQuoted? (s ++ t) = some (word, rest ++ t) := by
  fun_induction readQuoted? s generalizing word with
  | case1 => cases h
  | case2 => cases h; rfl
  | case3 c s ih =>
      obtain ⟨⟨word', rest'⟩, hread, heq⟩ := Option.map_eq_some_iff.mp h
      cases heq
      simp [readQuoted?, ih hread]
  | case4 c s hquote hescape ih =>
      obtain ⟨⟨word', rest'⟩, hread, heq⟩ := Option.map_eq_some_iff.mp h
      cases heq
      -- a backslash at the end of the text escapes nothing, and the quote is not closed
      have hc : c ≠ '\\' := by
        intro heq
        cases s with
        | nil => cases hread
        | cons d s => exact hescape d s heq rfl
      simp [readQuoted?, hc, ih hread]

omit ht in
theorem readRegex?_append {s word rest : List Char} (h : readRegex? s = some (word, rest))
    (t : List Char) : readRegex? (s ++ t) = some (word, rest ++ t) := by
  fun_induction readRegex? s generalizing word with
  | case1 => cases h
  | case2 => cases h; rfl
  | case3 s ih =>
      obtain ⟨⟨word', rest'⟩, hread, heq⟩ := Option.map_eq_some_iff.mp h
      cases heq
      simp [readRegex?, ih hread]
  | case4 c s hquote ih =>
      obtain ⟨⟨word', rest'⟩, hread, heq⟩ := Option.map_eq_some_iff.mp h
      cases heq
      simp [readRegex?, ih hread]
  | case5 c s hslash hquote hescape ih =>
      obtain ⟨⟨word', rest'⟩, hread, heq⟩ := Option.map_eq_some_iff.mp h
      cases heq
      have hc : c ≠ '\\' := by
        intro heq
        cases s with
        | nil => cases hread
        | cons d s => exact hescape d s heq rfl
      simp [readRegex?, hc, ih hread]

omit ht in
theorem readQuoted_readsBefore : ReadsBefore t readQuoted readQuoted := by
  intro s rest v h
  unfold readQuoted at h
  split at h
  next word rest' hread =>
    cases h
    rw [readQuoted, readQuoted?_append hread]
  · cases h

omit ht in
theorem readRegex_readsBefore : ReadsBefore t readRegex readRegex := by
  intro s rest v h
  unfold readRegex at h
  split at h
  · cases h
  next word rest' hne hread =>
    cases h
    rw [readRegex, readRegex?_append hread]
    split
    next heq => cases heq; exact (hne rfl).elim
    next heq => cases heq; rfl
    next heq => cases heq
  · cases h

/-! ## Clauses -/

theorem readBound_readsBefore : ReadsBefore t readBound readBound := by
  intro s rest bound h
  cases s with
  | nil => cases h
  | cons c s =>
      rw [List.cons_append]
      rw [readBound] at h ⊢
      split_ifs at h ⊢ with hquote
      · split at h
        · cases h
        next hread =>
          cases h
          rw [readQuoted_readsBefore hread]
      · split at h
        · cases h
        next hread =>
          rw [← List.cons_append, Term.read_readsBefore ht hread]
          grind

omit ht in
theorem readRangeEnd_readsBefore : ReadsBefore t readRangeEnd readRangeEnd := by
  intro s rest closed h
  cases s with
  | nil => cases h
  | cons c s =>
      rw [List.cons_append]
      rw [readRangeEnd] at h ⊢
      grind

theorem readRange_readsBefore (closedLow : Bool) :
    ReadsBefore t (readRange closedLow) (readRange closedLow) := by
  intro s rest v h
  obtain ⟨⟨low, s₁⟩, hlow, h⟩ := bind_eq_ok.mp h
  refine bind_eq_ok.mpr ⟨(low, s₁ ++ t), ?_, ?_⟩
  · rw [skipBlanks_append ht]
    exact readBound_readsBefore ht hlow
  · dsimp only at h ⊢
    split at h
    · cases h
    next s₂ hword =>
      obtain ⟨⟨high, s₃⟩, hhigh, h⟩ := bind_eq_ok.mp h
      obtain ⟨⟨closedHigh, s₄⟩, hclose, h⟩ := bind_eq_ok.mp h
      cases h
      -- a bound has to follow the keyword
      have hs₂ : keyword? "TO" (skipBlanks s₁) ≠ some [] := by
        rw [hword]
        rintro ⟨⟩
        cases hhigh
      rw [skipBlanks_append ht, keyword?_append ht (by decide) hs₂, hword, Option.map_some]
      refine bind_eq_ok.mpr ⟨(high, s₃ ++ t), ?_, bind_eq_ok.mpr ⟨(closedHigh, s₄ ++ t), ?_, rfl⟩⟩
      · rw [skipBlanks_append ht]
        exact readBound_readsBefore ht hhigh
      · rw [skipBlanks_append ht]
        exact readRangeEnd_readsBefore hclose

theorem readGroupValue_readsBefore : ReadsBefore t readGroupValue readGroupValue := by
  intro s rest v h
  cases s with
  | nil => cases h
  | cons c s =>
      rw [List.cons_append]
      rw [readGroupValue] at h ⊢
      split_ifs at h ⊢ with hquote hopen
      · exact readQuoted_readsBefore h
      · split at h
        · cases h
        next hread =>
          rw [← List.cons_append, Term.read_readsBefore ht hread]
          grind

theorem nextGroupValue_append {isFirst : Bool} {s : List Char}
    (hne : nextGroupValue isFirst s ≠ []) :
    nextGroupValue isFirst (s ++ t) = nextGroupValue isFirst s ++ t := by
  unfold nextGroupValue at hne ⊢
  split
  · rfl
  next hfirst =>
    rw [if_neg hfirst] at hne
    have hs : orSign? s ≠ some [] := by
      intro h
      rw [h] at hne
      exact hne rfl
    rw [orSign?_append ht hs]
    cases orSign? s with
    | none => rfl
    | some rest => exact skipBlanks_append ht rest

theorem groupWordFault?_append {s : List Char} (hs : groupWordFault? s = none) :
    groupWordFault? (s ++ t) = none := by
  unfold groupWordFault? at hs ⊢
  split at hs
  · cases hs
  next hword =>
    split at hs
    · cases hs
    next hor =>
      simp only [Bool.or_eq_true, not_or, Bool.not_eq_true] at hword hor
      obtain ⟨⟨hand, hnot⟩, hsymbol⟩ := hword
      rw [atKeyword_append ht (by decide) hand, atKeyword_append ht (by decide) hnot,
        atKeyword_append ht (by decide) hor, symbol?_append ht (by decide), Option.isSome_map,
        hsymbol]
      rfl

theorem readGroupValues_readsBefore (isFirst : Bool) :
    ReadsBefore t (readGroupValues isFirst) (readGroupValues isFirst) := by
  intro s rest items h
  fun_induction readGroupValues isFirst s generalizing items rest with
  | case1 isFirst s s₁ =>
      rename_i hclose
      cases h
      obtain ⟨u, hu⟩ : ∃ u, skipBlanks s = ')' :: u := List.head?_eq_some_iff.mp hclose
      apply readGroupValues_close
      rw [skipBlanks_append ht, hu, List.cons_append]
      exact congrArg (fun s => ')' :: (s.tail ++ t)) hu.symm
  | case2 => cases h
  | case3 => cases h
  | case4 => cases h
  | case5 isFirst s s₁ hclose s₂ hword item follow hitem =>
      rename_i hothers ih
      cases h
      -- a value takes something, and so there is something where it is looked for
      have hs₂ : s₂ ≠ [] := by
        intro hnil
        rw [hnil] at hitem
        cases hitem
      have hs₁ : s₁ ≠ [] := by
        intro hnil
        have hlength : s₂.length ≤ s₁.length := nextGroupValue_length_le isFirst s₁
        rw [hnil] at hlength
        exact hs₂ (List.eq_nil_of_length_eq_zero (Nat.le_zero.mp hlength))
      have hclose' : (skipBlanks (s ++ t)).head? ≠ some ')' := by
        rw [skipBlanks_append ht, List.head?_append_of_ne_nil _ hs₁]
        exact hclose
      have hnext : nextGroupValue isFirst (skipBlanks (s ++ t)) = s₂ ++ t := by
        rw [skipBlanks_append ht]
        exact nextGroupValue_append ht hs₂
      exact readGroupValues_cons hclose' hnext (groupWordFault?_append ht hword)
        (readGroupValue_readsBefore ht hitem) (ih hothers)

theorem readGroup_readsBefore : ReadsBefore t readGroup readGroup := by
  intro s rest v h
  unfold readGroup at h
  split at h
  · cases h
  · cases h
  next hne hread =>
    cases h
    rw [readGroup, readGroupValues_readsBefore ht true hread]
    split
    next heq => cases heq
    next heq => cases heq; exact (hne rfl).elim
    next heq => cases heq; rfl

omit ht in
theorem withOperator_readsBefore (operator : Operator)
    {read : List Char → Except Fault (Value × List Char)} (hread : ReadsBefore t read read) :
    ReadsBefore t (fun s => withOperator operator (read s))
      (fun s => withOperator operator (read s)) := by
  intro s rest clause h
  dsimp only at h ⊢
  unfold withOperator at h
  split at h
  · cases h
  next hv =>
    cases h
    rw [hread hv]
    rfl

omit ht in
/-- A comparison sign that has something behind it is the same sign in front of anything. -/
theorem comparator?_append {operator : Operator} {s rest : List Char}
    (h : comparator? s = some (operator, rest)) (hrest : rest ≠ []) (t : List Char) :
    comparator? (s ++ t) = some (operator, rest ++ t) := by
  match s with
  | [] => cases h
  | [c] =>
      have hlength := length_of_comparator? h
      exact absurd (List.eq_nil_of_length_eq_zero (Nat.lt_one_iff.mp hlength)) hrest
  | c :: d :: s =>
      -- which signs start with `c` does not matter, only whether `d` goes on with one
      unfold comparator? at h ⊢
      dsimp only [List.cons_append, List.head?_cons, List.tail_cons] at h ⊢
      generalize (if c = '>' then (some Operator.gt, some Operator.gte) else _ :
        Option Operator × Option Operator) = signs at h ⊢
      obtain ⟨strict, wide⟩ := signs
      split at h
      next hwide hequals =>
        cases hwide
        cases hequals
        cases h
        rfl
      next =>
        obtain ⟨_, hstrict, heq⟩ := Option.map_eq_some_iff.mp h
        cases heq
        rw [hstrict]
        rfl

theorem readOperand_readsBefore (operator : Operator) :
    ReadsBefore t (readOperand operator) (readOperand operator) := by
  intro s rest clause h
  cases s with
  | nil => cases h
  | cons c s =>
      rw [List.cons_append]
      rw [readOperand] at h ⊢
      split_ifs at h ⊢ with hquote hopen hrange
      · exact withOperator_readsBefore operator readQuoted_readsBefore h
      · split at h
        next membership _ =>
          exact withOperator_readsBefore membership (readGroup_readsBefore ht) h
        · cases h
      · split at h
        · cases h
        next hread =>
          rw [← List.cons_append, Term.read_readsBefore ht hread]
          grind

theorem readBare_readsBefore : ReadsBefore t readBare readBare := by
  intro s rest clause h
  unfold readBare at h ⊢
  split at h
  · cases h
  next hread =>
    rw [Term.read_readsBefore ht hread]
    grind

theorem readClause_readsBefore : ReadsBefore t readClause readClause := by
  intro s rest clause h
  cases s with
  | nil => cases h
  | cons c s =>
      rw [List.cons_append]
      rw [readClause] at h ⊢
      split_ifs at h ⊢ with hblank hsign hquote hslash hbracket hbrace hopen
      · split at h
        · cases h
        next operator follow hcomparator =>
          -- a value has to follow the sign
          have hfollow : follow ≠ [] := by
            rintro rfl
            cases h
          rw [← List.cons_append, comparator?_append hcomparator hfollow]
          exact readOperand_readsBefore ht operator h
      · exact withOperator_readsBefore .eq readQuoted_readsBefore h
      · exact withOperator_readsBefore .regex readRegex_readsBefore h
      · exact withOperator_readsBefore .between (readRange_readsBefore ht true) h
      · exact withOperator_readsBefore .between (readRange_readsBefore ht false) h
      · exact withOperator_readsBefore .oneOf (readGroup_readsBefore ht) h
      · exact readBare_readsBefore ht h

theorem readComparison_readsBefore : ReadsBefore t readComparison readComparison := by
  intro s rest comparison h
  obtain ⟨⟨name, s₁⟩, hname, h⟩ := bind_eq_ok.mp h
  refine bind_eq_ok.mpr ⟨(name, s₁ ++ t), Term.read_readsBefore ht hname, ?_⟩
  dsimp only at h ⊢
  split at h
  · cases h
  next hne =>
    rw [if_neg hne]
    split at h
    next s₂ =>
      change (if name.hasWildcard then _ else _) = _
      split_ifs at h ⊢ with hwildcard
      split at h
      · cases h
      next field hfield =>
        obtain ⟨⟨clause, s₃⟩, hclause, h⟩ := bind_eq_ok.mp h
        cases h
        exact bind_eq_ok.mpr ⟨(clause, s₃ ++ t), readClause_readsBefore ht hclause, rfl⟩
    · cases h

end QueryFilter
