import QueryFilter.Proofs.Query.Context
import QueryFilter.Proofs.Query.Induction

/-!
# Operands in a context

An operand that is read at the end of a text with some levels of nesting is also read in front of
the parenthesis that closes the query around it, with those levels or more (`operand_readsBefore`).
So the reader has a level of nesting that it reaches in a text (`Query.nestingLevel`): with as many
levels the text is read, and with fewer it is not (`Query.readQuery_eq_ok_iff`).

The loops of one level stop at the same place in both contexts.  A conjunction looks for a sign of
disjunction, and `OR` at the very end of a text is one while `OR)` is none.  But behind such a sign
the disjunction goes on, and it would find no operand there (`orSign?_of_readDisjuncts`).
-/

namespace QueryFilter

open Text (isBlank skipBlanks)

variable {t : List Char} (ht : EndsQuery t)

/-! ## One level of the grammar -/

/-- A reader that takes something finds nothing in an empty text. -/
theorem Reader.run_nil {α : Type} (operand : Reader α) {rest : List Char} {a : α} :
    operand.run [] ≠ .ok (a, rest) := fun h => Nat.not_lt_zero _ (operand.shortens h)

theorem skipBlanks_skipBlanks (s : List Char) : skipBlanks (skipBlanks s) = skipBlanks s := by
  induction s with
  | nil => rfl
  | cons c s ih =>
      rw [Text.skipBlanks_cons]
      split
      · exact ih
      next hc => rw [Text.skipBlanks_cons, if_neg hc]

theorem attached_append {s : List Char} (hs : s ≠ []) (t : List Char) :
    attached (s ++ t) = attached s := by
  cases s with
  | nil => exact absurd rfl hs
  | cons c s => rfl

section Level

variable {outer inner : Reader Query}

include ht

theorem endsConjunction_append {s : List Char} (hor : orSign? s ≠ some []) :
    endsConjunction (s ++ t) = endsConjunction s := by
  cases s with
  | nil => exact ht.endsConjunction
  | cons c s =>
      unfold endsConjunction
      rw [orSign?_append ht hor, Option.isSome_map]
      rfl

theorem skipAndSign_append {s : List Char} (hs : skipAndSign s ≠ []) :
    skipAndSign (s ++ t) = skipAndSign s ++ t := by
  unfold skipAndSign at hs ⊢
  have hand : andSign? s ≠ some [] := by
    intro h
    rw [h] at hs
    exact hs rfl
  rw [andSign?_append ht hand]
  cases andSign? s <;> rfl

variable (hread : ReadsBefore t inner.run outer.run)

include hread

/-- What a conjunction leaves must not be a sign of disjunction alone, which is a sign at the end of
the text and part of a word in front of a parenthesis. -/
theorem readConjuncts_append {left q : Query} {s rest : List Char}
    (h : readConjuncts inner left s = .ok (q, rest)) (hor : orSign? (skipBlanks rest) ≠ some []) :
    readConjuncts outer left (s ++ t) = .ok (q, rest ++ t) := by
  fun_induction readConjuncts inner left s with
  | case1 left s s₁ hends =>
      obtain ⟨rfl, rfl⟩ := Prod.mk.inj (Except.ok.inj h)
      rw [skipBlanks_skipBlanks] at hor
      rw [readConjuncts_stop, skipBlanks_append ht]
      rw [skipBlanks_append ht, endsConjunction_append ht hor]
      exact hends
  | case2 => cases h
  | case3 left s s₁ hends right follow hright ih =>
      have hends : endsConjunction s₁ = false := Bool.eq_false_iff.mpr hends
      have hgoes : orSign? s₁ ≠ some [] := by
        intro h
        rw [endsConjunction, h, Option.isSome_some, Bool.or_true] at hends
        cases hends
      -- an operand takes something, and so there is something where it is looked for
      have hsign : skipAndSign s₁ ≠ [] := by
        intro hnil
        rw [hnil] at hright
        exact inner.run_nil hright
      rw [← ih h]
      apply readConjuncts_next
      · rw [skipBlanks_append ht, endsConjunction_append ht hgoes]
        exact hends
      · rw [skipBlanks_append ht, skipAndSign_append ht hsign]
        exact hread hright

theorem readConjunction_append {q : Query} {s rest : List Char}
    (h : readConjunction inner s = .ok (q, rest)) (hor : orSign? (skipBlanks rest) ≠ some []) :
    readConjunction outer (s ++ t) = .ok (q, rest ++ t) := by
  unfold readConjunction at h ⊢
  split at h
  · cases h
  next hfirst =>
    rw [hread hfirst]
    exact readConjuncts_append ht hread h hor

omit ht hread in
/-- Where a disjunction goes on or ends, there is no sign of disjunction with nothing behind it. -/
theorem orSign?_of_readDisjuncts {left q : Query} {s rest : List Char}
    (h : readDisjuncts inner left s = .ok (q, rest)) : orSign? (skipBlanks s) ≠ some [] := by
  intro hor
  rw [readDisjuncts] at h
  split at h
  next hnone => rw [hor] at hnone; cases hnone
  next hsome =>
    rw [hor] at hsome
    cases hsome
    split at h
    · cases h
    next hright => exact absurd (length_of_readConjunction hright) (Nat.not_lt_zero _)

theorem readDisjuncts_append {left q : Query} {s rest : List Char}
    (h : readDisjuncts inner left s = .ok (q, rest)) :
    readDisjuncts outer left (s ++ t) = .ok (q, rest ++ t) := by
  have hor := orSign?_of_readDisjuncts h
  fun_induction readDisjuncts inner left s with
  | case1 left s s₁ hends =>
      obtain ⟨rfl, rfl⟩ := Prod.mk.inj (Except.ok.inj h)
      rw [readDisjuncts_stop, skipBlanks_append ht]
      rw [skipBlanks_append ht, orSign?_append ht hor]
      exact congrArg (Option.map (· ++ t)) hends
  | case2 => cases h
  | case3 left s s₁ s₂ hsign right follow hright ih =>
      have hfollow := orSign?_of_readDisjuncts h
      rw [← ih h hfollow]
      refine readDisjuncts_next ?_ (readConjunction_append ht hread hright hfollow)
      rw [skipBlanks_append ht, orSign?_append ht hor]
      exact congrArg (Option.map (· ++ t)) hsign

theorem readDisjunction_readsBefore :
    ReadsBefore t (readDisjunction inner) (readDisjunction outer) := by
  intro s rest q h
  unfold readDisjunction at h ⊢
  split at h
  · cases h
  next hfirst =>
    rw [readConjunction_append ht hread hfirst (orSign?_of_readDisjuncts h)]
    exact readDisjuncts_append ht hread h

end Level

include ht in
theorem closeParenthesis_readsBefore (q : Query) :
    ReadsBefore t (closeParenthesis q) (closeParenthesis q) := by
  intro s rest q' h
  unfold closeParenthesis at h ⊢
  rw [skipBlanks_append ht]
  split at h
  · cases h
  next hclose =>
    rw [hclose, List.cons_append]
    split_ifs at h with hc
    cases h
    exact if_pos hc

/-! ## Operands -/

theorem two_le_length_of_readComparison {c : Comparison} {s rest : List Char}
    (h : readComparison s = .ok (c, rest)) : 2 ≤ s.length := by
  obtain ⟨⟨name, follow⟩, hname, h⟩ := bind_eq_ok.mp h
  have hlength := Term.length_of_read hname
  dsimp only at h
  split at h
  · cases h
  next hne =>
    have hpos := List.length_pos_iff.mpr hne
    split at h
    next colon =>
      rw [List.length_cons] at hlength
      omega
    · cases h

/-- A single character is not an operand. -/
theorem two_le_length_of_readPrimary {inside : Option (Reader Query)} {q : Query}
    {s rest : List Char} (h : readPrimary inside s = .ok (q, rest)) : 2 ≤ s.length := by
  unfold readPrimary at h
  split at h
  · cases h
  next c s =>
    split at h
    · split at h
      · cases h
      · split at h
        · cases h
        next hinside =>
          have := length_of_readDisjunction hinside
          rw [List.length_cons]
          omega
    · split at h
      · cases h
      · split at h
        · cases h
        next hcomparison => exact two_le_length_of_readComparison hcomparison

theorem two_le_length_skipPlusSigns {inside : Option (Reader Query)} {q : Query}
    {s rest : List Char} (h : readOperandWith inside s = .ok (q, rest)) :
    2 ≤ (skipPlusSigns s).length := by
  unfold readOperandWith at h
  dsimp only at h
  split at h
  · exact two_le_length_of_readPrimary h
  next hsign =>
    have := length_of_notSign? hsign
    split at h
    · cases h
    next operand =>
      split at h
      · cases h
      next hoperand =>
        have := operand.shortens hoperand
        omega

theorem skipPlusSigns_append {s : List Char} (hs : 2 ≤ (skipPlusSigns s).length)
    (t : List Char) : skipPlusSigns (s ++ t) = skipPlusSigns s ++ t := by
  induction s with
  | nil => cases hs
  | cons c s ih =>
      cases s with
      | nil => exact absurd (Nat.le_trans hs (skipPlusSigns_length_le [c])) (Nat.not_succ_le_self 1)
      | cons d s =>
          -- whether `c` is attached to its operand depends on `d`
          rw [List.cons_append]
          unfold skipPlusSigns at hs ⊢
          rw [attached_append (List.cons_ne_nil d s)]
          split_ifs at hs ⊢
          · exact ih hs
          · rfl

include ht

theorem notSign?_append {s : List Char} (hlength : 2 ≤ s.length) (hs : notSign? s ≠ some []) :
    notSign? (s ++ t) = (notSign? s).map (· ++ t) := by
  match s with
  | [] | [_] => exact absurd hlength (by simp)
  | c :: d :: s =>
      have hword : keyword? "NOT" (c :: d :: s) ≠ some [] := fun h => hs (by rw [notSign?, h]; rfl)
      unfold notSign?
      rw [keyword?_append ht (by decide) hword]
      cases keyword? "NOT" (c :: d :: s) with
      | some rest => rfl
      | none =>
          change (if (c = '!' ∨ c = '-') ∧ attached (d :: s) then some _ else none) =
            (if (c = '!' ∨ c = '-') ∧ attached (d :: s) then some _ else none).map _
          split_ifs <;> rfl

variable {inside outside : Option (Reader Query)}
  (hread : ∀ inner ∈ inside, ∃ outer ∈ outside, ReadsBefore t inner.run outer.run)

include hread

theorem readPrimary_readsBefore : ReadsBefore t (readPrimary inside) (readPrimary outside) := by
  intro s rest q h
  cases s with
  | nil => cases h
  | cons c s =>
      rw [List.cons_append]
      rw [readPrimary.eq_def] at h ⊢
      dsimp only at h ⊢
      split at h
      next hopen =>
        rw [if_pos hopen]
        cases inside with
        | none => cases h
        | some inner =>
            obtain ⟨outer, rfl, houter⟩ := hread inner rfl
            dsimp only at h ⊢
            split at h
            · cases h
            next hinside =>
              rw [readDisjunction_readsBefore ht houter hinside]
              exact closeParenthesis_readsBefore ht _ h
      next hopen =>
        split at h
        · cases h
        next hword =>
          rw [Bool.or_eq_true, not_or, Bool.not_eq_true, Bool.not_eq_true] at hword
          rw [if_neg hopen, ← List.cons_append, atKeyword_append ht (by decide) hword.1,
            atKeyword_append ht (by decide) hword.2, Bool.or_self, if_neg Bool.false_ne_true]
          split at h
          · cases h
          next hcomparison =>
            cases h
            rw [readComparison_readsBefore ht hcomparison]

theorem readOperandWith_readsBefore :
    ReadsBefore t (readOperandWith inside) (readOperandWith outside) := by
  intro s rest q h
  have hlength := two_le_length_skipPlusSigns h
  unfold readOperandWith at h ⊢
  dsimp only at h ⊢
  rw [skipPlusSigns_append hlength t]
  cases hsign : notSign? (skipPlusSigns s) with
  | none =>
      rw [hsign] at h
      rw [notSign?_append ht hlength (by rw [hsign]; nofun), hsign]
      exact readPrimary_readsBefore ht hread h
  | some follow =>
      rw [hsign] at h
      cases inside with
      | none => cases h
      | some inner =>
          obtain ⟨outer, rfl, houter⟩ := hread inner rfl
          dsimp only at h
          split at h
          · cases h
          next hoperand =>
            cases h
            have hfollow : notSign? (skipPlusSigns s) ≠ some [] := by
              rw [hsign]
              rintro ⟨⟩
              exact inner.run_nil hoperand
            rw [notSign?_append ht hlength hfollow, hsign]
            dsimp only [Option.map_some]
            rw [houter hoperand]

omit hread

/-- **What an operand is does not depend on what stands behind it**, if that is the end of the text
or a parenthesis that closes, nor on how many more levels remain. -/
theorem operand_readsBefore {levels more : Nat} (hle : levels ≤ more) :
    ReadsBefore t (operand levels).run (operand more).run := by
  induction levels generalizing more with
  | zero =>
      cases more with
      | zero =>
          exact readOperandWith_readsBefore ht fun _ hnone => absurd hnone (Option.not_mem_none _)
      | succ more =>
          exact readOperandWith_readsBefore ht fun _ hnone => absurd hnone (Option.not_mem_none _)
  | succ levels ih =>
      obtain ⟨more, rfl⟩ : ∃ m, more = m + 1 := ⟨more - 1, by omega⟩
      apply readOperandWith_readsBefore ht
      rintro _ ⟨⟩
      exact ⟨operand more, rfl, ih (Nat.le_of_succ_le_succ hle)⟩

omit ht

/-! ## Whole texts -/

theorem skipBlanks_of_readDisjuncts {inner : Reader Query} {left q : Query} {s rest : List Char}
    (h : readDisjuncts inner left s = .ok (q, rest)) : skipBlanks rest = rest := by
  fun_induction readDisjuncts inner left s with
  | case1 left s s₁ =>
      obtain ⟨-, rfl⟩ := Prod.mk.inj (Except.ok.inj h)
      exact skipBlanks_skipBlanks s
  | case2 => cases h
  | case3 _ _ _ _ _ _ _ _ ih => exact ih h

/-- A text that is a query alone is the same query wherever it stands, if it ends there and as many
levels remain. -/
theorem readDisjunction_of_readQuery {levels more : Nat} {q : Query} {s : List Char}
    (h : readQuery levels s = .ok q) (hle : levels ≤ more) (ht : EndsQuery t) :
    readDisjunction (operand more) (s ++ t) = .ok (q, t) := by
  obtain ⟨rest, hread, hend⟩ := readQuery_eq_ok.mp h
  have hrest : skipBlanks rest = rest := by
    unfold readDisjunction at hread
    split at hread
    · cases hread
    · exact skipBlanks_of_readDisjuncts hread
  rw [readDisjunction_readsBefore ht (operand_readsBefore ht hle) hread, ← hrest, hend]
  rfl

theorem readQuery_mono {levels more : Nat} {q : Query} {s : List Char}
    (h : readQuery levels s = .ok q) (hle : levels ≤ more) : readQuery more s = .ok q := by
  have hread := readDisjunction_of_readQuery h hle (.inl rfl)
  rw [List.append_nil] at hread
  exact readQuery_eq_ok.mpr ⟨[], hread, rfl⟩

namespace Query

/-- The level of nesting that the reader reaches in a text: the least number of levels with which it
reads the text. -/
def nestingLevel (text : String) : Nat :=
  (List.range (maxNesting + 1)).findIdx fun levels => (readQuery levels text.toList).isOk

/-- A text that is accepted is read with as many levels as the reader reaches in it, and with no
fewer. -/
theorem readQuery_eq_ok_iff {text : String} {q : Query} (h : parse text = .ok q) {levels : Nat} :
    readQuery levels text.toList = .ok q ↔ nestingLevel text ≤ levels := by
  have hmax := (parse_eq_ok.mp h).2.2
  constructor
  · intro hread
    by_contra hlt
    have hfails := List.not_of_lt_findIdx (Nat.lt_of_not_le hlt)
    rw [List.getElem_range, hread] at hfails
    cases hfails
  · intro hle
    have hexists : ∃ levels ∈ List.range (maxNesting + 1), (readQuery levels text.toList).isOk :=
      ⟨maxNesting, List.self_mem_range_succ, by rw [hmax]; rfl⟩
    have hlt := List.findIdx_lt_length_of_exists hexists
    have hleast := List.findIdx_getElem (w := hlt)
    rw [List.length_range] at hlt
    rw [List.getElem_range] at hleast
    cases hread : readQuery (nestingLevel text) text.toList with
    | error fault =>
        change (readQuery (nestingLevel text) text.toList).isOk at hleast
        rw [hread] at hleast
        cases hleast
    | ok q' =>
        have hsame := readQuery_mono hread (Nat.le_of_lt_succ hlt)
        rw [hmax] at hsame
        cases hsame
        exact readQuery_mono hread hle

example : nestingLevel "(a:1) -(b:2)" = 2 := by decide +kernel

end Query

end QueryFilter
