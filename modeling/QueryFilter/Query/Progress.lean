import QueryFilter.Query.Clause

/-!
# Readers leave no more than they were given

What a reader of a part of a comparison leaves is never longer than what it was given, and a whole
comparison takes at least two characters.  The loops of the grammar end because of this.
-/

namespace QueryFilter

open Text (isBlank skipBlanks)

theorem length_of_readBound {s rest : List Char} {v : Option Value}
    (h : readBound s = .ok (v, rest)) : rest.length ≤ s.length := by
  unfold readBound at h
  split at h
  · simp at h
  · split at h
    · split at h
      · simp at h
      next hq =>
        obtain ⟨-, rfl⟩ := Prod.mk.inj (Except.ok.inj h)
        have := length_of_readQuoted hq
        simp only [List.length_cons]
        omega
    · split at h
      · simp at h
      next ht =>
        have := Term.length_of_read ht
        grind

theorem length_of_readRangeEnd {s rest : List Char} {b : Bool}
    (h : readRangeEnd s = .ok (b, rest)) : rest.length ≤ s.length := by
  unfold readRangeEnd at h
  split at h <;> grind

theorem length_of_readRange {s rest : List Char} {closedLow : Bool} {v : Value}
    (h : readRange closedLow s = .ok (v, rest)) : rest.length ≤ s.length := by
  simp only [readRange, bind, Except.bind] at h
  split at h
  · simp at h
  next low hlow =>
    have := length_of_readBound hlow
    have := Text.skipBlanks_length_le s
    have := Text.skipBlanks_length_le low.2
    split at h
    · simp at h
    next s₁ hto =>
      have := length_of_keyword? hto
      have := Text.skipBlanks_length_le s₁
      split at h
      · simp at h
      next high hhigh =>
        have := length_of_readBound hhigh
        have := Text.skipBlanks_length_le high.2
        split at h
        · simp at h
        next close hclose =>
          have := length_of_readRangeEnd hclose
          obtain ⟨-, rfl⟩ := Prod.mk.inj (Except.ok.inj h)
          omega

theorem length_of_readGroupValues {isFirst : Bool} {s rest : List Char} {items : List Value}
    (h : readGroupValues isFirst s = .ok (items, rest)) : rest.length ≤ s.length := by
  fun_induction readGroupValues isFirst s generalizing items rest with
  | case1 isFirst s s₁ =>
    obtain ⟨-, rfl⟩ := Prod.mk.inj (Except.ok.inj h)
    have : s₁.length ≤ s.length := Text.skipBlanks_length_le s
    simp only [List.length_tail]
    omega
  | case2 => simp at h
  | case3 => simp at h
  | case4 => simp at h
  | case5 isFirst s s₁ _ s₂ _ _ _ hitem _ _ =>
    rename_i hitems ih
    obtain ⟨-, rfl⟩ := Prod.mk.inj (Except.ok.inj h)
    have := ih hitems
    have := length_of_readGroupValue hitem
    have : s₂.length ≤ s₁.length := nextGroupValue_length_le isFirst s₁
    have : s₁.length ≤ s.length := Text.skipBlanks_length_le s
    omega

theorem length_of_readGroup {s rest : List Char} {v : Value} (h : readGroup s = .ok (v, rest)) :
    rest.length ≤ s.length := by
  unfold readGroup at h
  split at h
  · simp at h
  · simp at h
  next hitems =>
    obtain ⟨-, rfl⟩ := Prod.mk.inj (Except.ok.inj h)
    exact length_of_readGroupValues hitems

theorem length_of_withOperator {operator : Operator} {found : Except Fault (Value × List Char)}
    {c : Clause} {rest : List Char} (h : withOperator operator found = .ok (c, rest)) :
    ∃ v, found = .ok (v, rest) := by
  unfold withOperator at h
  split at h
  · simp at h
  next v rest' =>
    obtain ⟨-, rfl⟩ := Prod.mk.inj (Except.ok.inj h)
    exact ⟨v, rfl⟩

theorem length_of_readOperand {operator : Operator} {s rest : List Char} {c : Clause}
    (h : readOperand operator s = .ok (c, rest)) : rest.length ≤ s.length := by
  unfold readOperand at h
  split at h
  · simp at h
  next s =>
    rw [List.length_cons]
    split at h
    · obtain ⟨v, hv⟩ := length_of_withOperator h
      have := length_of_readQuoted hv
      omega
    · split at h
      · split at h
        · obtain ⟨v, hv⟩ := length_of_withOperator h
          have := length_of_readGroup hv
          omega
        · simp at h
      · split at h
        · simp at h
        · split at h
          · simp at h
          next ht =>
            have := Term.length_of_read ht
            grind

theorem length_of_readBare {s rest : List Char} {c : Clause}
    (h : readBare s = .ok (c, rest)) : rest.length ≤ s.length := by
  unfold readBare at h
  split at h
  · simp at h
  next ht =>
    have := Term.length_of_read ht
    grind

theorem length_of_comparator? {operator : Operator} {s rest : List Char}
    (h : comparator? s = some (operator, rest)) : rest.length < s.length := by
  unfold comparator? at h
  split at h
  · simp at h
  · dsimp only at h
    split at h
    · obtain ⟨-, rfl⟩ := Prod.mk.inj (Option.some.inj h)
      simp only [List.length_tail, List.length_cons]
      omega
    · obtain ⟨_, -, hs⟩ := Option.map_eq_some_iff.1 h
      obtain ⟨-, rfl⟩ := Prod.mk.inj hs
      exact Nat.lt_succ_self _

theorem length_of_readClause {s rest : List Char} {c : Clause}
    (h : readClause s = .ok (c, rest)) : rest.length ≤ s.length := by
  unfold readClause at h
  split at h
  · simp at h
  next s =>
    rw [List.length_cons]
    split at h
    · simp at h
    · split at h
      · split at h
        · simp at h
        next hsign =>
          have := length_of_comparator? hsign
          have := length_of_readOperand h
          rw [List.length_cons] at *
          omega
      · split at h
        · obtain ⟨v, hv⟩ := length_of_withOperator h
          have := length_of_readQuoted hv
          omega
        · split at h
          · obtain ⟨v, hv⟩ := length_of_withOperator h
            have := length_of_readRegex hv
            omega
          · split at h
            · obtain ⟨v, hv⟩ := length_of_withOperator h
              have := length_of_readRange hv
              omega
            · split at h
              · obtain ⟨v, hv⟩ := length_of_withOperator h
                have := length_of_readRange hv
                omega
              · split at h
                · obtain ⟨v, hv⟩ := length_of_withOperator h
                  have := length_of_readGroup hv
                  omega
                · exact length_of_readBare h

theorem length_of_readComparison {s rest : List Char} {c : Comparison}
    (h : readComparison s = .ok (c, rest)) : rest.length < s.length := by
  simp only [readComparison, bind, Except.bind] at h
  split at h
  · simp at h
  next name hname =>
    have hlength := Term.length_of_read hname
    split at h
    · simp at h
    · split at h
      next rest₁ hrest =>
        split at h
        · simp at h
        · split at h
          · simp at h
          · split at h
            · simp at h
            next clause hclause =>
              have := length_of_readClause hclause
              obtain ⟨-, rfl⟩ := Prod.mk.inj (Except.ok.inj h)
              rw [hrest, List.length_cons] at hlength
              omega
      · simp at h

end QueryFilter
