import QueryFilter.Query.Clause
import QueryFilter.Proofs.Query.Words

/-!
# Clauses read back

What the writer makes of a comparison reads as that comparison, if its operator, its value and its
treatment of case are ones that the language of queries can express (`Comparison.IsExpressible`),
and its field is read as it stands (`FieldPath.IsPlain`).  That holds of a canonical comparison
(`Comparison.IsCanonical`), whose field does not start with a sign.

## Strategy

A value is read in four places: alone behind the colon, behind a comparison sign, in a group and as
a bound.  In each place the first character decides what is read, and a scalar starts with a quote
or with a character of a word, which no place takes for anything else.
-/

namespace QueryFilter

open Text (isBlank skipBlanks)

/-! ## First characters -/

theorem readBound_quote (s : List Char) :
    readBound ('"' :: s) = (readQuoted s).map fun (v, rest) => (some v, rest) := by
  rw [readBound, if_pos rfl]
  cases readQuoted s <;> rfl

theorem readGroupValue_quote (s : List Char) : readGroupValue ('"' :: s) = readQuoted s := rfl

theorem readOperand_quote (operator : Operator) (s : List Char) :
    readOperand operator ('"' :: s) = withOperator operator (readQuoted s) := rfl

theorem readClause_quote (s : List Char) :
    readClause ('"' :: s) = withOperator .eq (readQuoted s) := rfl

theorem readClause_slash (s : List Char) :
    readClause ('/' :: s) = withOperator .regex (readRegex s) := rfl

theorem readClause_bracket (s : List Char) :
    readClause ('[' :: s) = withOperator .between (readRange true s) := rfl

theorem readClause_brace (s : List Char) :
    readClause ('\x7b' :: s) = withOperator .between (readRange false s) := rfl

theorem readClause_parenthesis (s : List Char) :
    readClause ('(' :: s) = withOperator .oneOf (readGroup s) := rfl

/-- A character starts a bare term behind the colon. -/
def IsBareHead (c : Char) : Prop := c = '\\' ∨ needsEscape c = false

theorem isBlank_of_isBareHead {c : Char} (hc : IsBareHead c) : isBlank c = false := by
  rcases hc with rfl | hc
  · rfl
  · exact (Bool.or_eq_false_iff.mp hc).1

/-- Whether a character has a meaning behind the colon other than to escape the next one. -/
def isClauseSign (c : Char) : Bool := needsEscape c && c != '\\'

theorem ne_of_isBareHead {c d : Char} (hc : IsBareHead c) (hd : isClauseSign d) : c ≠ d := by
  obtain ⟨hescape, hbackslash⟩ := Bool.and_eq_true_iff.mp hd
  rintro rfl
  rcases hc with rfl | hc
  · cases hbackslash
  · rw [hc] at hescape
    cases hescape

theorem isBareHead_of_isWordChar {c : Char} (hc : Term.isWordChar c) : IsBareHead c := by
  have hspecial : ∀ d ∈ ['\\', '"', '(', ')', '[', ']', '\x7b', '\x7d', ':', '/', '>', '<', '=',
      '!'], !Term.isWordChar d := List.all_eq_true.mp rfl
  refine .inr (Bool.or_eq_false_iff.mpr ⟨Term.isBlank_of_isWordChar hc, ?_⟩)
  rw [← Bool.not_eq_true, List.contains_iff_mem]
  intro hmem
  exact Term.ne_of_isWordChar hc (hspecial c hmem) rfl

theorem readClause_of_isBareHead {c : Char} (hc : IsBareHead c) (s : List Char) :
    readClause (c :: s) = readBare (c :: s) := by
  have hne : ∀ {d}, isClauseSign d → c ≠ d := fun hd => ne_of_isBareHead hc hd
  rw [readClause, isBlank_of_isBareHead hc, if_neg Bool.false_ne_true, if_neg, if_neg (hne rfl),
    if_neg (hne rfl), if_neg (hne rfl), if_neg (hne rfl), if_neg (hne rfl)]
  rintro (rfl | rfl | rfl | rfl) <;> exact hne rfl rfl

theorem readOperand_of_isBareHead {c : Char} (hc : IsBareHead c) {operator : Operator}
    {s rest : List Char} {t : Term} (hread : Term.read (c :: s) = .ok (t, rest)) (ht : t ≠ []) :
    readOperand operator (c :: s) = .ok (.bare operator t, rest) := by
  have hne : ∀ {d}, isClauseSign d → c ≠ d := fun hd => ne_of_isBareHead hc hd
  rw [readOperand, if_neg (hne rfl), if_neg (hne rfl), if_neg, hread]
  · exact if_neg ht
  · rintro (rfl | rfl) <;> exact hne rfl rfl

theorem readGroupValue_of_isBareHead {c : Char} (hc : IsBareHead c) {s rest : List Char} {t : Term}
    (hread : Term.read (c :: s) = .ok (t, rest)) (ht : t ≠ []) (hwild : t.hasWildcard = false) :
    readGroupValue (c :: s) = .ok (t.scalar, rest) := by
  have hne : ∀ {d}, isClauseSign d → c ≠ d := fun hd => ne_of_isBareHead hc hd
  rw [readGroupValue, if_neg (hne rfl), if_neg, hread]
  · simp only [ht, hwild, if_false, Bool.false_eq_true]
  · rintro (rfl | rfl | rfl) <;> exact hne rfl rfl

/-- A character starts a scalar. -/
def IsScalarHead (c : Char) : Prop := c = '"' ∨ Term.isWordChar c

theorem ne_of_isScalarHead {c d : Char} (hc : IsScalarHead c)
    (hd : !Term.isWordChar d && d != '"') : c ≠ d := by
  obtain ⟨hword, hquote⟩ := Bool.and_eq_true_iff.mp hd
  rintro rfl
  rcases hc with rfl | hc
  · cases hquote
  · exact Term.ne_of_isWordChar hc hword rfl

/-! ## Scalars -/

namespace Value

theorem write_text (s : String) (rest : List Char) : (text s).write rest =
    '"' :: (escapeWhere (fun c => c == '"' || c == '\\') s.toList ++ '"' :: rest) := by
  simp [write, quoted]

/-- A scalar other than a text is written as a bare term that has its value. -/
theorem exists_term {v : Value} (hv : v.IsFiniteScalar) (htext : v.text? = none) :
    ∃ (c : Char) (s : List Char) (t : Term), Term.isWordChar c ∧
      (∀ rest, v.write rest = c :: (s ++ rest)) ∧
      (∀ rest, EndsTerm rest → Term.read (c :: (s ++ rest)) = .ok (t, rest)) ∧
      t ≠ [] ∧ t.hasWildcard = false ∧ t.scalar = v := by
  obtain ⟨s, hne, hword, htyped, hwrite⟩ := exists_word hv htext
  obtain ⟨c, s, rfl⟩ := List.exists_cons_of_ne_nil hne
  have hplain : ∀ d ∈ c :: s, d ≠ '\\' ∧ ¬ Term.endsAt d := fun d hd =>
    ⟨Term.ne_of_isWordChar (hword d hd) rfl,
      Bool.eq_false_iff.mp (Term.endsAt_of_isWordChar (hword d hd))⟩
  refine ⟨c, s, Term.ofText (fun _ => false) (c :: s), hword c List.mem_cons_self, hwrite,
    fun rest hrest => Term.read_plain hplain hrest, List.cons_ne_nil _ _, ?_, ?_⟩
  · exact Term.hasWildcard_plain fun d hd => Term.isWildcard_of_isWordChar (hword d hd)
  · rw [Term.scalar.eq_def, Term.hasEscape_plain, if_neg Bool.false_ne_true, Term.text_ofText,
      htyped]

theorem exists_head {v : Value} (hv : v.IsFiniteScalar) :
    ∃ (c : Char) (s : List Char), IsScalarHead c ∧ ∀ rest, v.write rest = c :: (s ++ rest) := by
  cases htext : v.text? with
  | none =>
      obtain ⟨c, s, -, hc, hwrite, -⟩ := exists_term hv htext
      exact ⟨c, s, .inr hc, hwrite⟩
  | some s =>
      cases v with
      | text s => exact ⟨'"', _, .inl rfl, fun rest => rfl⟩
      | _ => cases htext

end Value

theorem eq_text_of_text? {v : Value} {s : String} (htext : v.text? = some s) : v = .text s := by
  cases v with
  | text s => exact congrArg Value.text (Option.some.inj htext)
  | _ => cases htext

section Scalars

variable {v : Value} (hv : v.IsFiniteScalar) {rest : List Char} (hrest : EndsTerm rest)

include hv hrest

theorem readGroupValue_write : readGroupValue (v.write rest) = .ok (v, rest) := by
  cases htext : v.text? with
  | none =>
      obtain ⟨c, s, t, hc, hwrite, hread, hne, hwild, hscalar⟩ := Value.exists_term hv htext
      rw [hwrite, readGroupValue_of_isBareHead (isBareHead_of_isWordChar hc) (hread rest hrest) hne
        hwild, hscalar]
  | some s =>
      rw [eq_text_of_text? htext, Value.write_text, readGroupValue_quote, readQuoted_quoted]

theorem readOperand_write (operator : Operator) :
    readOperand operator (v.write rest) = .ok (⟨operator, v, false⟩, rest) := by
  cases htext : v.text? with
  | none =>
      obtain ⟨c, s, t, hc, hwrite, hread, hne, -, hscalar⟩ := Value.exists_term hv htext
      rw [hwrite, readOperand_of_isBareHead (isBareHead_of_isWordChar hc) (hread rest hrest) hne,
        Clause.bare, hscalar, htext]
      simp
  | some s =>
      rw [eq_text_of_text? htext, Value.write_text, readOperand_quote, readQuoted_quoted]
      rfl

theorem readClause_write : readClause (v.write rest) = .ok (⟨.eq, v, false⟩, rest) := by
  cases htext : v.text? with
  | none =>
      obtain ⟨c, s, t, hc, hwrite, hread, hne, hwild, hscalar⟩ := Value.exists_term hv htext
      rw [hwrite, readClause_of_isBareHead (isBareHead_of_isWordChar hc), readBare,
        hread rest hrest]
      simp [hne, hwild, Clause.bare, hscalar, htext]
  | some s =>
      rw [eq_text_of_text? htext, Value.write_text, readClause_quote, readQuoted_quoted]
      rfl

theorem readBound_write (hnull : v ≠ .null) : readBound (v.write rest) = .ok (some v, rest) := by
  cases htext : v.text? with
  | none =>
      obtain ⟨c, s, t, hc, hwrite, hread, hne, hwild, hscalar⟩ := Value.exists_term hv htext
      have hquote : c ≠ '"' := Term.ne_of_isWordChar hc rfl
      have hisNull : v.isNull = false := by
        cases v with
        | null => exact absurd rfl hnull
        | _ => rfl
      rw [hwrite, readBound, if_neg hquote, hread rest hrest]
      simp [hne, hwild, hscalar, hisNull]
  | some s =>
      rw [eq_text_of_text? htext, Value.write_text, readBound_quote, readQuoted_quoted]
      rfl

end Scalars

/-! ## Groups -/

theorem symbol?_of_ne {symbol : String} {c d : Char} {s t : List Char}
    (hsymbol : symbol.toList = d :: t) (hne : c ≠ d) : symbol? symbol (c :: s) = none := by
  rw [Option.eq_none_iff_forall_ne_some]
  intro rest hrest
  have heq := eq_append_of_symbol? hrest
  rw [hsymbol, List.cons_append] at heq
  exact hne (List.cons.inj heq).1

theorem atKeyword_of_ne {keyword : String} {c d : Char} {s t : List Char}
    (hkeyword : keyword.toList = d :: t) (hne : c ≠ d) : atKeyword keyword (c :: s) = false := by
  rw [atKeyword, keyword?, symbol?_of_ne hkeyword hne]
  rfl

theorem skipBlanks_of_isScalarHead {c : Char} (hc : IsScalarHead c) (s : List Char) :
    skipBlanks (c :: s) = c :: s := by
  have hblank : isBlank c = false := by
    rcases hc with rfl | hc
    · rfl
    · exact Term.isBlank_of_isWordChar hc
  rw [Text.skipBlanks_cons, hblank, if_neg Bool.false_ne_true]

theorem groupWordFault?_of_isScalarHead {c : Char} (hc : IsScalarHead c) (s : List Char) :
    groupWordFault? (c :: s) = none := by
  have hne : ∀ {d}, !Term.isWordChar d && d != '"' → c ≠ d := fun hd => ne_of_isScalarHead hc hd
  rw [groupWordFault?, atKeyword_of_ne (d := 'A') rfl (hne rfl),
    atKeyword_of_ne (d := 'N') rfl (hne rfl), symbol?_of_ne (d := '&') rfl (hne rfl),
    atKeyword_of_ne (d := 'O') rfl (hne rfl)]
  rfl

theorem endsTerm_cons {c : Char} (hc : Term.endsAt c) (s : List Char) : EndsTerm (c :: s) := by
  intro d hd
  cases hd
  exact hc

theorem readGroupValues_close {isFirst : Bool} {s rest : List Char}
    (hs : skipBlanks s = ')' :: rest) : readGroupValues isFirst s = .ok ([], rest) := by
  rw [readGroupValues, hs]
  rfl

/-- A value at which a group stands, behind what may precede it. -/
theorem readGroupValues_cons {isFirst : Bool} {s s' follow rest : List Char} {v : Value}
    {items : List Value} (hclose : (skipBlanks s).head? ≠ some ')')
    (hnext : nextGroupValue isFirst (skipBlanks s) = s') (hword : groupWordFault? s' = none)
    (hitem : readGroupValue s' = .ok (v, follow))
    (hothers : readGroupValues false follow = .ok (items, rest)) :
    readGroupValues isFirst s = .ok (v :: items, rest) := by
  subst hnext
  rw [readGroupValues]
  dsimp only
  rw [if_neg hclose]
  split
  next hsome => rw [hword] at hsome; cases hsome
  next =>
    split
    next herror => rw [hitem] at herror; cases herror
    next hok =>
      rw [hitem] at hok
      cases hok
      rw [hothers]

/-- The values of a group read back up to the closing parenthesis: the first as it stands, and each
of the others behind a sign of disjunction. -/
theorem readGroupValues_writeItems {items : List Value} (hitems : ∀ v ∈ items, v.IsFiniteScalar)
    (hne : items ≠ []) (rest : List Char) (isFirst : Bool) :
    readGroupValues isFirst ((if isFirst then [] else " OR ".toList) ++
      Value.writeItems items (')' :: rest)) = .ok (items, rest) := by
  induction items generalizing isFirst with
  | nil => exact absurd rfl hne
  | cons v items ih =>
      have hv := hitems v List.mem_cons_self
      obtain ⟨c, s, hc, hwrite⟩ := Value.exists_head hv
      -- what stands behind the value ends it and reads as the other values
      obtain ⟨follow, hfollow, hends, hothers⟩ : ∃ follow,
          Value.writeItems (v :: items) (')' :: rest) = v.write follow ∧ EndsTerm follow ∧
            readGroupValues false follow = .ok (items, rest) := by
        cases items with
        | nil => exact ⟨_, rfl, endsTerm_cons rfl _, readGroupValues_close rfl⟩
        | cons w items =>
            exact ⟨_, rfl, endsTerm_cons rfl _,
              ih (fun u hu => hitems u (List.mem_cons_of_mem _ hu)) (List.cons_ne_nil _ _) false⟩
      have hread := readGroupValue_write hv hends
      have hword : groupWordFault? (v.write follow) = none := by
        rw [hwrite]
        exact groupWordFault?_of_isScalarHead hc _
      rw [hfollow]
      cases isFirst with
      | true =>
          have hblank : skipBlanks (v.write follow) = v.write follow := by
            rw [hwrite]
            exact skipBlanks_of_isScalarHead hc _
          refine readGroupValues_cons ?_ hblank hword hread hothers
          change (skipBlanks (v.write follow)).head? ≠ some ')'
          rw [hblank, hwrite]
          intro heq
          exact ne_of_isScalarHead hc rfl (Option.some.inj heq)
      | false =>
          have hblank : skipBlanks (' ' :: v.write follow) = v.write follow := by
            rw [hwrite, Text.skipBlanks_cons, if_pos (by rfl)]
            exact skipBlanks_of_isScalarHead hc _
          refine readGroupValues_cons ?_ hblank hword hread hothers
          intro heq
          exact absurd (Option.some.inj heq) (by decide)

/-- A group reads back. -/
theorem readGroup_write {items : List Value} (hitems : ∀ v ∈ items, v.IsFiniteScalar)
    (hne : items ≠ []) (rest : List Char) :
    readGroup (Value.writeItems items (')' :: rest)) = .ok (.list items, rest) := by
  have hread := readGroupValues_writeItems hitems hne rest true
  rw [if_pos rfl, List.nil_append] at hread
  rw [readGroup, hread]
  cases items with
  | nil => exact absurd rfl hne
  | cons v items => rfl

/-! ## Ranges -/

/-- A bound that is open or can be read. -/
def IsFiniteBound (bound : Option Value) : Prop :=
  ∀ v, bound = some v → v.IsFiniteScalar ∧ v ≠ .null

theorem readBound_writeBound {bound : Option Value} (hbound : IsFiniteBound bound)
    {rest : List Char} (hrest : EndsTerm rest) :
    readBound (Value.writeBound bound rest) = .ok (bound, rest) := by
  cases bound with
  | none =>
      have hread : Term.read ('*' :: rest) = .ok ([⟨'*', false⟩], rest) :=
        Term.read_plain (s := ['*']) (fun c hc => by rw [List.mem_singleton.mp hc]; decide) hrest
      rw [Value.writeBound, readBound, if_neg (by decide), hread]
      rfl
  | some v =>
      obtain ⟨hv, hnull⟩ := hbound v rfl
      exact readBound_write hv hrest hnull

theorem skipBlanks_writeBound {bound : Option Value} (hbound : IsFiniteBound bound)
    (rest : List Char) :
    skipBlanks (Value.writeBound bound rest) = Value.writeBound bound rest := by
  cases bound with
  | none => rfl
  | some v =>
      obtain ⟨c, s, hc, hwrite⟩ := Value.exists_head (hbound v rfl).1
      rw [Value.writeBound, hwrite]
      exact skipBlanks_of_isScalarHead hc _

/-- A range reads back from behind its opening bracket. -/
theorem readRange_write {low high : Option Value} (hlow : IsFiniteBound low)
    (hhigh : IsFiniteBound high) (closedLow closedHigh : Bool) (rest : List Char) :
    readRange closedLow (Value.writeBound low (" TO ".toList ++
      Value.writeBound high ((if closedHigh then ']' else '\x7d') :: rest))) =
        .ok (.range low high closedLow closedHigh, rest) := by
  have hclose : EndsTerm ((if closedHigh then ']' else '\x7d') :: rest) :=
    endsTerm_cons (by cases closedHigh <;> rfl) rest
  have hto : EndsTerm (" TO ".toList ++
      Value.writeBound high ((if closedHigh then ']' else '\x7d') :: rest)) :=
    endsTerm_cons rfl _
  have hskip : ∀ s, skipBlanks (" TO ".toList ++ s) = "TO ".toList ++ s := fun s => rfl
  have hkeyword : ∀ s, keyword? "TO" ("TO ".toList ++ s) = some (' ' :: s) := fun s => rfl
  have hblank : ∀ s, skipBlanks (' ' :: s) = skipBlanks s := fun s => rfl
  have hend : readRangeEnd (skipBlanks ((if closedHigh then ']' else '\x7d') :: rest)) =
      .ok (closedHigh, rest) := by
    cases closedHigh <;> rfl
  simp only [readRange, bind, Except.bind]
  rw [skipBlanks_writeBound hlow, readBound_writeBound hlow hto]
  dsimp only
  rw [hskip, hkeyword]
  dsimp only
  rw [hblank, skipBlanks_writeBound hhigh, readBound_writeBound hhigh hclose]
  dsimp only
  rw [hend]

/-! ## Bare words and patterns -/

/-- What needs no backslash in a bare term neither is one nor ends the term. -/
theorem plain_of_needsEscape {c : Char} (hc : needsEscape c = false) :
    c ≠ '\\' ∧ ¬ Term.endsAt c := by
  have hne : ∀ {d}, needsEscape d → c ≠ d := by
    rintro d hd rfl
    rw [hc] at hd
    cases hd
  refine ⟨hne rfl, fun hends => ?_⟩
  have hspecial : ∀ d ∈ ['(', ')', '[', ']', '\x7b', '\x7d', '"', ':'], needsEscape d :=
    List.all_eq_true.mp rfl
  rw [Term.endsAt, (Bool.or_eq_false_iff.mp hc).1, Bool.false_or, List.contains_iff_mem] at hends
  exact hne (hspecial c hends) rfl

section Spelled

variable {t : Term} (ht : ∀ c ∈ t, c.escaped = false → needsEscape c.char = false) (hne : t ≠ [])
  {rest : List Char} (hrest : EndsTerm rest)

include ht

include hne in
theorem exists_head_spell :
    ∃ (c : Char) (s : List Char), IsBareHead c ∧ Term.spell t = c :: s := by
  obtain ⟨⟨c, escaped⟩, t, rfl⟩ := List.exists_cons_of_ne_nil hne
  cases escaped with
  | true => exact ⟨'\\', c :: Term.spell t, .inl rfl, rfl⟩
  | false => exact ⟨c, Term.spell t, .inr (ht ⟨c, false⟩ List.mem_cons_self rfl), rfl⟩

include hrest in
theorem read_spell_of_needsEscape : Term.read (Term.spell t ++ rest) = .ok (t, rest) :=
  Term.read_spell (fun c hc hplain => plain_of_needsEscape (ht c hc hplain)) hrest

include hne hrest

theorem readClause_spell :
    readClause (Term.spell t ++ rest) =
      if t.hasWildcard then
        if t.hasEscapedWildcard then .error (.here .mixedWildcards (Term.spell t ++ rest))
        else .ok (⟨.like, .text (String.ofList t.text), false⟩, rest)
      else .ok (.bare .eq t, rest) := by
  have hread := read_spell_of_needsEscape ht hrest
  obtain ⟨c, s, hc, hspell⟩ := exists_head_spell ht hne
  rw [hspell, List.cons_append] at hread ⊢
  rw [readClause_of_isBareHead hc, readBare, hread]
  exact if_neg hne

theorem readOperand_spell (operator : Operator) :
    readOperand operator (Term.spell t ++ rest) = .ok (.bare operator t, rest) := by
  have hread := read_spell_of_needsEscape ht hrest
  obtain ⟨c, s, hc, hspell⟩ := exists_head_spell ht hne
  rw [hspell, List.cons_append] at hread ⊢
  exact readOperand_of_isBareHead hc hread hne

end Spelled

/-- A bare pattern reads as a pattern. -/
theorem readClause_barePattern {s : String} (hwild : ∃ c ∈ s.toList, isWildcard c)
    {rest : List Char} (hrest : EndsTerm rest) :
    readClause (barePattern s.toList ++ rest) = .ok (⟨.like, .text s, false⟩, rest) := by
  have hplain : ∀ c, isWildcard c → needsEscape c = false := by
    intro c hc
    rcases Bool.or_eq_true_iff.mp hc with heq | heq
    · obtain rfl := beq_iff_eq.mp heq
      rfl
    · obtain rfl := beq_iff_eq.mp heq
      rfl
  obtain ⟨w, hw, hwild⟩ := hwild
  have hne : Term.ofText needsEscape s.toList ≠ [] :=
    fun hnil => List.ne_nil_of_mem hw (List.map_eq_nil_iff.mp hnil)
  have hescape : ∀ c ∈ Term.ofText needsEscape s.toList,
      c.escaped = false → needsEscape c.char = false := by
    intro c hc hescaped
    obtain ⟨d, -, rfl⟩ := List.mem_map.mp hc
    exact hescaped
  have hhas : (Term.ofText needsEscape s.toList).hasWildcard := by
    rw [Term.hasWildcard_ofText, List.any_eq_true]
    exact ⟨w, hw, by rw [hwild, hplain w hwild]; rfl⟩
  have hmixed : (Term.ofText needsEscape s.toList).hasEscapedWildcard = false := by
    rw [Term.hasEscapedWildcard, List.any_eq_false]
    intro c hc
    obtain ⟨d, -, rfl⟩ := List.mem_map.mp hc
    intro hboth
    rw [Bool.and_eq_true] at hboth
    rw [hplain d hboth.1] at hboth
    cases hboth.2
  rw [barePattern, ← Term.spell_ofText, readClause_spell hescape hne hrest, if_pos hhas, hmixed,
    if_neg Bool.false_ne_true, Term.text_ofText, String.ofList_toList]

/-- The bare word of a text as a term. -/
def wordTerm : List Char → Term
  | [] => []
  | c :: s =>
    Term.ofText (fun d => (needsEscape d || isWildcard d) || startsNumber d ||
      reservedWords.contains (c :: s)) [c] ++
    Term.ofText (fun d => needsEscape d || isWildcard d) s

theorem spell_wordTerm (s : List Char) : Term.spell (wordTerm s) = bareWord s := by
  cases s with
  | nil => rfl
  | cons c s =>
      rw [wordTerm, bareWord, Term.spell, List.flatMap_append]
      exact congr (congrArg _ (Term.spell_ofText _ _)) (Term.spell_ofText _ _)

theorem text_wordTerm (s : List Char) : (wordTerm s).text = s := by
  cases s with
  | nil => rfl
  | cons c s =>
      rw [wordTerm, Term.text, List.map_append]
      exact congrArg (c :: ·) (Term.text_ofText _ s)

/-- A character of a bare word that is not escaped has no meaning of its own. -/
theorem plain_of_mem_wordTerm {s : List Char} {c : TermChar} (hc : c ∈ wordTerm s)
    (hescaped : c.escaped = false) : needsEscape c.char = false ∧ isWildcard c.char = false := by
  cases s with
  | nil => cases hc
  | cons d s =>
      rw [wordTerm, List.mem_append] at hc
      rcases hc with hc | hc
      · obtain ⟨e, -, rfl⟩ := List.mem_map.mp hc
        simp only [Bool.or_eq_false_iff] at hescaped
        exact hescaped.1.1
      · obtain ⟨e, -, rfl⟩ := List.mem_map.mp hc
        exact Bool.or_eq_false_iff.mp hescaped

theorem hasWildcard_wordTerm (s : List Char) : (wordTerm s).hasWildcard = false := by
  rw [Term.hasWildcard, List.any_eq_false]
  intro c hc hwild
  rw [Bool.and_eq_true, Bool.not_eq_true'] at hwild
  rw [(plain_of_mem_wordTerm hc hwild.2).2] at hwild
  cases hwild.1

/-- What neither starts like a number nor is a reserved word is a text. -/
theorem typed_of_not_special {c : Char} {s : List Char} (hnumber : startsNumber c = false)
    (hreserved : c :: s ∉ reservedWords) :
    Term.typed (c :: s) = .text (String.ofList (c :: s)) := by
  have hnumeric : Term.looksNumeric (c :: s) = false := by
    rw [Term.looksNumeric, List.head?_cons, Option.any_some, hnumber, Bool.and_false,
      Bool.false_and]
  have hne : ∀ {word}, word ∈ reservedWords → c :: s ≠ word := by
    rintro word hword rfl
    exact hreserved hword
  rw [Term.typed, hnumeric, if_neg (hne (by decide)), if_neg (hne (by decide)),
    if_neg (hne (by decide)), if_neg Bool.false_ne_true]

/-- A bare word is a text, whatever the text is. -/
theorem scalar_wordTerm (s : List Char) : (wordTerm s).scalar = .text (String.ofList s) := by
  rw [Term.scalar.eq_def, text_wordTerm]
  split
  · rfl
  next hplain =>
    cases s with
    | nil => rfl
    | cons c s =>
        simp only [Term.hasEscape, wordTerm, Term.ofText, List.map_cons, List.map_nil,
          List.singleton_append, List.any_cons, Bool.or_eq_true, not_or] at hplain
        obtain ⟨⟨⟨-, hnumber⟩, hreserved⟩, -⟩ := hplain
        rw [List.contains_iff_mem] at hreserved
        exact typed_of_not_special (Bool.not_eq_true _ ▸ hnumber) hreserved

theorem bare_wordTerm (operator : Operator) (s : String) :
    Clause.bare operator (wordTerm s.toList) = ⟨operator, .text s, operator.isEquality⟩ := by
  rw [Clause.bare, scalar_wordTerm, String.ofList_toList]
  simp [Value.text?]

section Words

variable {s : String} (hs : s ≠ "") {rest : List Char} (hrest : EndsTerm rest)

include hs

theorem wordTerm_ne_nil : wordTerm s.toList ≠ [] := by
  intro hnil
  have htext := text_wordTerm s.toList
  rw [hnil] at htext
  exact hs (String.toList_eq_nil_iff.mp htext.symm)

include hrest

theorem readOperand_bareWord (operator : Operator) :
    readOperand operator (bareWord s.toList ++ rest) =
      .ok (⟨operator, .text s, operator.isEquality⟩, rest) := by
  rw [← spell_wordTerm, readOperand_spell (fun c hc hplain => (plain_of_mem_wordTerm hc hplain).1)
    (wordTerm_ne_nil hs) hrest, bare_wordTerm]

theorem readClause_bareWord :
    readClause (bareWord s.toList ++ rest) = .ok (⟨.eq, .text s, true⟩, rest) := by
  rw [← spell_wordTerm, readClause_spell (fun c hc hplain => (plain_of_mem_wordTerm hc hplain).1)
    (wordTerm_ne_nil hs) hrest, hasWildcard_wordTerm, if_neg Bool.false_ne_true, bare_wordTerm]
  rfl

end Words

/-! ## Canonical comparisons -/

namespace Comparison

/-- An operator, a value and a treatment of case that the language of queries can express. -/
inductive IsExpressible : Operator → Value → Bool → Prop
  /-- A bare word. -/
  | word {operator : Operator} {s : String} (hoperator : operator ∈ [.eq, .ne]) (hs : s ≠ "") :
    IsExpressible operator (.text s) true
  | scalar {operator : Operator} {v : Value}
    (hoperator : operator ∈ [.eq, .ne, .gt, .gte, .lt, .lte]) (hv : v.IsFiniteScalar) :
    IsExpressible operator v false
  | pattern {s : String} (hwild : ∃ c ∈ s.toList, isWildcard c) :
    IsExpressible .like (.text s) false
  | regex {s : String} (hs : s ≠ "") (hpair : BackslashesPair s.toList) :
    IsExpressible .regex (.text s) false
  | membership {operator : Operator} {items : List Value} (hoperator : operator ∈ [.oneOf, .noneOf])
    (hne : items ≠ []) (hitems : ∀ v ∈ items, v.IsFiniteScalar) :
    IsExpressible operator (.list items) false
  | range {low high : Option Value} {closedLow closedHigh : Bool} (hlow : IsFiniteBound low)
    (hhigh : IsFiniteBound high) :
    IsExpressible .between (.range low high closedLow closedHigh) false

end Comparison

/-- A sign that could start another sign stands alone in front of anything but an equality sign. -/
theorem comparator?_strict {operator : Operator} (hoperator : operator ∈ [.gt, .lt])
    {s : List Char} (hs : s.head? ≠ some '=') :
    comparator? (operator.sign ++ s) = some (operator, s) := by
  simp only [List.mem_cons, List.not_mem_nil, or_false] at hoperator
  rcases hoperator with rfl | rfl
  · change comparator? ('>' :: s) = _
    simp only [comparator?, if_true]
    split
    next heq => exact absurd heq hs
    next => rfl
  · change comparator? ('<' :: s) = _
    simp only [comparator?, Char.reduceEq, if_false, if_true]
    split
    next heq => exact absurd heq hs
    next => rfl

theorem comparator?_sign {operator : Operator} (hoperator : operator ∈ [.ne, .gt, .gte, .lt, .lte])
    {s : List Char} (hs : s.head? ≠ some '=') :
    comparator? (operator.sign ++ s) = some (operator, s) := by
  simp only [List.mem_cons, List.not_mem_nil, or_false] at hoperator
  rcases hoperator with rfl | rfl | rfl | rfl | rfl
  · rfl
  · exact comparator?_strict (by decide) hs
  · rfl
  · exact comparator?_strict (by decide) hs
  · rfl

theorem readClause_of_comparator {c : Char} (hc : c ∈ ['>', '<', '=', '!']) {operator : Operator}
    {s rest : List Char} (hcomparator : comparator? (c :: s) = some (operator, rest)) :
    readClause (c :: s) = readOperand operator rest := by
  simp only [List.mem_cons, List.not_mem_nil, or_false] at hc
  have hblank : isBlank c = false := by
    rcases hc with rfl | rfl | rfl | rfl <;> rfl
  rw [readClause, hblank, if_neg Bool.false_ne_true, if_pos hc, hcomparator]

theorem readClause_sign {operator : Operator} (hoperator : operator ∈ [.ne, .gt, .gte, .lt, .lte])
    {s : List Char} (hs : s.head? ≠ some '=') :
    readClause (operator.sign ++ s) = readOperand operator s := by
  have hcomparator := comparator?_sign hoperator hs
  simp only [List.mem_cons, List.not_mem_nil, or_false] at hoperator
  rcases hoperator with rfl | rfl | rfl | rfl | rfl <;>
  exact readClause_of_comparator (by decide) hcomparator

theorem writeExact_scalar {operator : Operator} {v : Value}
    (hoperator : operator ∈ [.eq, .ne, .gt, .gte, .lt, .lte]) (hv : v.IsFiniteScalar)
    (rest : List Char) :
    Comparison.writeExact operator v rest = operator.sign ++ v.write rest := by
  simp only [List.mem_cons, List.not_mem_nil, or_false] at hoperator
  cases v with
  | list items => exact hv.elim
  | range low high closedLow closedHigh => exact hv.elim
  | _ => rcases hoperator with rfl | rfl | rfl | rfl | rfl | rfl <;> rfl

theorem readClause_writeExact_scalar {operator : Operator} {v : Value}
    (hoperator : operator ∈ [.eq, .ne, .gt, .gte, .lt, .lte]) (hv : v.IsFiniteScalar)
    {rest : List Char} (hrest : EndsTerm rest) :
    readClause (Comparison.writeExact operator v rest) = .ok (⟨operator, v, false⟩, rest) := by
  rw [writeExact_scalar hoperator hv]
  rcases List.mem_cons.mp hoperator with rfl | hsign
  · exact readClause_write hv hrest
  · obtain ⟨c, s, hc, hwrite⟩ := Value.exists_head hv
    have hhead : (v.write rest).head? ≠ some '=' := by
      rw [hwrite]
      intro heq
      exact ne_of_isScalarHead hc rfl (Option.some.inj heq)
    rw [readClause_sign hsign hhead, readOperand_write hv hrest]

theorem readClause_sign_bareWord {operator : Operator} {s : String}
    (hoperator : operator ∈ [.eq, .ne]) (hs : s ≠ "") {rest : List Char} (hrest : EndsTerm rest) :
    readClause (operator.sign ++ bareWord s.toList ++ rest) =
      .ok (⟨operator, .text s, true⟩, rest) := by
  rw [List.append_assoc]
  rcases List.mem_cons.mp hoperator with rfl | hne
  · exact readClause_bareWord hs hrest
  · obtain rfl := List.mem_singleton.mp hne
    have hhead : (bareWord s.toList ++ rest).head? ≠ some '=' := by
      obtain ⟨c, t, hc, hspell⟩ := exists_head_spell
        (fun c hc hplain => (plain_of_mem_wordTerm hc hplain).1) (wordTerm_ne_nil hs)
      rw [← spell_wordTerm, hspell]
      intro heq
      exact ne_of_isBareHead hc rfl (Option.some.inj heq)
    rw [readClause_sign (by decide) hhead, readOperand_bareWord hs hrest]
    rfl

theorem writeClause_word {field : FieldPath} {operator : Operator} {s : String}
    (hoperator : operator ∈ [.eq, .ne]) (hs : s ≠ "") (rest : List Char) :
    Comparison.writeClause ⟨field, operator, .text s, true⟩ rest =
      operator.sign ++ bareWord s.toList ++ rest := by
  have hlist : s.toList ≠ [] := fun hnil => hs (String.toList_eq_nil_iff.mp hnil)
  simp only [List.mem_cons, List.not_mem_nil, or_false] at hoperator
  rcases hoperator with rfl | rfl <;> exact if_neg hlist

theorem readClause_regex {s : String} (hs : s ≠ "") (hpair : BackslashesPair s.toList)
    (rest : List Char) :
    readClause (delimitedRegex s.toList ++ rest) = .ok (⟨.regex, .text s, false⟩, rest) := by
  have htext : delimitedRegex s.toList ++ rest =
      '/' :: (escapeWhere (· == '/') s.toList ++ '/' :: rest) := by
    simp [delimitedRegex]
  rw [htext, readClause_slash, readRegex_delimited hs hpair]
  rfl

theorem readClause_membership {operator : Operator} {items : List Value}
    (hoperator : operator ∈ [.oneOf, .noneOf]) (hne : items ≠ [])
    (hitems : ∀ v ∈ items, v.IsFiniteScalar) (rest : List Char) :
    readClause (operator.sign ++ (Value.list items).write rest) =
      .ok (⟨operator, .list items, false⟩, rest) := by
  have hgroup := readGroup_write hitems hne rest
  rcases List.mem_cons.mp hoperator with rfl | hnone
  · change readClause ('(' :: Value.writeItems items (')' :: rest)) = _
    rw [readClause_parenthesis, hgroup]
    rfl
  · obtain rfl := List.mem_singleton.mp hnone
    change readClause ('!' :: '=' :: '(' :: Value.writeItems items (')' :: rest)) = _
    rw [readClause_of_comparator (by decide) rfl]
    change withOperator .noneOf (readGroup (Value.writeItems items (')' :: rest))) = _
    rw [hgroup]
    rfl

theorem readClause_range {low high : Option Value} (hlow : IsFiniteBound low)
    (hhigh : IsFiniteBound high) (closedLow closedHigh : Bool) (rest : List Char) :
    readClause ((Value.range low high closedLow closedHigh).write rest) =
      .ok (⟨.between, .range low high closedLow closedHigh, false⟩, rest) := by
  have hrange := readRange_write hlow hhigh closedLow closedHigh rest
  rw [Value.write]
  cases closedLow with
  | true =>
      rw [if_pos rfl, readClause_bracket, hrange]
      rfl
  | false =>
      rw [if_neg Bool.false_ne_true, readClause_brace, hrange]
      rfl

/-- The part of a comparison behind the colon reads back. -/
theorem readClause_writeClause {c : Comparison}
    (hc : Comparison.IsExpressible c.operator c.value c.ignoreCase) {rest : List Char}
    (hrest : EndsTerm rest) :
    readClause (c.writeClause rest) = .ok (⟨c.operator, c.value, c.ignoreCase⟩, rest) := by
  obtain ⟨field, operator, value, ignoreCase⟩ := c
  have hexact : ignoreCase = false →
      Comparison.writeClause ⟨field, operator, value, ignoreCase⟩ rest =
        Comparison.writeExact operator value rest := by
    rintro rfl
    rfl
  cases hc with
  | word hoperator hs =>
      rw [writeClause_word hoperator hs]
      exact readClause_sign_bareWord hoperator hs hrest
  | scalar hoperator hv =>
      rw [hexact rfl]
      exact readClause_writeExact_scalar hoperator hv hrest
  | pattern hwild =>
      rw [hexact rfl]
      exact readClause_barePattern hwild hrest
  | regex hs hpair =>
      rw [hexact rfl]
      exact readClause_regex hs hpair rest
  | membership hoperator hne hitems =>
      rw [hexact rfl]
      refine Eq.trans ?_ (readClause_membership hoperator hne hitems rest)
      rcases List.mem_cons.mp hoperator with rfl | hnone
      · rfl
      · obtain rfl := List.mem_singleton.mp hnone
        rfl
  | range hlow hhigh =>
      rw [hexact rfl]
      exact readClause_range hlow hhigh _ _ rest

/-! ## Comparisons -/

/-- A field that is written as it stands, without a backslash: none of its characters is a blank or
has a meaning in the text of a query, and it does not start with a sign. -/
structure FieldPath.IsBare (f : FieldPath) : Prop where
  plain : ∀ c ∈ f.text.toList, isBlank c = false ∧
    c ∉ ['(', ')', '[', ']', '\x7b', '\x7d', '"', ':', '\\', '*', '?']
  unsigned : f.text.toList.head? ∉ [some '+', some '-', some '!']

instance (f : FieldPath) : Decidable f.IsBare :=
  decidable_of_iff
    (f.text.toList.all (fun c => isBlank c = false ∧
        c ∉ ['(', ')', '[', ']', '\x7b', '\x7d', '"', ':', '\\', '*', '?']) ∧
      f.text.toList.head? ∉ [some '+', some '-', some '!'])
    ⟨fun h => ⟨fun c hc => of_decide_eq_true (List.all_eq_true.mp h.1 c hc), h.2⟩,
      fun h => ⟨List.all_eq_true.mpr fun c hc => decide_eq_true (h.plain c hc), h.unsigned⟩⟩

/-- A comparison that the language of queries can express. -/
structure Comparison.IsCanonical (c : Comparison) : Prop where
  field : c.field.IsBare
  clause : IsExpressible c.operator c.value c.ignoreCase

/-- A field that is read as it stands: none of its characters is a blank or has a meaning in the
text of a query, and if it starts with a sign, then an equality sign is next, in front of which a
sign does not stand for an operator. -/
structure FieldPath.IsPlain (f : FieldPath) : Prop where
  plain : ∀ c ∈ f.text.toList, isBlank c = false ∧
    c ∉ ['(', ')', '[', ']', '\x7b', '\x7d', '"', ':', '\\', '*', '?']
  unsigned : f.text.toList.head? ∈ [some '+', some '-', some '!'] → f.text.toList[1]? = some '='

instance (f : FieldPath) : Decidable f.IsPlain :=
  decidable_of_iff
    (f.text.toList.all (fun c => isBlank c = false ∧
        c ∉ ['(', ')', '[', ']', '\x7b', '\x7d', '"', ':', '\\', '*', '?']) ∧
      (f.text.toList.head? ∈ [some '+', some '-', some '!'] → f.text.toList[1]? = some '='))
    ⟨fun h => ⟨fun c hc => of_decide_eq_true (List.all_eq_true.mp h.1 c hc), h.2⟩,
      fun h => ⟨List.all_eq_true.mpr fun c hc => decide_eq_true (h.plain c hc), h.unsigned⟩⟩

/-- A comparison that reads back. -/
structure Comparison.IsWritable (c : Comparison) : Prop where
  field : c.field.IsPlain
  clause : IsExpressible c.operator c.value c.ignoreCase

theorem FieldPath.IsBare.isPlain {f : FieldPath} (hf : f.IsBare) : f.IsPlain :=
  ⟨hf.plain, fun hsign => absurd hsign hf.unsigned⟩

theorem Comparison.IsCanonical.isWritable {c : Comparison} (hc : c.IsCanonical) : c.IsWritable :=
  ⟨hc.field.isPlain, hc.clause⟩

theorem FieldPath.toList_ne_nil (f : FieldPath) : f.text.toList ≠ [] := by
  intro hnil
  have hshape := f.wellShaped
  rw [FieldPath.fault?, hnil] at hshape
  exact absurd hshape (by decide)

theorem FieldPath.ofString_text (f : FieldPath) : FieldPath.ofString f.text = .ok f := by
  unfold FieldPath.ofString
  split
  next fault hfault =>
    rw [f.wellShaped] at hfault
    cases hfault
  next => rfl

/-- The name of a field reads as it stands up to the colon. -/
theorem read_field {f : FieldPath} (hf : f.IsPlain) (rest : List Char) :
    Term.read (f.text.toList ++ ':' :: rest) =
      .ok (Term.ofText (fun _ => false) f.text.toList, ':' :: rest) := by
  have hspecial : ∀ {c}, c ∈ ['(', ')', '[', ']', '\x7b', '\x7d', '"', ':'] →
      c ∈ ['(', ')', '[', ']', '\x7b', '\x7d', '"', ':', '\\', '*', '?'] :=
    fun hc => List.mem_append_left ['\\', '*', '?'] hc
  refine Term.read_plain (fun c hc => ?_) (endsTerm_cons rfl _)
  obtain ⟨hblank, hplain⟩ := hf.plain c hc
  refine ⟨by rintro rfl; exact hplain (by decide), ?_⟩
  rw [Term.endsAt, hblank, Bool.false_or, List.contains_iff_mem]
  intro hmem
  exact hplain (hspecial hmem)

theorem hasWildcard_field {f : FieldPath} (hf : f.IsPlain) :
    (Term.ofText (fun _ => false) f.text.toList).hasWildcard = false := by
  refine Term.hasWildcard_plain fun c hc => ?_
  obtain ⟨-, hplain⟩ := hf.plain c hc
  refine Bool.or_eq_false_iff.mpr ⟨beq_eq_false_iff_ne.mpr ?_, beq_eq_false_iff_ne.mpr ?_⟩
  · rintro rfl
    exact hplain (by decide)
  · rintro rfl
    exact hplain (by decide)

theorem readComparison_write {c : Comparison} (hc : c.IsWritable) {rest : List Char}
    (hrest : EndsTerm rest) : readComparison (c.write rest) = .ok (c, rest) := by
  have hclause := readClause_writeClause hc.clause hrest
  have hne : Term.ofText (fun _ => false) c.field.text.toList ≠ [] :=
    fun hnil => c.field.toList_ne_nil (List.map_eq_nil_iff.mp hnil)
  simp only [readComparison, bind, Except.bind]
  rw [Comparison.write, read_field hc.field]
  dsimp only
  rw [if_neg hne]
  split
  next rest' heq =>
    cases heq
    rw [hasWildcard_field hc.field, if_neg Bool.false_ne_true, Term.text_ofText,
      String.ofList_toList, FieldPath.ofString_text]
    dsimp only
    rw [hclause]
    rfl
  next hcolon => exact absurd rfl (hcolon _)

end QueryFilter
