import QueryFilter.Proofs.Query.Nesting
import QueryFilter.Proofs.Query.RoundTrip

/-!
# What is read can be written

Every comparison in a query that was read has an operator, a value and a treatment of case that the
language of queries can express (`Query.isTreeOf_of_parse`).  So if its fields are read as they
stand, its text, where it is read at all, is read as the same tree (`Query.eq_of_parse_render`).

## Strategy

What can be expressed is followed through the readers from the inside out.  A term stands for a
finite scalar, and for a text that is not empty if it stands for a text; a regular expression keeps
its backslashes in pairs; groups and bounds hold what terms and quotes stand for.  A clause then has
one of the forms of `Comparison.IsExpressible`, one for each place in which its value was found.

The text of such a tree is read with some number of levels.  The reader has `maxNesting`, and if it
gets to the end of the text with as many, then more levels make no difference.
-/

namespace QueryFilter

open Text (isBlank skipBlanks)

/-! ## Terms -/

namespace Term

variable {t : Term}

/-- A text without escapes stands for itself, or for a finite scalar that is not a text. -/
theorem typed_cases (s : List Char) : typed s = .text (String.ofList s) ∨
    (typed s).text? = none ∧ (typed s).IsFiniteScalar := by
  unfold typed
  split
  · exact .inr ⟨rfl, trivial⟩
  split
  · exact .inr ⟨rfl, trivial⟩
  split
  · exact .inr ⟨rfl, trivial⟩
  split
  · split
    · exact .inr ⟨rfl, trivial⟩
    split
    next x hread => exact .inr ⟨rfl, Number.isFinite_of_readFloat? hread⟩
    · exact .inl rfl
  · exact .inl rfl

/-- So does a term, which stands for itself if it has an escape. -/
theorem scalar_cases (t : Term) : t.scalar = .text (String.ofList t.text) ∨
    t.scalar.text? = none ∧ t.scalar.IsFiniteScalar := by
  rw [scalar.eq_def]
  split
  · exact .inl rfl
  · exact typed_cases t.text

theorem isFiniteScalar_scalar (t : Term) : t.scalar.IsFiniteScalar := by
  rcases t.scalar_cases with htext | ⟨-, hfinite⟩
  · rw [htext]
    trivial
  · exact hfinite

/-- A term with a character does not stand for the empty text. -/
theorem ofList_text_ne_empty (ht : t ≠ []) : String.ofList t.text ≠ "" := by
  intro hempty
  apply ht
  have hnil : t.text = [] := String.ofList_eq_empty_iff.mp hempty
  exact List.map_eq_nil_iff.mp hnil

end Term

/-! ## Delimited texts -/

theorem exists_text_of_readQuoted {s rest : List Char} {v : Value}
    (h : readQuoted s = .ok (v, rest)) : ∃ u, v = .text u := by
  unfold readQuoted at h
  split at h
  · cases h
    exact ⟨_, rfl⟩
  · cases h

theorem isFiniteScalar_of_readQuoted {s rest : List Char} {v : Value}
    (h : readQuoted s = .ok (v, rest)) : v.IsFiniteScalar := by
  obtain ⟨u, rfl⟩ := exists_text_of_readQuoted h
  trivial

theorem backslashesPair_cons {c : Char} (hc : c ≠ '\\') (s : List Char) :
    BackslashesPair (c :: s) = BackslashesPair s := by
  rw [BackslashesPair.eq_4 c s (fun heq => absurd heq hc) (fun _ _ heq => absurd heq hc)]

/-- A backslash that stays in a regular expression stays with the character behind it. -/
theorem backslashesPair_of_readRegex? {s t rest : List Char}
    (h : readRegex? s = some (t, rest)) : BackslashesPair t := by
  fun_induction readRegex? s generalizing t with
  | case1 => cases h
  | case2 rest =>
      cases h
      trivial
  | case3 s ih =>
      obtain ⟨⟨t, rest⟩, hread, heq⟩ := Option.map_eq_some_iff.mp h
      cases heq
      exact (backslashesPair_cons (by decide) t).mpr (ih hread)
  | case4 c s hslash ih =>
      obtain ⟨⟨t, rest⟩, hread, heq⟩ := Option.map_eq_some_iff.mp h
      cases heq
      exact ⟨fun heq => hslash heq, ih hread⟩
  | case5 c s hclose hslash hescape ih =>
      obtain ⟨⟨t, rest⟩, hread, heq⟩ := Option.map_eq_some_iff.mp h
      cases heq
      have hc : c ≠ '\\' := by
        rintro rfl
        cases s with
        | nil => cases hread
        | cons d s => exact hescape d s rfl rfl
      exact (backslashesPair_cons hc t).mpr (ih hread)

theorem exists_regex_of_readRegex {s rest : List Char} {v : Value}
    (h : readRegex s = .ok (v, rest)) : ∃ u, v = .text u ∧ u ≠ "" ∧ BackslashesPair u.toList := by
  unfold readRegex at h
  split at h
  · cases h
  next t rest hne hread =>
    cases h
    refine ⟨_, rfl, ?_, ?_⟩
    · intro hempty
      exact hne (String.ofList_eq_empty_iff.mp hempty)
    · rw [String.toList_ofList]
      exact backslashesPair_of_readRegex? hread
  · cases h

/-! ## Groups and ranges -/

theorem isFiniteScalar_of_readGroupValue {s rest : List Char} {v : Value}
    (h : readGroupValue s = .ok (v, rest)) : v.IsFiniteScalar := by
  unfold readGroupValue at h
  split at h
  · cases h
  split at h
  · exact isFiniteScalar_of_readQuoted h
  split at h
  · cases h
  split at h
  · cases h
  next t rest _ =>
    split at h
    · cases h
    split at h
    · cases h
    · cases h
      exact t.isFiniteScalar_scalar

theorem isFiniteScalar_of_readGroupValues {isFirst : Bool} {s rest : List Char}
    {items : List Value} (h : readGroupValues isFirst s = .ok (items, rest)) :
    ∀ v ∈ items, v.IsFiniteScalar := by
  fun_induction readGroupValues isFirst s generalizing items rest with
  | case1 =>
      cases h
      intro v hv
      cases hv
  | case2 => cases h
  | case3 => cases h
  | case4 => cases h
  | case5 isFirst s s₁ _ _ _ item rest hitem =>
      rename_i hothers ih
      cases h
      intro v hv
      rcases List.mem_cons.mp hv with rfl | hv
      · exact isFiniteScalar_of_readGroupValue hitem
      · exact ih hothers v hv

theorem exists_list_of_readGroup {s rest : List Char} {v : Value}
    (h : readGroup s = .ok (v, rest)) :
    ∃ items, v = .list items ∧ items ≠ [] ∧ ∀ w ∈ items, w.IsFiniteScalar := by
  unfold readGroup at h
  split at h
  · cases h
  · cases h
  next items rest hne hread =>
    cases h
    exact ⟨items, rfl, hne, isFiniteScalar_of_readGroupValues hread⟩

theorem isFiniteBound_of_readBound {s rest : List Char} {bound : Option Value}
    (h : readBound s = .ok (bound, rest)) : IsFiniteBound bound := by
  unfold readBound at h
  split at h
  · cases h
  split at h
  · split at h
    · cases h
    next v rest hread =>
      cases h
      obtain ⟨u, rfl⟩ := exists_text_of_readQuoted hread
      rintro w ⟨⟩
      exact ⟨trivial, nofun⟩
  split at h
  · cases h
  next t rest _ =>
    split at h
    · cases h
    split at h
    · split at h
      · cases h
        exact nofun
      · cases h
    split at h
    · cases h
    next hnull =>
      cases h
      rintro v ⟨⟩
      refine ⟨t.isFiniteScalar_scalar, ?_⟩
      intro heq
      exact hnull (heq ▸ rfl)

theorem exists_range_of_readRange {closedLow : Bool} {s rest : List Char} {v : Value}
    (h : readRange closedLow s = .ok (v, rest)) : ∃ low high closedHigh,
      v = .range low high closedLow closedHigh ∧ IsFiniteBound low ∧ IsFiniteBound high := by
  obtain ⟨⟨low, s₁⟩, hlow, h⟩ := bind_eq_ok.mp h
  dsimp only at h
  split at h
  · cases h
  next s₂ _ =>
    obtain ⟨⟨high, s₃⟩, hhigh, h⟩ := bind_eq_ok.mp h
    obtain ⟨⟨closedHigh, s₄⟩, -, h⟩ := bind_eq_ok.mp h
    cases h
    exact ⟨low, high, closedHigh, rfl, isFiniteBound_of_readBound hlow,
      isFiniteBound_of_readBound hhigh⟩

/-! ## Clauses -/

/-- A clause that the language of queries can express. -/
def Clause.IsExpressible (c : Clause) : Prop :=
  Comparison.IsExpressible c.operator c.value c.ignoreCase

/-- The operators that a scalar is compared by. -/
def scalarOperators : List Operator := [.eq, .ne, .gt, .gte, .lt, .lte]

theorem Clause.isExpressible_bare {operator : Operator} (hoperator : operator ∈ scalarOperators)
    {t : Term} (ht : t ≠ []) : (bare operator t).IsExpressible := by
  change Comparison.IsExpressible operator t.scalar
    (operator.isEquality && t.scalar.text?.isSome)
  by_cases hcase : operator.isEquality && t.scalar.text?.isSome
  · -- only a word that is tested for equality ignores case
    obtain ⟨hequality, htext⟩ := Bool.and_eq_true_iff.mp hcase
    have hword : operator ∈ [.eq, .ne] := by
      cases operator with
      | eq | ne => decide
      | _ => cases hequality
    rcases t.scalar_cases with hscalar | ⟨hnone, -⟩
    · rw [hcase, hscalar]
      exact .word hword (Term.ofList_text_ne_empty ht)
    · rw [hnone] at htext
      cases htext
  · rw [Bool.not_eq_true] at hcase
    rw [hcase]
    exact .scalar hoperator t.isFiniteScalar_scalar

/-- The clause of an operator and a value that is found in quotes, in a group or in a range. -/
theorem isExpressible_of_withOperator {operator : Operator}
    {found : Except Fault (Value × List Char)} {c : Clause} {rest : List Char}
    (hfound : ∀ {v rest}, found = .ok (v, rest) → Comparison.IsExpressible operator v false)
    (h : withOperator operator found = .ok (c, rest)) : c.IsExpressible := by
  unfold withOperator at h
  split at h
  · cases h
  · cases h
    exact hfound rfl

theorem isExpressible_of_readGroup {operator : Operator} (hoperator : operator ∈ [.oneOf, .noneOf])
    {s rest : List Char} {c : Clause}
    (h : withOperator operator (readGroup s) = .ok (c, rest)) : c.IsExpressible := by
  refine isExpressible_of_withOperator (fun hread => ?_) h
  obtain ⟨items, rfl, hne, hitems⟩ := exists_list_of_readGroup hread
  exact .membership hoperator hne hitems

theorem mem_of_groupOperator? {operator membership : Operator}
    (h : groupOperator? operator = some membership) : membership ∈ [Operator.oneOf, .noneOf] := by
  cases operator with
  | eq | ne =>
      cases h
      decide
  | _ => cases h

theorem mem_of_comparator? {s rest : List Char} {operator : Operator}
    (h : comparator? s = some (operator, rest)) : operator ∈ scalarOperators := by
  unfold comparator? at h
  grind [scalarOperators]

theorem isExpressible_of_readOperand {operator : Operator}
    (hoperator : operator ∈ scalarOperators) {s rest : List Char} {c : Clause}
    (h : readOperand operator s = .ok (c, rest)) : c.IsExpressible := by
  unfold readOperand at h
  split at h
  · cases h
  split at h
  · exact isExpressible_of_withOperator
      (fun hread => .scalar hoperator (isFiniteScalar_of_readQuoted hread)) h
  split at h
  · split at h
    next hgroup => exact isExpressible_of_readGroup (mem_of_groupOperator? hgroup) h
    · cases h
  split at h
  · cases h
  split at h
  · cases h
  next t rest _ =>
    split at h
    · cases h
    next ht =>
      cases h
      exact Clause.isExpressible_bare hoperator ht

theorem isExpressible_of_readBare {s rest : List Char} {c : Clause}
    (h : readBare s = .ok (c, rest)) : c.IsExpressible := by
  unfold readBare at h
  split at h
  · cases h
  next t rest _ =>
    split at h
    · cases h
    next ht =>
      split at h
      next hwild =>
        split at h
        · cases h
        · cases h
          apply Comparison.IsExpressible.pattern
          obtain ⟨d, hd, hwildcard⟩ := List.any_eq_true.mp hwild
          refine ⟨d.char, ?_, (Bool.and_eq_true_iff.mp hwildcard).1⟩
          rw [String.toList_ofList]
          exact List.mem_map_of_mem hd
      · cases h
        exact Clause.isExpressible_bare (by decide) ht

/-- Every clause that is read can be expressed. -/
theorem isExpressible_of_readClause {s rest : List Char} {c : Clause}
    (h : readClause s = .ok (c, rest)) : c.IsExpressible := by
  have hrange : ∀ {closedLow : Bool} {s : List Char},
      withOperator .between (readRange closedLow s) = .ok (c, rest) → c.IsExpressible := by
    intro closedLow s h
    refine isExpressible_of_withOperator (fun hread => ?_) h
    obtain ⟨low, high, closedHigh, rfl, hlow, hhigh⟩ := exists_range_of_readRange hread
    exact .range hlow hhigh
  unfold readClause at h
  split at h
  · cases h
  split at h
  · cases h
  split at h
  · split at h
    · cases h
    next operator rest hsign => exact isExpressible_of_readOperand (mem_of_comparator? hsign) h
  split at h
  · exact isExpressible_of_withOperator
      (fun hread => .scalar (by decide) (isFiniteScalar_of_readQuoted hread)) h
  split at h
  · refine isExpressible_of_withOperator (fun hread => ?_) h
    obtain ⟨u, rfl, hne, hpair⟩ := exists_regex_of_readRegex hread
    exact .regex hne hpair
  split at h
  · exact hrange h
  split at h
  · exact hrange h
  split at h
  · exact isExpressible_of_readGroup (by decide) h
  · exact isExpressible_of_readBare h

/-! ## Comparisons and trees -/

theorem isExpressible_of_readComparison {s rest : List Char} {c : Comparison}
    (h : readComparison s = .ok (c, rest)) :
    Comparison.IsExpressible c.operator c.value c.ignoreCase := by
  obtain ⟨⟨name, s₁⟩, -, h⟩ := bind_eq_ok.mp h
  dsimp only at h
  split at h
  · cases h
  split at h
  · split at h
    · cases h
    split at h
    · cases h
    next field _ =>
      obtain ⟨⟨clause, s₂⟩, hclause, h⟩ := bind_eq_ok.mp h
      cases h
      exact isExpressible_of_readClause hclause
  · cases h

namespace Query

/-- The text of a query makes a tree of comparisons that the language of queries can express. -/
theorem isTreeOf_of_parse {text : String} {q : Query} (h : parse text = .ok q) :
    q.IsTreeOf fun c => Comparison.IsExpressible c.operator c.value c.ignoreCase :=
  parse_induction (isKept_isTreeOf _) isExpressible_of_readComparison h

/-- **A text that is written for a query never means another query.**  If the fields of a query that
was read are read as they stand, and its text is read at all, then it is read as the query.

With another field the text may mean another query, and no error tells, because a field is written
without the backslashes that it was read with: `\-a:1` is written as `-a:1`, the negation of `a:1`;
`a\\b:1` as `a\b:1`, a comparison of the field `ab`; and `a\:b\ c:1` as `a:b c:1`, the conjunction
of `a:b` and `c:1`. -/
theorem eq_of_parse_render {text : String} {q q' : Query} (h : parse text = .ok q)
    (hfields : ∀ c ∈ q.leafComparisons, c.field.IsPlain) (hagain : parse q.render = .ok q') :
    q' = q := by
  have hwritable : q.IsTreeOf Comparison.IsWritable :=
    (isTreeOf_of_parse h).imp fun c hc hclause => ⟨hfields c hc, hclause⟩
  -- enough levels for the tree, and as many as the reader has
  let levels := max ((q.leafLevels 0).max?.getD 0) maxNesting
  have hwritten : readQuery levels (q.write []) = .ok q := by
    have hlevels : ∀ n ∈ q.leafLevels 0, n ≤ 0 + levels := by
      intro n hn
      rw [Nat.zero_add]
      exact Nat.le_trans (List.le_max?_getD_of_mem hn) (Nat.le_max_left _ _)
    exact readQuery_eq_ok.mpr ⟨[], readDisjunction_write hwritable hlevels (.inl rfl), rfl⟩
  have hread : readQuery levels (q.write []) = .ok q' := by
    have hagain := (parse_eq_ok.mp hagain).2.2
    rw [render, String.toList_ofList] at hagain
    exact readQuery_mono hagain (Nat.le_max_right _ _)
  exact Except.ok.inj (hread.symm.trans hwritten)

/-- A reserved word, a sign in front of an equality sign, a wildcard, a quote and a slash, each
behind a backslash. -/
theorem eq_of_parse_render_escapes :
    let text := "-tag:\\null \\-=a.b:\\* OR age:[\"\\\"\" TO *\x7d path:/a\\/b/"
    let canonical :=
      "((NOT (tag:\\null)) AND (-=a.b:\\*)) OR ((age:[\"\\\"\" TO *\x7d) AND (path:/a\\/b/))"
    ∃ q q', parse text = .ok q ∧ q.render = canonical ∧ parse q.render = .ok q' ∧ q' = q := by
  intro text canonical
  have hresult : (parse text).toOption.map (fun q => (q.render, (parse q.render).isOk,
      q.leafComparisons.all fun c => decide c.field.IsPlain)) = some (canonical, true, true) := by
    decide +kernel
  obtain ⟨q, hq, hanswer⟩ := exists_ok_of_toOption_map hresult
  obtain ⟨hrender, hanswer⟩ := Prod.mk.inj hanswer
  obtain ⟨hok, hplain⟩ := Prod.mk.inj hanswer
  have hfields : ∀ c ∈ q.leafComparisons, c.field.IsPlain := fun c hc =>
    of_decide_eq_true (List.all_eq_true.mp hplain c hc)
  cases hagain : parse q.render with
  | error e =>
      rw [hagain] at hok
      cases hok
  | ok q' => exact ⟨q, q', hq, hrender, hagain, eq_of_parse_render hq hfields hagain⟩

/-- A backslash in front of a sign makes it the first character of a field.  The name is written
without the backslash, and so the text means the negation of a comparison of another field. -/
theorem parse_render_negates :
    ∃ q q', parse "\\-a:1" = .ok q ∧ q.render = "-a:1" ∧
      parse q.render = .ok q' ∧ q'.render = "NOT (a:1)" ∧ q' ≠ q := by
  have hresult : (parse "\\-a:1").toOption.map (fun q =>
      (q.render, (parse q.render).toOption.map render)) = some ("-a:1", some "NOT (a:1)") := by
    decide +kernel
  obtain ⟨q, hq, hanswer⟩ := exists_ok_of_toOption_map hresult
  obtain ⟨hrender, hagain⟩ := Prod.mk.inj hanswer
  obtain ⟨q', hq', hrender'⟩ := exists_ok_of_toOption_map hagain
  refine ⟨q, q', hq, hrender, hq', hrender', ?_⟩
  rintro rfl
  rw [hrender] at hrender'
  exact absurd hrender' (by decide)

end Query

end QueryFilter
