import QueryFilter.Proofs.Query.WellFormed
import QueryFilter.Proofs.Sql.Parameters

/-!
# How the translation of a query fails

A well-formed comparison fails for one of five reasons (`Translator.Declines`): its field is not an
identifier, its pattern is not safe, the database has no regular expressions, null is ordered, or
null is in a list.  A tree fails because it is nested too deeply, because one of its comparisons
fails, or, if it is not well formed, at a node that no reader makes
(`Translator.blames_of_piecesAt`).

Trees that are built by hand can be malformed in many ways, and the check and the translation have
errors for them.  None of these errors comes of a query that was read (`Query.IsRead.wellFormed`).
-/

namespace QueryFilter

namespace Sql

/-! ## Parts of a condition -/

/-- A finite scalar can be bound. -/
theorem isBindable_of_isFiniteScalar {v : Value} (hv : v.IsFiniteScalar) : isBindable v := by
  cases v with
  | float x => exact hv
  | list | range => exact hv.elim
  | null | bool | int | text => rfl

theorem bind_ne_error {v : Value} (hv : isBindable v) (e : TranslateError) : bind v ≠ .error e := by
  rw [bind_eq, if_pos hv]
  exact nofun

theorem onSide_ne_error {v : Value} (hv : isBindable v) (field sign : String) (e : TranslateError) :
    onSide field sign v ≠ .error e := by
  intro h
  rcases bind_eq_error.mp h with h | ⟨_, -, h⟩
  · exact bind_ne_error hv e h
  · cases h

theorem elementMismatch?_eq_some {v : Value} {found : Mismatch} (hv : v.IsFiniteScalar)
    (h : elementMismatch? v = some found) : v = .null ∧ found = .nullElement := by
  cases v with
  | null => exact ⟨rfl, (Option.some.inj h).symm⟩
  | list | range => exact hv.elim
  | bool | int | float | text => cases h

/-- A list of finite scalars fails only if null is one of them. -/
theorem error_of_membership {field keyword whenEmpty : String} {operator : Operator}
    {items : List Value} (hitems : ∀ v ∈ items, v.IsFiniteScalar) {e : TranslateError}
    (h : membership field keyword whenEmpty operator items = .error e) :
    .null ∈ items ∧ e = .invalidValue operator .nullElement := by
  unfold membership at h
  split at h
  next found hfound =>
    obtain ⟨v, hv, hmismatch⟩ := List.exists_of_findSome?_eq_some hfound
    obtain ⟨rfl, rfl⟩ := elementMismatch?_eq_some (hitems v hv) hmismatch
    exact ⟨hv, (Except.error.inj h).symm⟩
  next =>
    have hall : items.all isBindable :=
      List.all_eq_true.mpr fun v hv => isBindable_of_isFiniteScalar (hitems v hv)
    split at h
    · cases h
    · rw [mapM_bind, if_pos hall] at h
      cases h

/-- Bounds that are not null are taken. -/
theorem findSome?_boundMismatch?_of_isFiniteBound {low high : Option Value}
    (hlow : IsFiniteBound low) (hhigh : IsFiniteBound high) :
    (Value.bounds low high).findSome? boundMismatch? = none := by
  have hbound : ∀ {v : Value}, v.IsFiniteScalar ∧ v ≠ .null → boundMismatch? v = none := by
    rintro v ⟨hv, hnull⟩
    cases v with
    | null => exact absurd rfl hnull
    | list | range => exact hv.elim
    | bool | int | float | text => rfl
  rw [List.findSome?_eq_none_iff]
  intro v hv
  rcases List.mem_append.mp hv with hv | hv
  · exact hbound (hlow v (Option.mem_toList.mp hv))
  · exact hbound (hhigh v (Option.mem_toList.mp hv))

/-- A range of bounds that are not null never fails. -/
theorem inRange_ne_error {low high : Option Value} (hlow : IsFiniteBound low)
    (hhigh : IsFiniteBound high) (field : String) (operator : Operator)
    (closedLow closedHigh : Bool) (e : TranslateError) :
    inRange field operator low high closedLow closedHigh ≠ .error e := by
  have hside : ∀ {bound : Value} {sign : String} {e : TranslateError},
      bound.IsFiniteScalar → onSide field sign bound ≠ .error e :=
    fun hbound => onSide_ne_error (isBindable_of_isFiniteScalar hbound) _ _ _
  intro h
  unfold inRange at h
  rw [findSome?_boundMismatch?_of_isFiniteBound hlow hhigh] at h
  cases low with
  | none =>
      cases high with
      | none => cases h
      | some high => exact hside (hhigh high rfl).1 h
  | some low =>
      cases high with
      | none => exact hside (hlow low rfl).1 h
      | some high =>
          rcases bind_eq_error.mp h with h | ⟨above, -, h⟩
          · exact hside (hlow low rfl).1 h
          · rcases bind_eq_error.mp h with h | ⟨below, -, h⟩
            · exact hside (hhigh high rfl).1 h
            · cases h

namespace Translator

variable (t : Translator)

/-- Why the condition of a well-formed comparison may be declined. -/
inductive Declines (c : Comparison) : TranslateError → Prop
  | field (fault : IdentifierFault) : Declines c (.invalidIdentifier c.field.text fault)
  | pattern (hoperator : c.operator ∈ [.like, .ilike]) (fault : Pattern.Fault) :
    Declines c (.unsafePattern fault)
  | regex (hoperator : c.operator = .regex) (hdialect : t.dialect = .sqlite) :
    Declines c (.unsupportedOperator .regex .sqlite)
  | ordersNull (hoperator : c.operator ∈ [.gt, .gte, .lt, .lte]) (hvalue : c.value = .null) :
    Declines c (.invalidValue c.operator .null)
  | listsNull (hoperator : c.operator ∈ [.oneOf, .noneOf]) {items : List Value}
    (hvalue : c.value = .list items) (hnull : .null ∈ items) :
    Declines c (.invalidValue c.operator .nullElement)

theorem error_of_fieldText {field : FieldPath} {e : TranslateError}
    (h : t.fieldText field = .error e) : ∃ fault, e = .invalidIdentifier field.text fault := by
  rcases bind_eq_error.mp h with h | ⟨_, -, h⟩
  · unfold checkIdentifier at h
    split at h
    next fault _ => exact ⟨fault, (Except.error.inj h).symm⟩
    · cases h
  · cases h

/-- A pattern fails if it is not safe: what is made of it is a text, and can be bound. -/
theorem patternCondition_eq_error_iff {field : String} {operator : Operator} {pattern : String}
    {e : TranslateError} :
    t.patternCondition field operator pattern = .error e ↔ checkPattern pattern = .error e := by
  unfold patternCondition
  rw [bind_eq_error]
  constructor
  · rintro (hcheck | ⟨_, -, h⟩)
    · exact hcheck
    · dsimp only at h
      split at h <;> cases h
  · exact .inl

theorem error_of_patternCondition {field : String} {operator : Operator} {pattern : String}
    {e : TranslateError} (h : t.patternCondition field operator pattern = .error e) :
    ∃ fault, Pattern.fault? pattern.toList = some fault ∧ e = .unsafePattern fault := by
  rw [patternCondition_eq_error_iff] at h
  unfold checkPattern at h
  split at h
  next fault hfault => exact ⟨fault, hfault, (Except.error.inj h).symm⟩
  · cases h

/-- A scalar fails only where null is ordered. -/
theorem error_of_scalar {field : String} {operator : Operator} {v : Value}
    (hoperator : operator ∈ scalarOperators) (hv : v.IsFiniteScalar) {e : TranslateError}
    (h : t.condition field operator v = .error e) :
    operator ∈ [.gt, .gte, .lt, .lte] ∧ v = .null ∧ e = .invalidValue operator .null := by
  have hbound : ∀ sign, onSide field sign v ≠ .error e :=
    fun sign => onSide_ne_error (isBindable_of_isFiniteScalar hv) field sign e
  simp only [scalarOperators, List.mem_cons, List.not_mem_nil, or_false] at hoperator
  cases v with
  | null =>
      rcases hoperator with rfl | rfl | rfl | rfl | rfl | rfl
      · cases h
      · cases h
      all_goals exact ⟨by decide, rfl, (Except.error.inj h).symm⟩
  | list | range => exact hv.elim
  | bool | int | float | text =>
      rcases hoperator with rfl | rfl | rfl | rfl | rfl | rfl <;> exact absurd h (hbound _)

/-- A text fails as a pattern that is not safe, or as a regular expression where there are none. -/
theorem error_of_text {field : String} {operator : Operator} {s : String}
    (hoperator : operator ∈ [.like, .ilike, .regex]) {e : TranslateError}
    (h : t.condition field operator (.text s) = .error e) :
    (operator ∈ [.like, .ilike] ∧ ∃ fault, e = .unsafePattern fault) ∨
      operator = .regex ∧ t.dialect = .sqlite ∧ e = .unsupportedOperator .regex .sqlite := by
  simp only [List.mem_cons, List.not_mem_nil, or_false] at hoperator
  rcases hoperator with rfl | rfl | rfl
  · rw [condition] at h
    exact .inl ⟨by decide, (t.error_of_patternCondition h).imp fun _ => And.right⟩
  · rw [condition] at h
    exact .inl ⟨by decide, (t.error_of_patternCondition h).imp fun _ => And.right⟩
  · rw [condition] at h
    cases hdialect : t.dialect with
    | sqlite =>
        rw [hdialect] at h
        exact .inr ⟨rfl, rfl, (Except.error.inj h).symm⟩
    | postgres =>
        rw [hdialect] at h
        exact absurd h (onSide_ne_error rfl field _ e)

theorem error_of_list {field : String} {operator : Operator} {items : List Value}
    (hoperator : operator ∈ [.oneOf, .noneOf]) (hitems : ∀ v ∈ items, v.IsFiniteScalar)
    {e : TranslateError} (h : t.condition field operator (.list items) = .error e) :
    .null ∈ items ∧ e = .invalidValue operator .nullElement := by
  simp only [List.mem_cons, List.not_mem_nil, or_false] at hoperator
  rcases hoperator with rfl | rfl
  · exact error_of_membership hitems h
  · exact error_of_membership hitems h

theorem declines_of_condition {c : Comparison} (htakes : c.operator.Takes c.value) {field : String}
    {e : TranslateError} (h : t.condition field c.operator c.value = .error e) :
    t.Declines c e := by
  obtain ⟨path, operator, value, ignoreCase⟩ := c
  cases htakes with
  | scalar hoperator hv =>
      obtain ⟨hordered, rfl, rfl⟩ := t.error_of_scalar hoperator hv h
      exact .ordersNull hordered rfl
  | text hoperator s =>
      rcases t.error_of_text hoperator h with ⟨hpattern, fault, rfl⟩ | ⟨hregex, hdialect, rfl⟩
      · exact .pattern hpattern fault
      · exact .regex hregex hdialect
  | list hoperator hitems =>
      obtain ⟨hnull, rfl⟩ := t.error_of_list hoperator hitems h
      exact .listsNull hoperator rfl hnull
  | range hlow hhigh closedLow closedHigh =>
      exact absurd h (inRange_ne_error hlow hhigh field _ closedLow closedHigh e)

/-- A well-formed comparison fails for no other reason. -/
theorem declines_of_comparison {c : Comparison} (hc : c.IsWellFormed) {e : TranslateError}
    (h : t.comparison c = .error e) : t.Declines c e := by
  rcases bind_eq_error.mp h with h | ⟨field, -, h⟩
  · obtain ⟨fault, rfl⟩ := t.error_of_fieldText h
    exact .field fault
  · split at h
    next hfolds =>
      -- a text can be bound
      obtain ⟨-, s, hvalue⟩ := exists_text_of_foldsCase (Bool.and_eq_true_iff.mp hfolds).2
      rw [hvalue] at h
      cases h
    next => exact t.declines_of_condition hc.takes h

/-! ## Trees -/

/-- Why a tree is declined, be it well formed or not: a leaf is too deep, a comparison fails, or the
tree has a node that no reader makes. -/
inductive Blames (ancestors : Nat) (q : Query) (e : TranslateError) : Prop
  | depth {n : Nat} (hn : n ∈ q.leafDepths ancestors) (hdeep : t.maxDepth < n)
    (herror : e = .nestingTooDeep t.maxDepth)
  | comparison {c : Comparison} (hc : c ∈ q.leafComparisons) (hfails : t.comparison c = .error e)
  | raw {r : RawCondition} (hq : ¬ q.IsTreeOf fun _ => True) (hfails : rawCondition r = .error e)
  | connective (hq : ¬ q.IsTreeOf fun _ => True) (herror : e ∈ [.unaryJunction, .binaryNot])

variable {t}

/-- A tree that begins too deep has a leaf that is too deep. -/
theorem Blames.of_deep {ancestors : Nat} (q : Query) (hdeep : t.maxDepth < ancestors) :
    t.Blames ancestors q (.nestingTooDeep t.maxDepth) := by
  obtain ⟨n, hn, hle⟩ := q.exists_mem_leafDepths ancestors
  exact .depth hn (Nat.lt_of_lt_of_le hdeep hle) rfl

/-- What is to blame for the failure of an operand is to blame for that of the node. -/
theorem Blames.of_operand {ancestors : Nat} {inner q : Query} {e : TranslateError}
    (hdepths : inner.leafDepths (ancestors + 1) ⊆ q.leafDepths ancestors)
    (hcomparisons : inner.leafComparisons ⊆ q.leafComparisons)
    (htree : (q.IsTreeOf fun _ => True) → inner.IsTreeOf fun _ => True)
    (h : t.Blames (ancestors + 1) inner e) : t.Blames ancestors q e := by
  cases h with
  | depth hn hdeep herror => exact .depth (hdepths hn) hdeep herror
  | comparison hc hfails => exact .comparison (hcomparisons hc) hfails
  | raw hinner hfails => exact .raw (mt htree hinner) hfails
  | connective hinner herror => exact .connective (mt htree hinner) herror

theorem blames_of_piecesAt {q : Query} {ancestors : Nat} {e : TranslateError}
    (h : t.piecesAt ancestors q = .error e) : t.Blames ancestors q e := by
  -- the depth of a node is checked first, whatever node it is
  have hdeep : ∀ {ancestors : Nat} {q : Query}, t.maxDepth < ancestors →
      (Except.error (.nestingTooDeep t.maxDepth) : Except TranslateError (List Piece)) = .error e →
      t.Blames ancestors q e :=
    fun hlt herror => Except.error.inj herror ▸ .of_deep _ hlt
  induction q generalizing ancestors with
  | comparison c =>
      rw [piecesAt] at h
      split at h
      next hlt => exact hdeep hlt h
      next => exact .comparison (List.mem_singleton_self c) h
  | raw r =>
      rw [piecesAt] at h
      split at h
      next hlt => exact hdeep hlt h
      next => exact .raw id h
  | unary op q ih =>
      rw [piecesAt] at h
      split at h
      next hlt => exact hdeep hlt h
      next =>
        split at h
        next hop =>
          exact .connective (fun hq => hop hq.1) (Except.error.inj h ▸ List.mem_cons_self)
        next =>
          exact (ih (map_eq_error.mp h)).of_operand (List.Subset.refl _) (List.Subset.refl _)
            And.right
  | binary op l r ihl ihr =>
      rw [piecesAt] at h
      split at h
      next hlt => exact hdeep hlt h
      next =>
        split at h
        next hop =>
          refine .connective (fun hq => hq.1 hop) ?_
          exact Except.error.inj h ▸ List.mem_cons_of_mem _ List.mem_cons_self
        next =>
          rcases bind_eq_error.mp h with h | ⟨left, -, h⟩
          · exact (ihl h).of_operand (List.subset_append_left _ _) (List.subset_append_left _ _)
              fun hq => hq.2.1
          · exact (ihr (map_eq_error.mp h)).of_operand (List.subset_append_right _ _)
              (List.subset_append_right _ _) fun hq => hq.2.2

theorem blames_of_translate {q : Query} {e : TranslateError}
    (h : t.translate q = .error e ∨ t.translateInline q = .error e) : t.Blames 0 q e := by
  have hpieces : t.pieces q = .error e := h.elim map_eq_error.mp map_eq_error.mp
  rw [pieces_eq] at hpieces
  exact blames_of_piecesAt hpieces

variable (t)

/-- A well-formed tree fails because it is too deep, or because one of its comparisons fails. -/
theorem declines_of_translate {q : Query} (hq : q.IsTreeOf Comparison.IsWellFormed)
    {e : TranslateError} (h : t.translate q = .error e ∨ t.translateInline q = .error e) :
    e = .nestingTooDeep t.maxDepth ∨ ∃ c ∈ q.leafComparisons, t.Declines c e := by
  have htree : q.IsTreeOf fun _ => True := hq.imp fun _ _ _ => trivial
  cases blames_of_translate h with
  | depth hn hdeep herror => exact .inl herror
  | comparison hc hfails => exact .inr ⟨_, hc, t.declines_of_comparison (hq.of_mem _ hc) hfails⟩
  | raw hmalformed | connective hmalformed => exact absurd htree hmalformed

end Translator

end Sql

/-! ## Queries that are read -/

/-- **What is read is well formed, and the errors for malformed trees never come of it.**  The check
never finds a list or a range in place of a scalar.  The translation never finds a connective with
the wrong operands, a raw condition or a number that is not finite; it lacks an operator only for a
regular expression where there are none, and does not take a value only where null is ordered or is
in a list. -/
theorem Query.IsRead.wellFormed {q : Query} (hq : q.IsRead) :
    q.IsTreeOf Comparison.IsWellFormed ∧
      (∀ (p : Policy) (schema : Option Schema), p.check schema q ≠ .error .notScalar) ∧
      ∀ (t : Sql.Translator) (e : Sql.TranslateError),
        t.translate q = .error e ∨ t.translateInline q = .error e →
          e ∉ [.unaryJunction, .binaryNot, .nonFiniteNumber] ∧
          (∀ markers params, e ≠ .rawParameterMismatch markers params) ∧
          (∀ operator dialect, e = .unsupportedOperator operator dialect →
            dialect = .sqlite ∧ t.dialect = .sqlite ∧ operator = .regex ∧
              ∃ c ∈ q.leafComparisons, c.operator = operator) ∧
          ∀ operator found, e = .invalidValue operator found →
            ∃ c ∈ q.leafComparisons, c.operator = operator ∧
              (operator ∈ [.gt, .gte, .lt, .lte] ∧ c.value = .null ∨
                operator ∈ [.oneOf, .noneOf] ∧ ∃ items, c.value = .list items ∧ .null ∈ items) := by
  have htree := hq.isTreeOf
  refine ⟨htree, htree.check_ne_notScalar, fun t e h => ?_⟩
  rcases t.declines_of_translate htree h with rfl | ⟨c, hc, hdeclines⟩
  · exact ⟨by simp, nofun, nofun, nofun⟩
  · cases hdeclines with
    | field fault => exact ⟨by simp, nofun, nofun, nofun⟩
    | pattern hoperator fault => exact ⟨by simp, nofun, nofun, nofun⟩
    | regex hoperator hdialect =>
        refine ⟨by simp, nofun, ?_, nofun⟩
        rintro _ _ ⟨⟩
        exact ⟨rfl, hdialect, rfl, c, hc, hoperator⟩
    | ordersNull hoperator hvalue =>
        refine ⟨by simp, nofun, nofun, ?_⟩
        rintro _ _ ⟨⟩
        exact ⟨c, hc, rfl, .inl ⟨hoperator, hvalue⟩⟩
    | listsNull hoperator hvalue hnull =>
        refine ⟨by simp, nofun, nofun, ?_⟩
        rintro _ _ ⟨⟩
        exact ⟨c, hc, rfl, .inr ⟨hoperator, _, hvalue, hnull⟩⟩

/-- A value is refused next to a range and a pattern, and the refusal tells that null is in a
list. -/
theorem Query.IsRead.wellFormed_null :
    ∃ q, Query.parse "a:[1 TO *\x7d b:x* -c:!=(1 OR null)" = .ok q ∧
      q.IsTreeOf Comparison.IsWellFormed ∧ Policy.check {} none q ≠ .error .notScalar ∧
      ∃ c ∈ q.leafComparisons, c.operator = .noneOf ∧ ∃ items, c.value = .list items ∧
        .null ∈ items := by
  have hresult : (Query.parse "a:[1 TO *\x7d b:x* -c:!=(1 OR null)").toOption.map (fun q =>
      match Sql.Translator.translate { dialect := .sqlite } q with
      | .error e => some e
      | .ok _ => none) = some (some (.invalidValue .noneOf .nullElement)) := by
    decide +kernel
  obtain ⟨q, hq, hanswer⟩ := exists_ok_of_toOption_map hresult
  have hfails : Sql.Translator.translate { dialect := .sqlite } q =
      .error (.invalidValue .noneOf .nullElement) := by
    split at hanswer
    next herror => rw [herror, Option.some.inj hanswer]
    next => cases hanswer
  obtain ⟨htree, hcheck, herrors⟩ := Query.IsRead.wellFormed (.text hq)
  obtain ⟨-, -, -, hvalue⟩ := herrors _ _ (.inl hfails)
  obtain ⟨c, hc, hoperator, ⟨hordered, -⟩ | ⟨-, hlist⟩⟩ := hvalue _ _ rfl
  · exact absurd hordered (by decide)
  · exact ⟨q, hq, htree, hcheck {} none, c, hc, hoperator, hlist⟩

end QueryFilter
