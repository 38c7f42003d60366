import QueryFilter.Proofs.Sql.Failures

/-!
# What the settings of a translation change

The settings of a translator decide how a condition is spelled.  Whether names are quoted and
whether lower-case forms are compared makes no difference to what is bound, or to which queries have
no condition and why.  The database makes one difference to what is bound, apart from regular
expressions, which only one of the two has: patterns that regard case are bound in the pattern
language of the database (`Translator.settings_only_respell`).

## Strategy

* What a condition binds is read off the operator and the value.  Each parameter has a slot, and
  only the slot of a pattern is filled in differently for the two databases (`values_of_piecesAt`).
* Two translators that go equally deep fail alike on a query if they fail alike on its comparisons
  (`piecesAt_failAlike`), and a comparison fails for its name, its operator and its value only
  (`condition_failAlike`).
-/

namespace QueryFilter

namespace Sql

/-! ## Slots -/

/-- What a placeholder stands for: a value, or a pattern that is written for the database. -/
inductive Slot where
  | value (v : Value)
  | pattern (p : String)

/-- The parameter of a slot. -/
def Slot.fill (d : Dialect) : Slot → Value
  | value v => v
  | pattern p =>
    match d with
    | .postgres => .text (String.ofList (Pattern.toLike p.toList))
    | .sqlite => .text (String.ofList (Pattern.toGlob p.toList))

/-- The slots of a condition with an operator and a value. -/
def slots (operator : Operator) (value : Value) : List Slot :=
  match operator, value with
  | .eq, .null | .ne, .null => []
  | .like, .text p => [.pattern p]
  | .ilike, .text p => [.value (.text (String.ofList (Pattern.toLike p.toList)))]
  | _, v => v.parts.map .value

theorem map_fill_value (d : Dialect) (vs : List Value) :
    (vs.map Slot.value).map (Slot.fill d) = vs := by
  rw [List.map_map]
  exact List.map_id vs

/-- A comparison with a scalar has one slot. -/
theorem slots_of_sign {operator : Operator} {sign : String} {value : Value}
    (hsign : comparisonSign? operator = some sign) (hscalar : value.isScalar && !value.isNull) :
    slots operator value = [.value value] := by
  cases value with
  | null | list | range => cases hscalar
  | bool | int | float | text => cases operator <;> first | rfl | cases hsign

/-- Where case is disregarded a text is compared by its sign. -/
theorem sign_of_foldsCase {c : Comparison} (h : c.foldsCase) :
    (∃ sign, comparisonSign? c.operator = some sign) ∧
      (c.value.isScalar && !c.value.isNull) = true := by
  obtain ⟨hequality, s, hvalue⟩ := exists_text_of_foldsCase h
  rw [hvalue]
  refine ⟨?_, rfl⟩
  revert hequality
  cases c.operator <;> simp [Operator.isEquality, comparisonSign?]

end Sql

/-- The slots of a tree from left to right. -/
def Query.slots : Query → List Sql.Slot
  | comparison c => Sql.slots c.operator c.value
  | raw r => r.params.map .value
  | unary _ q => q.slots
  | binary _ l r => l.slots ++ r.slots

/-- Only a pattern that regards case has a slot of its own. -/
theorem Query.exists_like_of_mem_slots {q : Query} {p : String} (h : .pattern p ∈ q.slots) :
    ∃ c ∈ q.leafComparisons, c.operator = .like ∧ c.value = .text p := by
  have hvalues : ∀ vs : List Value, Sql.Slot.pattern p ∉ vs.map Sql.Slot.value := by simp
  induction q with
  | comparison c =>
      refine ⟨c, List.mem_singleton_self c, ?_⟩
      unfold slots Sql.slots at h
      split at h
      next => cases h
      next => cases h
      next hoperator hvalue =>
        cases List.mem_singleton.mp h
        exact ⟨hoperator, hvalue⟩
      next => cases List.mem_singleton.mp h
      next => exact absurd h (hvalues _)
  | raw r => exact absurd h (hvalues _)
  | unary op q ih => exact ih h
  | binary op l r ihl ihr =>
      rcases List.mem_append.mp h with h | h
      · obtain ⟨c, hc, hlike⟩ := ihl h
        exact ⟨c, List.mem_append_left _ hc, hlike⟩
      · obtain ⟨c, hc, hlike⟩ := ihr h
        exact ⟨c, List.mem_append_right _ hc, hlike⟩

namespace Sql

/-! ## What is bound -/

theorem values_of_rawCondition {r : RawCondition} {pieces : List Piece}
    (h : rawCondition r = .ok pieces) : Piece.values pieces = r.params := by
  have hraw := map_behind_rawCondition .postgres 0 r
  rw [h, rawAt] at hraw
  split at hraw
  · cases hraw
  · split at hraw
    · exact congrArg Fragment.params (Except.ok.inj hraw)
    · cases hraw

namespace Translator

variable {t t' : Translator}

theorem values_of_patternCondition {field : String} {operator : Operator} {pattern : String}
    (hoperator : operator = .like ∨ operator = .ilike) {pieces : List Piece}
    (h : t.patternCondition field operator pattern = .ok pieces) :
    Piece.values pieces = (slots operator (.text pattern)).map (Slot.fill t.dialect) := by
  obtain ⟨_, -, h⟩ := bind_eq_ok.mp h
  cases hdialect : t.dialect <;> rcases hoperator with rfl | rfl <;>
  · rw [hdialect] at h
    rw [← Except.ok.inj h]
    rfl

/-- The values of a condition fill its slots. -/
theorem values_of_condition {field : String} {operator : Operator} {value : Value}
    {pieces : List Piece} (h : t.condition field operator value = .ok pieces) :
    Piece.values pieces = (slots operator value).map (Slot.fill t.dialect) := by
  unfold condition at h
  split at h
  case h_1 | h_2 =>
    cases h
    rfl
  case h_3 | h_4 | h_5 | h_6 => exact (values_of_membership h).1.trans (map_fill_value _ _).symm
  case h_7 | h_8 => exact (values_of_inRange h).1.trans (map_fill_value _ _).symm
  case h_9 => cases h
  case h_10 => exact values_of_patternCondition (.inl rfl) h
  case h_11 => exact values_of_patternCondition (.inr rfl) h
  case h_12 =>
    split at h
    · cases h
    · exact (values_of_onSide h).1
  case h_13 =>
    -- only a comparison with a scalar is left
    split at h
    next sign hsign =>
      split at h
      next hscalar =>
        rw [(values_of_onSide h).1, slots_of_sign hsign hscalar]
        rfl
      · cases h
    · cases h

theorem values_of_comparison {c : Comparison} {pieces : List Piece}
    (h : t.comparison c = .ok pieces) :
    Piece.values pieces = (slots c.operator c.value).map (Slot.fill t.dialect) := by
  obtain ⟨field, -, h⟩ := bind_eq_ok.mp h
  split at h
  next hfolds =>
    obtain ⟨⟨sign, hsign⟩, hscalar⟩ := sign_of_foldsCase (Bool.and_eq_true_iff.mp hfolds).2
    obtain ⟨piece, hbind, hpieces⟩ := bind_eq_ok.mp h
    rw [← Except.ok.inj hpieces, eq_value_of_bind hbind, slots_of_sign hsign hscalar]
    rfl
  next => exact values_of_condition h

/-- The values of a tree fill its slots. -/
theorem values_of_piecesAt {q : Query} {ancestors : Nat} {pieces : List Piece}
    (h : t.piecesAt ancestors q = .ok pieces) :
    Piece.values pieces = q.slots.map (Slot.fill t.dialect) := by
  induction q generalizing ancestors pieces with
  | comparison c => exact values_of_comparison (t.piecesAt_comparison_eq_ok.mp h).2
  | raw r =>
      rw [piecesAt] at h
      split at h
      · cases h
      · exact (values_of_rawCondition h).trans (map_fill_value _ _).symm
  | unary op q ih =>
      obtain ⟨-, -, inner, hinner, rfl⟩ := t.piecesAt_unary_eq_ok.mp h
      simpa [Query.slots] using ih hinner
  | binary op l r ihl ihr =>
      obtain ⟨-, -, left, right, hleft, hright, rfl⟩ := t.piecesAt_binary_eq_ok.mp h
      simp [Query.slots, ihl hleft, ihr hright]

/-- The parameters of a query fill its slots. -/
theorem params_of_translate {q : Query} {x : Fragment} (h : t.translate q = .ok x) :
    x.params = q.slots.map (Slot.fill t.dialect) := by
  obtain ⟨pieces, hpieces, rfl⟩ := map_eq_ok.mp h
  rw [pieces_eq] at hpieces
  exact values_of_piecesAt hpieces

end Translator

/-! ## What fails -/

theorem onSide_failAlike (field field' sign sign' : String) (bound : Value) :
    FailAlike (onSide field sign bound) (onSide field' sign' bound) :=
  (FailAlike.refl (bind bound)).bind fun _ _ _ _ => .of_ok rfl rfl

theorem membership_failAlike (field field' keyword whenEmpty : String) (operator : Operator)
    (items : List Value) :
    FailAlike (membership field keyword whenEmpty operator items)
      (membership field' keyword whenEmpty operator items) := by
  unfold membership
  split
  · exact .of_error rfl rfl
  · split
    · exact .of_ok rfl rfl
    · exact (FailAlike.refl (items.mapM bind)).bind fun _ _ _ _ => .of_ok rfl rfl

theorem inRange_failAlike (field field' : String) (operator : Operator) (low high : Option Value)
    (closedLow closedHigh : Bool) :
    FailAlike (inRange field operator low high closedLow closedHigh)
      (inRange field' operator low high closedLow closedHigh) := by
  unfold inRange
  split
  · exact .of_error rfl rfl
  · dsimp only
    split
    · exact .of_ok rfl rfl
    · exact onSide_failAlike _ _ _ _ _
    · exact onSide_failAlike _ _ _ _ _
    · refine (onSide_failAlike _ _ _ _ _).bind fun _ _ _ _ => ?_
      exact (onSide_failAlike _ _ _ _ _).bind fun _ _ _ _ => .of_ok rfl rfl

namespace Translator

variable {t t' : Translator}

theorem condition_of_sign {operator : Operator} {sign : String} {value : Value}
    (hsign : comparisonSign? operator = some sign) (hscalar : value.isScalar && !value.isNull)
    (field : String) : t.condition field operator value = onSide field sign value := by
  cases value with
  | null | list | range => cases hscalar
  | bool | int | float | text =>
      cases operator <;> cases hsign <;> rfl

/-- A condition fails for its operator and its value.  The database matters for regular expressions
only. -/
theorem condition_failAlike {operator : Operator}
    (hdialect : operator = .regex → t.dialect = t'.dialect) (field field' : String) (value : Value) :
    FailAlike (t.condition field operator value) (t'.condition field' operator value) := by
  unfold condition
  split
  case h_1 | h_2 => exact .of_ok rfl rfl
  case h_3 | h_4 | h_5 | h_6 => exact membership_failAlike _ _ _ _ _ _
  case h_7 | h_8 => exact inRange_failAlike _ _ _ _ _ _ _
  case h_9 => exact .of_error rfl rfl
  case h_10 | h_11 =>
    intro e
    rw [patternCondition_eq_error_iff, patternCondition_eq_error_iff]
  case h_12 =>
    rw [hdialect rfl]
    split
    · exact .refl _
    · exact onSide_failAlike _ _ _ _ _
  case h_13 =>
    split
    · split
      · exact onSide_failAlike _ _ _ _ _
      · exact .of_error rfl rfl
    · exact .of_error rfl rfl

theorem comparison_failAlike {c : Comparison}
    (hdialect : c.operator = .regex → t.dialect = t'.dialect) :
    FailAlike (t.comparison c) (t'.comparison c) := by
  have hname : FailAlike (t.fieldText c.field) (t'.fieldText c.field) :=
    (FailAlike.refl (checkIdentifier c.field.text)).bind fun _ _ _ _ => .of_ok rfl rfl
  refine hname.bind fun field field' _ _ => ?_
  by_cases hfolds : c.foldsCase
  · obtain ⟨⟨sign, hsign⟩, hscalar⟩ := sign_of_foldsCase hfolds
    rw [condition_of_sign hsign hscalar, condition_of_sign hsign hscalar]
    -- in lower case or not, the value is all that could fail
    split <;> split <;> exact (FailAlike.refl (bind c.value)).bind fun _ _ _ _ => .of_ok rfl rfl
  · rw [if_neg (by simp [hfolds]), if_neg (by simp [hfolds])]
    exact condition_failAlike hdialect field field' c.value

/-- Translators that go equally deep fail alike on a tree if they do on its comparisons. -/
theorem piecesAt_failAlike {q : Query} (hdepth : t.maxDepth = t'.maxDepth)
    (hleaf : ∀ c ∈ q.leafComparisons, FailAlike (t.comparison c) (t'.comparison c))
    (ancestors : Nat) : FailAlike (t.piecesAt ancestors q) (t'.piecesAt ancestors q) := by
  induction q generalizing ancestors with
  | comparison c =>
      rw [piecesAt, piecesAt, hdepth]
      split
      · exact .of_error rfl rfl
      · exact hleaf c (List.mem_singleton_self c)
  | raw r =>
      rw [piecesAt, piecesAt, hdepth]
      exact .refl _
  | unary op q ih =>
      rw [piecesAt, piecesAt, hdepth]
      split
      · exact .of_error rfl rfl
      · split
        · exact .of_error rfl rfl
        · exact (ih hleaf _).map _ _
  | binary op l r ihl ihr =>
      rw [piecesAt, piecesAt, hdepth]
      split
      · exact .of_error rfl rfl
      · split
        · exact .of_error rfl rfl
        · have hl := ihl (fun c hc => hleaf c (List.mem_append_left _ hc)) (ancestors + 1)
          have hr := ihr (fun c hc => hleaf c (List.mem_append_right _ hc)) (ancestors + 1)
          exact hl.bind fun _ _ _ _ => hr.map _ _

theorem translate_failAlike {q : Query} (hdepth : t.maxDepth = t'.maxDepth)
    (hdialect : ∀ c ∈ q.leafComparisons, c.operator = .regex → t.dialect = t'.dialect) :
    FailAlike (t.translate q) (t'.translate q) := by
  rw [translate, translate, pieces_eq, pieces_eq]
  exact (piecesAt_failAlike hdepth (fun c hc => comparison_failAlike (hdialect c hc)) 0).map _ _

/-! ## Settings -/

variable (t)

/-- **Settings change the spelling only.**  Whether names are quoted and whether lower-case forms
are compared, a query has the same parameters or the same error.  If it has no regular expressions,
it also has a condition for both databases or the same error for both, and the parameters differ
only in the slots of patterns that regard case, which are filled with `LIKE` patterns for one
database and with `GLOB` patterns for the other. -/
theorem settings_only_respell (q : Query) :
    (∀ quoteIdentifiers foldCase : Bool,
      ((Translator.mk t.dialect quoteIdentifiers foldCase t.maxDepth).translate q).map
        Fragment.params = (t.translate q).map Fragment.params) ∧
    ((∀ c ∈ q.leafComparisons, c.operator ≠ .regex) →
      (∃ e, ({ t with dialect := .postgres }).translate q = .error e ∧
        ({ t with dialect := .sqlite }).translate q = .error e) ∨
      ∃ x y, ({ t with dialect := .postgres }).translate q = .ok x ∧
        ({ t with dialect := .sqlite }).translate q = .ok y ∧
        x.params = q.slots.map (Slot.fill .postgres) ∧ y.params = q.slots.map (Slot.fill .sqlite)) ∧
    ∀ p, .pattern p ∈ q.slots → ∃ c ∈ q.leafComparisons, c.operator = .like ∧ c.value = .text p := by
  refine ⟨fun quoteIdentifiers foldCase => ?_, fun hregex => ?_,
    fun _ h => Query.exists_like_of_mem_slots h⟩
  · have halike : FailAlike
        ((Translator.mk t.dialect quoteIdentifiers foldCase t.maxDepth).translate q)
        (t.translate q) := translate_failAlike rfl fun _ _ _ => rfl
    rcases halike.both with ⟨e, hx, hy⟩ | ⟨x, y, hx, hy⟩
    · rw [hx, hy]
    · rw [hx, hy, Except.map, Except.map, params_of_translate hx, params_of_translate hy]
  · have halike : FailAlike (({ t with dialect := .postgres }).translate q)
        (({ t with dialect := .sqlite }).translate q) :=
      translate_failAlike rfl fun c hc hoperator => absurd hoperator (hregex c hc)
    refine halike.both.imp_right ?_
    rintro ⟨x, y, hx, hy⟩
    exact ⟨x, y, hx, hy, params_of_translate hx, params_of_translate hy⟩

/-- A pattern with a character of each language is bound in two ways, next to a word that is
compared in lower case or as it is. -/
theorem settings_only_respell_pattern :
    let t : Translator := { dialect := .sqlite }
    let q : Query := .and (.comparison ⟨⟨"tag", by decide⟩, .like, .text "[%*", false⟩)
      (.not (.comparison ⟨⟨"name", by decide⟩, .ne, .text "Bob", true⟩))
    (∀ c ∈ q.leafComparisons, c.operator ≠ .regex) ∧
    (∃ x y, ({ t with dialect := .postgres }).translate q = .ok x ∧ t.translate q = .ok y ∧
      x.params = [.text "[\\%%", .text "Bob"] ∧ y.params = [.text "[[]%*", .text "Bob"]) ∧
    (({ t with quoteIdentifiers := true, foldCase := false }).translate q).map Fragment.params =
      .ok [.text "[[]%*", .text "Bob"] := by
  intro t q
  have hregex : ∀ c ∈ q.leafComparisons, c.operator ≠ .regex := by
    intro c hc
    rcases List.mem_cons.mp hc with rfl | hc
    · decide
    · rw [List.mem_singleton.mp hc]
      decide
  have hsqlite : ∃ y, t.translate q = .ok y := by
    rw [translate, pieces_eq]
    exact ⟨_, by with_unfolding_all rfl⟩
  obtain ⟨z, hz⟩ := hsqlite
  have hsettings := t.settings_only_respell q
  rcases hsettings.2.1 hregex with ⟨e, -, hfails⟩ | ⟨x, y, hx, hy, hpostgres, hsqlite⟩
  · cases hz.symm.trans hfails
  · refine ⟨hregex, ⟨x, y, hx, hy, hpostgres, hsqlite⟩, ?_⟩
    have hrespelled := hsettings.1 true false
    have ht : t.translate q = .ok y := hy
    rw [ht, Except.map, hsqlite] at hrespelled
    exact hrespelled

end Translator

end Sql

end QueryFilter
