import QueryFilter.Proofs.Policy.Validation
import QueryFilter.Proofs.Sql.Failures

/-!
# Guardrails of the check and of the translation

The depth of a query and the wildcards of its patterns are bounded twice: by the check, for the
query as it is given, and by the translation, for the query with its wildcards collapsed.  The
translation does not find fault with what the check lets pass, with one exception.  Only the
translation bounds the length of a pattern, so a pattern may still turn out to be too long
(`Translator.guardrails_of_validate`).

## Strategy

* Both stages go by the connectives above a leaf.  The check measures them with an agenda that ends
  at the first deep node (`Query.reachesBelow_root`), the translation with one that writes
  (`Translator.pieces_eq`), and both come to `Query.leafDepths`.  Collapsing leaves the depths as
  they are (`obeys_collapse`).
* Of all that goes into a condition only the pattern guard finds an unsafe pattern, and nothing but
  the walk over the tree looks at the depth (`Translator.fault_of_comparison`).
* A pattern that is collapsed has as many alternations as before and no more wildcards, so it is
  within the bounds that it was within (`obeys_collapse`).
-/

namespace QueryFilter

namespace Sql

/-- The errors for bounds that the check has as well. -/
def TranslateError.IsGuardrail : TranslateError → Prop
  | nestingTooDeep _ | unsafePattern _ => True
  | _ => False

/-! ## Conditions that need no guard -/

theorem not_isGuardrail_of_bind {v : Value} {e : TranslateError} (h : bind v = .error e) :
    ¬ e.IsGuardrail := by
  rw [bind_eq] at h
  split at h
  · cases h
  · cases h
    exact id

theorem not_isGuardrail_of_mapM_bind {items : List Value} {e : TranslateError}
    (h : items.mapM bind = .error e) : ¬ e.IsGuardrail := by
  rw [mapM_bind] at h
  split at h
  · cases h
  · cases h
    exact id

theorem not_isGuardrail_of_onSide {field sign : String} {bound : Value} {e : TranslateError}
    (h : onSide field sign bound = .error e) : ¬ e.IsGuardrail := by
  rcases bind_eq_error.mp h with h | ⟨_, -, h⟩
  · exact not_isGuardrail_of_bind h
  · cases h

theorem not_isGuardrail_of_membership {field keyword whenEmpty : String} {operator : Operator}
    {items : List Value} {e : TranslateError}
    (h : membership field keyword whenEmpty operator items = .error e) : ¬ e.IsGuardrail := by
  unfold membership at h
  split at h
  · cases h
    exact id
  · split at h
    · cases h
    · rcases bind_eq_error.mp h with h | ⟨_, -, h⟩
      · exact not_isGuardrail_of_mapM_bind h
      · cases h

theorem not_isGuardrail_of_inRange {field : String} {operator : Operator} {low high : Option Value}
    {closedLow closedHigh : Bool} {e : TranslateError}
    (h : inRange field operator low high closedLow closedHigh = .error e) : ¬ e.IsGuardrail := by
  unfold inRange at h
  split at h
  · cases h
    exact id
  · dsimp only at h
    split at h
    · cases h
    · exact not_isGuardrail_of_onSide h
    · exact not_isGuardrail_of_onSide h
    · rcases bind_eq_error.mp h with h | ⟨_, -, h⟩
      · exact not_isGuardrail_of_onSide h
      · rcases bind_eq_error.mp h with h | ⟨_, -, h⟩
        · exact not_isGuardrail_of_onSide h
        · cases h

theorem not_isGuardrail_of_rawCondition {r : RawCondition} {e : TranslateError}
    (h : rawCondition r = .error e) : ¬ e.IsGuardrail := by
  unfold rawCondition at h
  dsimp only at h
  split at h
  · cases h
    exact id
  · rcases bind_eq_error.mp h with h | ⟨_, -, h⟩
    · exact not_isGuardrail_of_mapM_bind h
    · cases h

namespace Translator

variable (t : Translator)

/-! ## Comparisons -/

/-- Whatever the value of a comparison is, its condition fails at a guardrail only if it is a
pattern, and then at a fault of the pattern. -/
theorem fault_of_condition {field : String} {operator : Operator} {v : Value} {e : TranslateError}
    (h : t.condition field operator v = .error e) (hguard : e.IsGuardrail) :
    (operator = .like ∨ operator = .ilike) ∧ ∃ s fault, v = .text s ∧
      Pattern.fault? s.toList = some fault ∧ e = .unsafePattern fault := by
  -- the cases are the branches of `condition`, and only those of patterns have a guard
  unfold condition at h
  split at h
  next => cases h
  next => cases h
  next => exact absurd hguard (not_isGuardrail_of_membership h)
  next => exact absurd hguard (not_isGuardrail_of_membership h)
  next => exact absurd hguard (not_isGuardrail_of_membership h)
  next => exact absurd hguard (not_isGuardrail_of_membership h)
  next => exact absurd hguard (not_isGuardrail_of_inRange h)
  next => exact absurd hguard (not_isGuardrail_of_inRange h)
  next =>
    cases h
    exact hguard.elim
  next s =>
    obtain ⟨fault, hfault, he⟩ := t.error_of_patternCondition h
    exact ⟨.inl rfl, s, fault, rfl, hfault, he⟩
  next s =>
    obtain ⟨fault, hfault, he⟩ := t.error_of_patternCondition h
    exact ⟨.inr rfl, s, fault, rfl, hfault, he⟩
  next =>
    split at h
    · cases h
      exact hguard.elim
    · exact absurd hguard (not_isGuardrail_of_onSide h)
  next =>
    split at h
    · split at h
      · exact absurd hguard (not_isGuardrail_of_onSide h)
      · cases h
        exact hguard.elim
    · cases h
      exact hguard.elim

theorem fault_of_comparison {c : Comparison} {e : TranslateError}
    (h : t.comparison c = .error e) (hguard : e.IsGuardrail) :
    (c.operator = .like ∨ c.operator = .ilike) ∧ ∃ s fault, c.value = .text s ∧
      Pattern.fault? s.toList = some fault ∧ e = .unsafePattern fault := by
  rcases bind_eq_error.mp h with h | ⟨field, -, h⟩
  · obtain ⟨fault, rfl⟩ := t.error_of_fieldText h
    exact hguard.elim
  · split at h
    · rcases bind_eq_error.mp h with h | ⟨_, -, h⟩
      · exact absurd hguard (not_isGuardrail_of_bind h)
      · cases h
    · exact t.fault_of_condition h hguard

/-! ## Trees -/

/-- A pattern within the bounds of the check has no fault but its length. -/
theorem tooLong_of_fault? {s : String} {fault : Pattern.Fault}
    (hexcess : Pattern.excess? s.toList = none) (h : Pattern.fault? s.toList = some fault) :
    100 < s.length ∧ fault = .tooLong s.length := by
  unfold Pattern.fault? at h
  rw [hexcess] at h
  split at h
  next hlong => exact ⟨hlong, (Option.some.inj h).symm⟩
  next => cases h

/-- What fails at a guardrail fails at a deep leaf or at a pattern. -/
theorem guardrail_of_translate {q : Query} {e : TranslateError}
    (h : t.translate q = .error e ∨ t.translateInline q = .error e) (hguard : e.IsGuardrail) :
    (∃ n ∈ q.leafDepths 0, t.maxDepth < n) ∨
      ∃ c ∈ q.leafComparisons, (c.operator = .like ∨ c.operator = .ilike) ∧ ∃ s fault,
        c.value = .text s ∧ Pattern.fault? s.toList = some fault ∧ e = .unsafePattern fault := by
  cases blames_of_translate h with
  | depth hn hdeep => exact .inl ⟨_, hn, hdeep⟩
  | comparison hc hfails => exact .inr ⟨_, hc, t.fault_of_comparison hfails hguard⟩
  | raw _ hfails => exact absurd hguard (not_isGuardrail_of_rawCondition hfails)
  | connective _ herror =>
      rcases List.mem_cons.mp herror with rfl | herror
      · exact hguard.elim
      · rw [List.mem_singleton.mp herror] at hguard
        exact hguard.elim

/-- **The check and the translation agree on the guardrails that both have.**  If wildcards are
collapsed and the translation goes as deep as the check, then the translation of what the check
hands on is never nested too deeply, and a pattern is unsafe only if it has more than 100
characters. The query may be any tree. -/
theorem guardrails_of_validate (p : Policy) (schema : Option Schema) (q q' : Query)
    (e : TranslateError) (hsanitize : p.sanitizeWildcards) (hdepth : p.maxDepth ≤ t.maxDepth)
    (h : p.validate schema q = .ok q')
    (hfails : t.translate q' = .error e ∨ t.translateInline q' = .error e) :
    (∀ max, e ≠ .nestingTooDeep max) ∧
      ∀ fault, e = .unsafePattern fault →
        ∃ c ∈ q'.leafComparisons, (c.operator = .like ∨ c.operator = .ilike) ∧
          ∃ s, c.value = .text s ∧ 100 < s.length ∧ fault = .tooLong s.length := by
  obtain ⟨hobeys, hq'⟩ := (p.validate_eq_ok schema).mp h
  rw [if_pos hsanitize] at hq'
  subst hq'
  have hdepths : ∀ n ∈ q.collapse.leafDepths 0, n ≤ t.maxDepth := fun n hn =>
    Nat.le_trans (p.obeys_collapse schema (by decide) (hobeys .depth) n hn) hdepth
  have hpatterns := p.obeys_collapse schema (by decide) (hobeys .wildcards) hsanitize
  have hguard : e.IsGuardrail → ∃ c ∈ q.collapse.leafComparisons,
      (c.operator = .like ∨ c.operator = .ilike) ∧
        ∃ s, c.value = .text s ∧ 100 < s.length ∧ e = .unsafePattern (.tooLong s.length) := by
    intro hguard
    rcases t.guardrail_of_translate hfails hguard with
      ⟨n, hn, hdeep⟩ | ⟨c, hc, hoperator, s, fault, hvalue, hfault, rfl⟩
    · exact absurd (hdepths n hn) (Nat.not_le.mpr hdeep)
    · have hexcess := (Policy.excess?_eq_none_iff s.toList).mpr (hpatterns c hc hoperator s hvalue)
      obtain ⟨hlong, rfl⟩ := tooLong_of_fault? hexcess hfault
      exact ⟨c, hc, hoperator, s, hvalue, hlong, rfl⟩
  constructor
  · rintro max rfl
    obtain ⟨c, -, -, s, -, -, herror⟩ := hguard trivial
    cases herror
  · rintro fault rfl
    obtain ⟨c, hc, hoperator, s, hvalue, hlong, herror⟩ := hguard trivial
    exact ⟨c, hc, hoperator, s, hvalue, hlong, TranslateError.unsafePattern.inj herror⟩

/-- A pattern of 102 characters is handed on with 101, at the depth that is just allowed, and is
still too long. -/
theorem guardrails_of_validate_long_pattern :
    let p : Policy := { maxDepth := 1 }
    let t : Translator := { dialect := .sqlite, maxDepth := 1 }
    let like (s : List Char) : Query :=
      .not (.comparison ⟨⟨"tag", by decide⟩, .like, .text (String.ofList s), false⟩)
    let q := like ('*' :: '*' :: List.replicate 100 'a')
    let q' := like ('*' :: List.replicate 100 'a')
    p.validate none q = .ok q' ∧ t.translate q' = .error (.unsafePattern (.tooLong 101)) ∧
      ∃ c ∈ q'.leafComparisons, (c.operator = .like ∨ c.operator = .ilike) ∧
        ∃ s, c.value = .text s ∧ 100 < s.length ∧ Pattern.Fault.tooLong 101 = .tooLong s.length := by
  intro p t like q q'
  have hcheck : p.check none q = .ok () := by decide +kernel
  have hpattern : Pattern.collapse ('*' :: '*' :: List.replicate 100 'a') =
      '*' :: List.replicate 100 'a' := by decide +kernel
  have hcollapse : q.collapse = q' :=
    calc q.collapse
        = like (Pattern.collapse (String.ofList ('*' :: '*' :: List.replicate 100 'a')).toList) := rfl
      _ = q' := by rw [String.toList_ofList, hpattern]
  have hvalidate : p.validate none q = .ok q' := by
    rw [Policy.validate_eq_map, hcheck, ← hcollapse]
    rfl
  have hfails : t.translate q' = .error (.unsafePattern (.tooLong 101)) := by
    rw [translate, pieces_eq]
    with_unfolding_all rfl
  exact ⟨hvalidate, hfails,
    (t.guardrails_of_validate p none q q' _ rfl (Nat.le_refl 1) hvalidate (.inl hfails)).2 _ rfl⟩

end Translator

end Sql

end QueryFilter
