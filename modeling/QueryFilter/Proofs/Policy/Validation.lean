import QueryFilter.Proofs.Query.Collapse
import QueryFilter.Proofs.Steps

/-!
# Validating a query twice

A query that passes the check is handed on with its patterns collapsed, and the check has not seen
it in that form.  Every rule but one is obeyed by the collapsed query as well (`obeys_collapse`).
The exception is the one about denied values: a denied value that is itself a pattern without
repeated wildcards does not match a pattern that only collapses to it.

So what is handed on passes the check, and is handed on unchanged, exactly if no pattern of the
query collapses to a value that is denied for its field (`validate_validate`).
-/

namespace QueryFilter

namespace Policy

variable (p : Policy) (schema : Option Schema) {q : Query}

/-- No pattern of a query collapses to a value that is denied for its field. -/
def CollapsesClear (q : Query) : Prop :=
  ∀ c ∈ q.leafComparisons, (patternOf? c).isSome → c.collapse.value ∉ p.deniedValuesOf c.field

/-! ## Shapes -/

/-- A value whose list is not too long and whose scalars fit. -/
def FitsWhole (v : Value) : Prop :=
  (∀ items, v = .list items → items.length ≤ p.maxListLength) ∧ ∀ w ∈ v.parts, p.Fits w

/-- Collapsing wildcards makes no value too large. -/
theorem fitsWhole_collapse {c : Comparison} (h : p.FitsWhole c.value) :
    p.FitsWhole c.collapse.value := by
  rcases c.value_collapse with hsame | ⟨s, s', hvalue, hcollapse, hlength⟩
  · exact hsame ▸ h
  · rw [hcollapse]
    refine ⟨nofun, fun w hw => ?_⟩
    have hs := (hvalue ▸ h.2 : ∀ w ∈ (Value.text s).parts, p.Fits w) _ (List.mem_singleton_self _)
    rw [List.mem_singleton.mp hw]
    refine ⟨rfl, fun u hu => ?_⟩
    cases hu
    exact Nat.le_trans hlength (hs.2 s rfl)

/-! ## Rules that stay obeyed -/

theorem forall_leafComparisons_collapse {P : Comparison → Prop}
    (h : ∀ c ∈ q.leafComparisons, P c.collapse) : ∀ c ∈ q.collapse.leafComparisons, P c := by
  intro c hc
  rw [Query.leafComparisons_collapse] at hc
  obtain ⟨d, hd, rfl⟩ := List.mem_map.mp hc
  exact h d hd

/-- Collapsing wildcards breaks no rule but the one about denied values. -/
theorem obeys_collapse {rule : Rule} (hrule : rule ≠ .values) (h : p.Obeys schema q rule) :
    p.Obeys schema q.collapse rule := by
  cases rule with
  | values => exact absurd rfl hrule
  | qualification =>
      refine h.imp_right fun h => forall_leafComparisons_collapse fun c hc => ?_
      rw [c.field_collapse]
      exact h c hc
  | access =>
      refine forall_leafComparisons_collapse fun c hc => ?_
      rw [c.field_collapse]
      exact h c hc
  | operators =>
      refine forall_leafComparisons_collapse fun c hc => ?_
      rw [c.operator_collapse]
      exact h c hc
  | depth =>
      rw [Obeys, Query.leafDepths_collapse]
      exact h
  | clauses =>
      rw [Obeys, Query.leafDepths_collapse]
      exact h
  | shapes => exact forall_leafComparisons_collapse fun c hc => p.fitsWhole_collapse (h c hc)
  | wildcards =>
      intro hsanitize
      refine forall_leafComparisons_collapse fun c hc => ?_
      rw [← patternViolation?_eq_none_iff]
      rcases c.collapse_cases with ⟨-, heq⟩ | ⟨s, hpattern, heq⟩
      · rw [heq, patternViolation?_eq_none_iff]
        exact h hsanitize c hc
      · obtain ⟨hoperator, hvalue⟩ := patternOf?_eq_some_iff.mp hpattern
        obtain ⟨halternations, hwildcards⟩ := h hsanitize c hc hoperator s hvalue
        have hexcess : Pattern.excess? (Pattern.collapse s.toList) = none := by
          rw [excess?_eq_none_iff, Pattern.alternationCount_collapse]
          exact ⟨halternations, Nat.le_trans (Pattern.wildcardCount_collapse_le _) hwildcards⟩
        rw [patternViolation?, Comparison.patternOf?_collapse hpattern, Option.bind_some,
          String.toList_ofList, hexcess]

/-! ## Denied values -/

theorem same_text_iff {s : String} {d : Value} : (Value.text s).same d ↔ d = .text s := by
  cases d with
  | text u =>
      rw [Value.same, beq_iff_eq, Value.text.injEq]
      exact eq_comm
  | _ => simp [Value.same]

/-- A pattern that spells a number once it is collapsed has no wildcard, and so it is what it
was. -/
theorem collapse_of_sameNumber {s : String} {d : Value}
    (h : (Value.text (String.ofList (Pattern.collapse s.toList))).sameNumber d) :
    String.ofList (Pattern.collapse s.toList) = s := by
  obtain ⟨x, hnumber⟩ : ∃ x, (Value.text (String.ofList (Pattern.collapse s.toList))).number? =
      some x := by
    unfold Value.sameNumber at h
    split at h
    next hx _ => exact ⟨_, hx⟩
    · cases h
  have hplain := isWildcard_of_number? hnumber
  rw [String.toList_ofList] at hplain
  rw [Pattern.collapse_of_plain hplain, String.ofList_toList]

/-- Case plays no part in the comparison with a pattern. -/
theorem refusesValue_of_pattern {c : Comparison} {s : String} (hpattern : patternOf? c = some s) :
    p.refusesValue c = false ↔
      ∀ d ∈ p.deniedValuesOf c.field, d ≠ .text s ∧ (Value.text s).sameNumber d = false := by
  obtain ⟨hoperator, hvalue⟩ := patternOf?_eq_some_iff.mp hpattern
  have hcase : c.foldsCase = false := by
    unfold Comparison.foldsCase
    rcases hoperator with heq | heq <;> simp [heq, Operator.isEquality]
  simp [refusesValue, hvalue, hcase, Value.parts, Value.looselyEqual, ← same_text_iff]

/-- A pattern that is not refused is refused when it is collapsed exactly if it is denied itself. -/
theorem refusesValue_collapse {c : Comparison} (hc : p.refusesValue c = false) :
    p.refusesValue c.collapse = false ↔
      ((patternOf? c).isSome → c.collapse.value ∉ p.deniedValuesOf c.field) := by
  rcases c.collapse_cases with ⟨hnone, heq⟩ | ⟨s, hpattern, heq⟩
  · rw [heq, hnone]
    exact ⟨fun _ => nofun, fun _ => hc⟩
  · rw [p.refusesValue_of_pattern (Comparison.patternOf?_collapse hpattern), c.field_collapse,
      hpattern, heq]
    rw [p.refusesValue_of_pattern hpattern] at hc
    constructor
    · intro hclear _ hdenied
      exact (hclear _ hdenied).1 rfl
    · intro hclear d hd
      refine ⟨fun heq => hclear rfl (heq ▸ hd), ?_⟩
      by_contra hnumber
      rw [Bool.not_eq_false] at hnumber
      have hsame := collapse_of_sameNumber hnumber
      rw [hsame, (hc d hd).2] at hnumber
      cases hnumber

theorem obeys_values_iff : p.Obeys schema q .values ↔
    ∀ c ∈ q.leafComparisons, p.refusesValue c = false := by
  simp only [Obeys, refusesValue_iff]

/-- The rule about denied values stays obeyed exactly if no pattern collapses to a denied value. -/
theorem obeys_values_collapse (h : p.Obeys schema q .values) :
    p.Obeys schema q.collapse .values ↔ p.CollapsesClear q := by
  rw [obeys_values_iff] at h ⊢
  rw [Query.leafComparisons_collapse, List.forall_mem_map]
  exact forall₂_congr fun c hc => p.refusesValue_collapse (h c hc)

/-! ## Validating -/

/-- If only the rule about denied values is broken, a denied value is what the check tells. -/
theorem check_eq_deniedValue (hothers : ∀ rule ≠ .values, p.Obeys schema q rule)
    (hvalues : ¬ p.Obeys schema q .values) : p.check schema q = .error .deniedValue := by
  cases hcheck : p.check schema q with
  | ok => exact absurd ((p.check_eq_ok_iff schema q).mp hcheck .values) hvalues
  | error v =>
      have hrule : v.rule = .values := by
        by_contra hne
        exact p.not_obeys_of_check schema hcheck (hothers v.rule hne)
      rw [v.eq_deniedValue_of_rule hrule]

/-- What is handed on is the query, collapsed by recursion on the tree if the policy asks for
that. -/
theorem validate_eq_map (q : Query) : p.validate schema q =
    (p.check schema q).map fun _ => if p.sanitizeWildcards then q.collapse else q := by
  rw [validate, Query.sanitize_eq_collapse]

theorem validate_eq_ok {q' : Query} : p.validate schema q = .ok q' ↔
    (∀ rule, p.Obeys schema q rule) ∧ (if p.sanitizeWildcards then q.collapse else q) = q' := by
  rw [validate_eq_map, map_eq_ok, ← check_eq_ok_iff]
  exact ⟨fun ⟨_, hcheck, heq⟩ => ⟨hcheck, heq⟩, fun ⟨hcheck, heq⟩ => ⟨(), hcheck, heq⟩⟩

/-- **What is handed on passes the check and is handed on unchanged**, unless wildcards are
collapsed and a pattern of the query collapses to a value that is denied for its field.  Then what
is handed on compares a field with a denied value. -/
theorem validate_validate {q' : Query} (h : p.validate schema q = .ok q') :
    ((p.sanitizeWildcards → p.CollapsesClear q) →
        p.check schema q' = .ok () ∧ p.validate schema q' = .ok q') ∧
      (p.sanitizeWildcards → ¬ p.CollapsesClear q →
        p.check schema q' = .error .deniedValue) := by
  obtain ⟨hobeys, rfl⟩ := (p.validate_eq_ok schema).mp h
  have hothers : ∀ rule ≠ .values, p.Obeys schema q.collapse rule :=
    fun rule hrule => p.obeys_collapse schema hrule (hobeys rule)
  have hvalues := p.obeys_values_collapse schema (hobeys .values)
  split
  next hsanitize =>
    refine ⟨fun hclear => ?_, fun _ hclear => ?_⟩
    · have hagain : ∀ rule, p.Obeys schema q.collapse rule := by
        intro rule
        by_cases hrule : rule = .values
        · rw [hrule, hvalues]
          exact hclear hsanitize
        · exact hothers rule hrule
      refine ⟨(p.check_eq_ok_iff schema _).mpr hagain, (p.validate_eq_ok schema).mpr ⟨hagain, ?_⟩⟩
      rw [if_pos hsanitize, Query.collapse_collapse]
    · exact p.check_eq_deniedValue schema hothers (mt hvalues.mp hclear)
  next hsanitize =>
    refine ⟨fun _ => ?_, fun h => absurd h hsanitize⟩
    exact ⟨(p.check_eq_ok_iff schema q).mpr hobeys, h.trans (congrArg _ (if_neg hsanitize))⟩

/-- A pattern that is denied as `a*b` does not keep out `c**d`, of which a wildcard is left out. -/
theorem validate_validate_pattern :
    let p : Policy := Policy.denyValues {} "tag" [.text "a*b"]
    let q : Query := .not (.comparison ⟨⟨"tag", by decide⟩, .like, .text "c**d", false⟩)
    let q' : Query := .not (.comparison ⟨⟨"tag", by decide⟩, .like, .text "c*d", false⟩)
    p.validate none q = .ok q' ∧ p.check none q' = .ok () ∧ p.validate none q' = .ok q' := by
  intro p q q'
  have hcheck : p.check none q = .ok () := by decide +kernel
  have hvalidate : p.validate none q = .ok q' := by
    rw [validate_eq_map, hcheck]
    rfl
  have hdenied : p.deniedValuesOf ⟨"tag", by decide⟩ = [.text "a*b"] := rfl
  have hclear : p.CollapsesClear q := by
    intro c hc _
    rw [List.mem_singleton.mp hc]
    change Value.text "c*d" ∉ p.deniedValuesOf ⟨"tag", by decide⟩
    rw [hdenied]
    simp
  exact ⟨hvalidate, (p.validate_validate none hvalidate).1 fun _ => hclear⟩

/-- The same policy lets `a**b` pass, and hands it on as the pattern that it denies. -/
theorem validate_denied_pattern :
    let p : Policy := Policy.denyValues {} "tag" [.text "a*b"]
    let q : Query := .comparison ⟨⟨"tag", by decide⟩, .like, .text "a**b", false⟩
    let q' : Query := .comparison ⟨⟨"tag", by decide⟩, .like, .text "a*b", false⟩
    p.validate none q = .ok q' ∧ p.check none q' = .error .deniedValue ∧
      p.validate none q' = .error .deniedValue := by
  intro p q q'
  have hcheck : p.check none q = .ok () := by decide +kernel
  have hagain : p.check none q' = .error .deniedValue := by decide +kernel
  refine ⟨?_, hagain, ?_⟩
  · rw [validate_eq_map, hcheck]
    rfl
  · rw [validate_eq_map, hagain]
    rfl

end Policy

end QueryFilter
