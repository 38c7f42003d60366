import QueryFilter.Policy.Check
import QueryFilter.Proofs.Query.Leaves

/-!
# The rules of a policy

What a policy demands of a query, stated about the comparisons and the depths of the leaves of the
tree, with no passes in it (`Policy.Obeys`).  A query is accepted exactly if it obeys every rule,
and the violation of a query that is not accepted tells the first rule that it breaks.

## Strategy

Each pass of the check belongs to a rule (`Policy.pass`), and the check is the first pass that finds
something (`violation?_eq`).  A pass finds nothing exactly if its rule is obeyed
(`pass_eq_none_iff`), and what it finds is a violation of its rule (`rule_of_pass`).
-/

namespace QueryFilter

/-! ## What the rules say -/

/-- A demand of a policy on a query. -/
inductive Rule where
  | qualification | access | operators | values | depth | clauses | shapes | wildcards
  deriving DecidableEq

/-- The rules in the order in which they are checked. -/
def Rule.inOrder : List Rule :=
  [.qualification, .access, .operators, .values, .depth, .clauses, .shapes, .wildcards]

/-- The rule that a violation breaks. -/
def Violation.rule : Violation → Rule
  | qualifiedField => .qualification
  | fieldAccess => .access
  | deniedOperator _ => .operators
  | deniedValue => .values
  | tooDeep _ => .depth
  | tooManyClauses .. => .clauses
  | listTooLong _ | notScalar | valueTooLong _ => .shapes
  | tooManyWildcards _ | complexPattern => .wildcards

/-- The rule about denied values has only one violation. -/
theorem Violation.eq_deniedValue_of_rule {v : Violation} (h : v.rule = .values) :
    v = .deniedValue := by
  cases v with
  | deniedValue => rfl
  | _ => cases h

/-- The rule about field access has only one violation, which does not tell the field. -/
theorem Violation.eq_fieldAccess_of_rule {v : Violation} (h : v.rule = .access) :
    v = .fieldAccess := by
  cases v with
  | fieldAccess => rfl
  | _ => cases h

/-- A schema declares its fields, alone and behind the name of their table. -/
def Schema.Declares (s : Schema) (name : String) : Prop :=
  ∃ table fields, (table, fields) ∈ s.tables ∧
    ∃ field type, (field, type) ∈ fields ∧ (name = table ++ "." ++ field ∨ name = field)

namespace Policy

variable (p : Policy) (schema : Option Schema)

/-- A field is denied by its text, by its column, or if it names no table by an entry that ends in
it. -/
def Denies (f : FieldPath) : Prop :=
  f.text ∈ p.deniedFields ∨ f.column ∈ p.deniedFields ∨
    '.' ∉ f.text.toList ∧ ∃ entry ∈ p.deniedFields, lastSegment entry.toList = f.text.toList

/-- A name is listed by the policy, or if the policy lists none by the schema. -/
def Lists (name : String) : Prop :=
  if p.allowedFields = [] then ∃ s, schema = some s ∧ s.Declares name else name ∈ p.allowedFields

/-- A field may not be queried: it is denied, or it is not listed while others are. -/
def Hides (f : FieldPath) : Prop :=
  p.Denies f ∨ (∃ name, p.Lists schema name) ∧ ¬ p.Lists schema f.text

/-- The denied values of a field are the entry of its path, or if that has none of its column. -/
def DeniesValues (f : FieldPath) (denied : List Value) : Prop :=
  p.deniedValues.get? f.text = some denied ∨
    p.deniedValues.get? f.text = none ∧ p.deniedValues.get? f.column = some denied

/-- A value is a scalar, and not too long a text. -/
def Fits (v : Value) : Prop :=
  v.isScalar ∧ ∀ s, v = .text s → s.length ≤ p.maxValueLength

/-- A query obeys a rule of a policy. -/
def Obeys (q : Query) : Rule → Prop
  | .qualification => p.allowQualified ∨ ∀ c ∈ q.leafComparisons, '.' ∉ c.field.text.toList
  | .access => ∀ c ∈ q.leafComparisons,
      ¬ p.Denies c.field ∧ ((∃ name, p.Lists schema name) → p.Lists schema c.field.text)
  | .operators => ∀ c ∈ q.leafComparisons, c.operator ∉ p.deniedOperators
  | .values => ∀ c ∈ q.leafComparisons, ∀ denied, p.DeniesValues c.field denied →
      ∀ v ∈ c.value.parts, ∀ d ∈ denied, ¬ v.looselyEqual c.foldsCase d
  | .depth => ∀ n ∈ q.leafDepths 0, n ≤ p.maxDepth
  | .clauses => (q.leafDepths 0).length ≤ p.maxClauses
  | .shapes => ∀ c ∈ q.leafComparisons,
      (∀ items, c.value = .list items → items.length ≤ p.maxListLength) ∧
        ∀ v ∈ c.value.parts, p.Fits v
  | .wildcards => p.sanitizeWildcards → ∀ c ∈ q.leafComparisons,
      c.operator = .like ∨ c.operator = .ilike → ∀ s, c.value = .text s →
        Pattern.alternationCount s.toList ≤ 4 ∧ Pattern.wildcardCount s.toList ≤ 10

/-! ## Fields -/

theorem mem_fieldNames (s : Schema) (name : String) :
    name ∈ s.fieldNames ↔ s.Declares name := by
  rw [Schema.fieldNames, NameSet.mem_ofList]
  simp only [List.mem_flatMap, Prod.exists, List.mem_cons, List.not_mem_nil, or_false]
  rfl

theorem mem_allowSet (name : String) : name ∈ p.allowSet schema ↔ p.Lists schema name := by
  unfold allowSet Lists
  simp only [List.isEmpty_iff]
  split
  · cases schema with
    | none => simp
    | some s => simp [mem_fieldNames]
  · rfl

theorem deniesField_iff (f : FieldPath) : p.deniesField f ↔ p.Denies f := by
  simp [deniesField, Denies, FieldPath.isQualified, or_assoc]

theorem refusesField_iff (f : FieldPath) :
    p.refusesField (p.allowSet schema) f = false ↔
      ¬ p.Denies f ∧ ((∃ name, p.Lists schema name) → p.Lists schema f.text) := by
  have hempty : (p.allowSet schema).isEmpty = false ↔ ∃ name, p.Lists schema name := by
    simp only [← mem_allowSet, List.isEmpty_eq_false_iff_exists_mem]
  rw [refusesField, Bool.or_eq_false_iff, ← deniesField_iff, Bool.not_eq_true,
    Bool.and_eq_false_imp, Bool.not_eq_true', hempty, Bool.not_eq_false', List.contains_iff_mem,
    mem_allowSet]

theorem not_obeys_access_iff (q : Query) :
    ¬ p.Obeys schema q .access ↔ ∃ c ∈ q.leafComparisons, p.Hides schema c.field := by
  simp only [Obeys, Hides, Classical.not_forall, Classical.not_and_iff_not_or_not,
    Classical.not_not, exists_prop]

/-! ## Values -/

theorem mem_deniedValuesOf (f : FieldPath) (d : Value) :
    d ∈ p.deniedValuesOf f ↔ ∃ denied, p.DeniesValues f denied ∧ d ∈ denied := by
  unfold deniedValuesOf DeniesValues
  cases p.deniedValues.get? f.text <;> cases p.deniedValues.get? f.column <;> simp

theorem refusesValue_iff (c : Comparison) :
    p.refusesValue c = false ↔ ∀ denied, p.DeniesValues c.field denied →
      ∀ v ∈ c.value.parts, ∀ d ∈ denied, ¬ v.looselyEqual c.foldsCase d := by
  simp only [refusesValue, List.any_eq_false, mem_deniedValuesOf, Bool.not_eq_true]
  constructor
  · intro hclean denied hdenied v hv d hd
    rw [hclean v hv d ⟨denied, hdenied, hd⟩]
  · intro hclean v hv d hd
    obtain ⟨denied, hdenied, hmem⟩ := hd
    exact hclean denied hdenied v hv d hmem

theorem scalarViolation?_eq_none_iff (v : Value) :
    p.scalarViolation? v = none ↔ p.Fits v := by
  cases v with
  | text s => simp [scalarViolation?, Fits, Value.isScalar]
  | _ => simp [scalarViolation?, Fits, Value.isScalar]

theorem findSome?_scalarViolation?_eq_none_iff (values : List Value) :
    values.findSome? p.scalarViolation? = none ↔ ∀ v ∈ values, p.Fits v := by
  simp only [List.findSome?_eq_none_iff, scalarViolation?_eq_none_iff]

theorem valueViolation?_eq_none_iff (v : Value) :
    p.valueViolation? v = none ↔
      (∀ items, v = .list items → items.length ≤ p.maxListLength) ∧ ∀ w ∈ v.parts, p.Fits w := by
  cases v with
  | list items =>
      rw [valueViolation?, Value.parts]
      split
      next hlong =>
        exact ⟨nofun, fun hfits => absurd (hfits.1 items rfl) (Nat.not_le_of_lt hlong)⟩
      next hshort =>
        rw [findSome?_scalarViolation?_eq_none_iff]
        simp [Nat.le_of_not_lt hshort]
  | _ =>
      rw [valueViolation?, findSome?_scalarViolation?_eq_none_iff]
      · simp
      · exact nofun

theorem excess?_eq_none_iff (s : List Char) :
    Pattern.excess? s = none ↔ Pattern.alternationCount s ≤ 4 ∧ Pattern.wildcardCount s ≤ 10 := by
  unfold Pattern.excess?
  split
  next hmany => exact ⟨nofun, fun h => absurd h.1 (Nat.not_le_of_lt hmany)⟩
  next hfew =>
    split
    next hmany => exact ⟨nofun, fun h => absurd h.2 (Nat.not_le_of_lt hmany)⟩
    next hfewWild =>
      exact ⟨fun _ => ⟨Nat.le_of_not_lt hfew, Nat.le_of_not_lt hfewWild⟩, fun _ => rfl⟩

theorem patternOf?_eq_some_iff {c : Comparison} {s : String} :
    patternOf? c = some s ↔ (c.operator = .like ∨ c.operator = .ilike) ∧ c.value = .text s := by
  unfold patternOf?
  cases c.operator <;> cases c.value <;> simp [Operator.isPattern, Value.text?]

theorem patternViolation?_eq_none_iff (c : Comparison) :
    patternViolation? c = none ↔
      (c.operator = .like ∨ c.operator = .ilike → ∀ s, c.value = .text s →
        Pattern.alternationCount s.toList ≤ 4 ∧ Pattern.wildcardCount s.toList ≤ 10) := by
  have hexcess : patternViolation? c = none ↔
      ∀ s, patternOf? c = some s → Pattern.excess? s.toList = none := by
    unfold patternViolation?
    cases patternOf? c with
    | none => simp
    | some s => cases hexcess : Pattern.excess? s.toList with
      | none => simp [hexcess]
      | some e => cases e <;> simp [hexcess]
  rw [hexcess]
  simp only [patternOf?_eq_some_iff, excess?_eq_none_iff, and_imp]
  exact ⟨fun h hop s hs => h s hop hs, fun h s hop hs => h hop s hs⟩

/-! ## Passes and rules -/

/-- What the pass of a rule finds. -/
def pass (q : Query) : Rule → Option Violation
  | .qualification => q.comparisons.findSome? fun c =>
      violationIf (!p.allowQualified && c.field.isQualified) .qualifiedField
  | .access => q.comparisons.findSome? fun c =>
      violationIf (p.refusesField (p.allowSet schema) c.field) .fieldAccess
  | .operators => q.comparisons.findSome? fun c =>
      violationIf (p.deniedOperators.contains c.operator) (.deniedOperator c.operator)
  | .values => q.comparisons.findSome? fun c => violationIf (p.refusesValue c) .deniedValue
  | .depth => violationIf (Query.reachesBelow p.maxDepth [(q, 0)]) (.tooDeep p.maxDepth)
  | .clauses => violationIf (p.maxClauses < q.clauseCount)
      (.tooManyClauses q.clauseCount p.maxClauses)
  | .shapes => q.comparisons.findSome? fun c => p.valueViolation? c.value
  | .wildcards => q.comparisons.findSome? fun c =>
      if p.sanitizeWildcards then patternViolation? c else none

/-- The check goes through the passes in the order of their rules. -/
theorem violation?_eq (q : Query) :
    p.violation? schema q = Rule.inOrder.findSome? (p.pass schema q) := by
  -- the passes are written as a chain of alternatives
  have hcons : ∀ (rule : Rule) (rules : List Rule), (rule :: rules).findSome? (p.pass schema q) =
      (p.pass schema q rule <|> rules.findSome? (p.pass schema q)) := by
    intro rule rules
    rw [List.findSome?_cons]
    cases p.pass schema q rule <;> rfl
  rw [Rule.inOrder, hcons, hcons, hcons, hcons, hcons, hcons, hcons, List.findSome?_singleton]
  rfl

theorem violationIf_eq_none_iff (condition : Bool) (v : Violation) :
    violationIf condition v = none ↔ condition = false := by
  cases condition <;> simp [violationIf]

theorem pass_eq_none_iff (q : Query) (rule : Rule) :
    p.pass schema q rule = none ↔ p.Obeys schema q rule := by
  cases rule with
  | qualification =>
      simp only [pass, Obeys, List.findSome?_eq_none_iff, violationIf_eq_none_iff,
        Query.comparisons_eq]
      cases p.allowQualified <;> simp [FieldPath.isQualified]
  | access =>
      simp only [pass, Obeys, List.findSome?_eq_none_iff, violationIf_eq_none_iff,
        Query.comparisons_eq, refusesField_iff]
  | operators =>
      simp only [pass, Obeys, List.findSome?_eq_none_iff, violationIf_eq_none_iff,
        Query.comparisons_eq, ← Bool.not_eq_true, List.contains_iff_mem]
  | values =>
      simp only [pass, Obeys, List.findSome?_eq_none_iff, violationIf_eq_none_iff,
        Query.comparisons_eq, refusesValue_iff]
  | depth =>
      rw [pass, Obeys, violationIf_eq_none_iff, ← Bool.not_eq_true, Query.reachesBelow_root]
      simp
  | clauses =>
      rw [pass, Obeys, violationIf_eq_none_iff, Query.clauseCount_eq]
      simp
  | shapes =>
      simp only [pass, Obeys, List.findSome?_eq_none_iff, Query.comparisons_eq,
        valueViolation?_eq_none_iff]
  | wildcards =>
      simp only [pass, Obeys, List.findSome?_eq_none_iff, Query.comparisons_eq]
      cases p.sanitizeWildcards <;> simp [patternViolation?_eq_none_iff]

theorem rule_of_scalarViolation? {w : Value} {v : Violation}
    (hfound : p.scalarViolation? w = some v) : v.rule = .shapes := by
  unfold scalarViolation? at hfound
  split at hfound
  · cases hfound; rfl
  · cases hfound; rfl
  · split at hfound
    · cases hfound; rfl
    · cases hfound
  · cases hfound

theorem rule_of_valueViolation? {w : Value} {v : Violation}
    (hfound : p.valueViolation? w = some v) : v.rule = .shapes := by
  unfold valueViolation? at hfound
  split at hfound
  · split at hfound
    · cases hfound; rfl
    · obtain ⟨w, -, hw⟩ := List.exists_of_findSome?_eq_some hfound
      exact p.rule_of_scalarViolation? hw
  · obtain ⟨w, -, hw⟩ := List.exists_of_findSome?_eq_some hfound
    exact p.rule_of_scalarViolation? hw

theorem rule_of_patternViolation? {c : Comparison} {v : Violation}
    (hfound : patternViolation? c = some v) : v.rule = .wildcards := by
  unfold patternViolation? at hfound
  split at hfound
  · cases hfound; rfl
  · cases hfound; rfl
  · cases hfound

theorem rule_of_pass {q : Query} {rule : Rule} {v : Violation}
    (hfound : p.pass schema q rule = some v) : v.rule = rule := by
  have hif : ∀ {condition : Bool} {w : Violation},
      violationIf condition w = some v → v = w := by
    intro condition w hw
    cases condition
    · cases hw
    · exact (Option.some.inj hw).symm
  cases rule with
  | depth | clauses => rw [hif hfound]; rfl
  | qualification | access | operators | values =>
      obtain ⟨c, -, hc⟩ := List.exists_of_findSome?_eq_some hfound
      rw [hif hc]
      rfl
  | shapes =>
      obtain ⟨c, -, hc⟩ := List.exists_of_findSome?_eq_some hfound
      exact p.rule_of_valueViolation? hc
  | wildcards =>
      obtain ⟨c, -, hc⟩ := List.exists_of_findSome?_eq_some hfound
      split at hc
      · exact rule_of_patternViolation? hc
      · cases hc

/-! ## The check -/

theorem violation?_eq_none_iff (q : Query) :
    p.violation? schema q = none ↔ ∀ rule, p.Obeys schema q rule := by
  rw [violation?_eq, List.findSome?_eq_none_iff]
  simp only [pass_eq_none_iff]
  refine ⟨fun hall rule => hall rule ?_, fun hall rule _ => hall rule⟩
  -- no rule is missing from the order
  cases rule <;> decide

theorem check_eq_ok_iff (q : Query) :
    p.check schema q = .ok () ↔ ∀ rule, p.Obeys schema q rule := by
  rw [← violation?_eq_none_iff]
  unfold check
  split <;> simp_all

theorem check_eq_error_iff {q : Query} {v : Violation} :
    p.check schema q = .error v ↔ Rule.inOrder.findSome? (p.pass schema q) = some v := by
  rw [← violation?_eq]
  unfold check
  split <;> simp_all

/-- A violation is what the pass of its rule finds. -/
theorem pass_of_check {q : Query} {v : Violation} (h : p.check schema q = .error v) :
    p.pass schema q v.rule = some v := by
  obtain ⟨rule, -, hpass⟩ := List.exists_of_findSome?_eq_some ((p.check_eq_error_iff schema).mp h)
  rwa [p.rule_of_pass schema hpass]

theorem not_obeys_of_check {q : Query} {v : Violation} (h : p.check schema q = .error v) :
    ¬ p.Obeys schema q v.rule := by
  rw [← pass_eq_none_iff, p.pass_of_check schema h]
  exact nofun

/-- A comparison with a scalar is accepted if its field may be queried, neither its operator nor its
value is denied, and the value is neither too long nor a pattern with too many wildcards. -/
theorem check_comparison {c : Comparison} (hform : p.allowQualified ∨ '.' ∉ c.field.text.toList)
    (hshown : ¬ p.Hides schema c.field) (hoperator : c.operator ∉ p.deniedOperators)
    (hvalue : p.refusesValue c = false) (hclauses : 1 ≤ p.maxClauses) (hfits : p.Fits c.value)
    (hpattern : patternViolation? c = none) : p.check schema (.comparison c) = .ok () := by
  have honly {P : Comparison → Prop} (h : P c) :
      ∀ d ∈ (Query.comparison c).leafComparisons, P d := fun d hd => List.mem_singleton.mp hd ▸ h
  obtain ⟨hclear, hlisted⟩ := not_or.mp hshown
  rw [check_eq_ok_iff]
  intro rule
  cases rule with
  | qualification => exact hform.imp_right fun hplain => honly hplain
  | access =>
      exact honly ⟨hclear, fun hlists =>
        Classical.byContradiction fun hnot => hlisted ⟨hlists, hnot⟩⟩
  | operators => exact honly hoperator
  | values => exact honly ((p.refusesValue_iff c).mp hvalue)
  | depth =>
      intro n hn
      rw [List.mem_singleton.mp hn]
      exact Nat.zero_le _
  | clauses => exact hclauses
  | shapes =>
      refine honly ⟨fun items hitems => ?_, fun v hv => ?_⟩
      · have hscalar := hfits.1
        rw [hitems] at hscalar
        cases hscalar
      · rw [Value.parts_of_isScalar hfits.1] at hv
        rw [List.mem_singleton.mp hv]
        exact hfits
  | wildcards => exact fun _ => honly ((patternViolation?_eq_none_iff c).mp hpattern)

/-- Nothing is checked before field access but qualification, and field access has one violation. -/
theorem check_eq_fieldAccess_iff (q : Query) :
    p.check schema q = .error .fieldAccess ↔
      p.Obeys schema q .qualification ∧ ¬ p.Obeys schema q .access := by
  rw [check_eq_error_iff, Rule.inOrder, List.findSome?_cons, ← pass_eq_none_iff]
  cases hqualified : p.pass schema q .qualification with
  | some v =>
      have hrule := p.rule_of_pass schema hqualified
      refine ⟨fun h => ?_, fun h => nomatch h.1⟩
      rw [Option.some.inj h] at hrule
      cases hrule
  | none =>
      dsimp only
      rw [List.findSome?_cons, ← pass_eq_none_iff]
      cases haccess : p.pass schema q .access with
      | some v =>
          rw [Violation.eq_fieldAccess_of_rule (p.rule_of_pass schema haccess)]
          exact ⟨fun _ => ⟨rfl, nofun⟩, fun _ => rfl⟩
      | none =>
          -- no later pass is about field access
          refine ⟨fun h => ?_, fun h => absurd rfl h.2⟩
          obtain ⟨rule, hmem, hpass⟩ := List.exists_of_findSome?_eq_some h
          rw [← p.rule_of_pass schema hpass] at hmem
          exact absurd hmem (by decide)

/-- **The check accepts exactly the queries that obey every rule.**  The violation of a query that
is not accepted tells the first rule, in their order, that the query breaks. -/
theorem check_iff_obeys (q : Query) :
    (p.check schema q = .ok () ↔ ∀ rule, p.Obeys schema q rule) ∧
      ∀ v, p.check schema q = .error v → ∃ before after,
        Rule.inOrder = before ++ v.rule :: after ∧ ¬ p.Obeys schema q v.rule ∧
          ∀ rule ∈ before, p.Obeys schema q rule := by
  have hcheck : ∀ v, p.check schema q = .error v ↔ p.violation? schema q = some v := by
    intro v
    unfold check
    split <;> simp_all
  refine ⟨p.check_eq_ok_iff schema q, ?_⟩
  intro v hv
  rw [hcheck, violation?_eq, List.findSome?_eq_some_iff] at hv
  obtain ⟨before, rule, after, horder, hfound, hbefore⟩ := hv
  refine ⟨before, after, ?_, ?_, fun r hr => (p.pass_eq_none_iff schema q r).mp (hbefore r hr)⟩
  · rw [rule_of_pass p schema hfound, horder]
  · rw [rule_of_pass p schema hfound, ← pass_eq_none_iff, hfound]
    exact nofun

/-- A denied column is found without its table, behind a raw condition and below a connective that
lacks an operand, and stands before the operator that is denied as well. -/
theorem check_denied_column :
    let p : Policy := { deniedFields := ["users.password"] }
    let q : Query := .binary .or (.raw ⟨"1 = ?", []⟩)
      (.unary .and (.comparison ⟨⟨"password", by decide⟩, .regex, .text "a+", false⟩))
    p.check none q = .error .fieldAccess ∧ ¬ p.Obeys none q .operators ∧
      ∃ before after, Rule.inOrder = before ++ Rule.access :: after ∧ ¬ p.Obeys none q .access ∧
        ∀ rule ∈ before, p.Obeys none q rule := by
  intro p q
  have herror : p.check none q = .error .fieldAccess := by
    rw [check, violation?_eq]
    with_unfolding_all rfl
  refine ⟨herror, fun hobeys => ?_, (p.check_iff_obeys none q).2 _ herror⟩
  exact hobeys _ (List.mem_singleton_self _) (List.mem_singleton_self _)

end Policy

end QueryFilter
