import QueryFilter.Proofs.Policy.Validation

/-!
# Validation touches patterns only

A policy that sanitizes wildcards changes the queries that it accepts.  It changes the texts of
`LIKE` and `ILIKE` patterns, and nothing else: the shape of the tree, which operands are there,
fields, operators, the regard for case, all other values and raw conditions are at every place what
they were (`Policy.validate_touches_patterns`).

What may change is written down as a map over the tree (`Query.mapPatterns`).  Sanitizing is no such
map: it goes from comparison to comparison with an agenda of places, and changes each where it
stands.  That nothing is lost or changed on the way is `Query.sanitize_eq_collapse`; here its result
is read off place by place, for trees that lack an operand or have one too many as for all others.
-/

namespace QueryFilter

/-! ## Rewriting patterns -/

/-- A comparison with another pattern in place of the one it has.  A comparison without pattern
stays. -/
def Comparison.mapPattern (f : List Char → List Char) : Comparison → Comparison
  | ⟨field, .like, .text s, ignoreCase⟩ =>
    ⟨field, .like, .text (String.ofList (f s.toList)), ignoreCase⟩
  | ⟨field, .ilike, .text s, ignoreCase⟩ =>
    ⟨field, .ilike, .text (String.ofList (f s.toList)), ignoreCase⟩
  | c => c

/-- A query with its patterns rewritten, each in its comparison. -/
def Query.mapPatterns (f : List Char → List Char) : Query → Query
  | comparison c => comparison (c.mapPattern f)
  | raw r => raw r
  | unary op q => unary op (q.mapPatterns f)
  | binary op l r => binary op (l.mapPatterns f) (r.mapPatterns f)

theorem Comparison.mapPattern_collapse (c : Comparison) :
    c.mapPattern Pattern.collapse = c.collapse := by
  rcases c.collapse_cases with ⟨hnone, heq⟩ | ⟨s, hpattern, heq⟩
  · rw [heq]
    unfold mapPattern
    split
    · cases hnone
    · cases hnone
    · rfl
  · obtain ⟨hoperator, hvalue⟩ := Policy.patternOf?_eq_some_iff.mp hpattern
    obtain ⟨field, operator, value, ignoreCase⟩ := c
    rw [heq]
    cases hvalue
    rcases hoperator with rfl | rfl <;> rfl

namespace Query

theorem mapPatterns_collapse (q : Query) : q.mapPatterns Pattern.collapse = q.collapse := by
  induction q with
  | comparison c => exact congrArg comparison c.mapPattern_collapse
  | raw r => rfl
  | unary op q ih => exact congrArg (unary op) ih
  | binary op l r ihl ihr => exact congrArg₂ (binary op) ihl ihr

/-! ## Places -/

/-- Patterns are rewritten operand by operand. -/
theorem operand?_mapPatterns (f : List Char → List Char) (q : Query) (turn : Turn) :
    (q.mapPatterns f).operand? turn = (q.operand? turn).map (mapPatterns f) := by
  cases q <;> cases turn <;> rfl

/-- What stands at a place after rewriting is what stood there, rewritten. -/
theorem at?_mapPatterns (f : List Char → List Char) (q : Query) (place : Place) :
    (q.mapPatterns f).at? place = (q.at? place).map (mapPatterns f) := by
  induction place generalizing q with
  | nil => rfl
  | cons turn place ih =>
      rw [at?, at?, operand?_mapPatterns]
      cases q.operand? turn with
      | none => rfl
      | some operand => exact ih operand

end Query

/-! ## Validating -/

namespace Policy

variable (p : Policy) (schema : Option Schema)

/-- What a policy makes of a query, or of a part of it, that it accepts. -/
def rewritten (q : Query) : Query :=
  if p.sanitizeWildcards then q.mapPatterns Pattern.collapse else q

theorem rewritten_eq (q : Query) :
    p.rewritten q = if p.sanitizeWildcards then q.collapse else q := by
  rw [rewritten, Query.mapPatterns_collapse]

theorem at?_rewritten (q : Query) (place : Place) :
    (p.rewritten q).at? place = (q.at? place).map p.rewritten := by
  cases hsanitize : p.sanitizeWildcards with
  | true =>
      have hmap : p.rewritten = Query.mapPatterns Pattern.collapse := by
        funext node
        exact if_pos hsanitize
      rw [hmap, Query.at?_mapPatterns]
  | false =>
      have hid : p.rewritten = id := by
        funext node
        exact if_neg (ne_true_of_eq_false hsanitize)
      rw [hid, Option.map_id]
      rfl

/-- **Validation touches patterns only.**  A query is handed on exactly if it passes the check.
What is handed on is the query with the wildcards of its patterns collapsed, if the policy asks for
that, and the query itself otherwise, and so it is at every place of the tree. -/
theorem validate_touches_patterns (q : Query) :
    ((∃ q', p.validate schema q = .ok q') ↔ p.check schema q = .ok ()) ∧
      ∀ q', p.validate schema q = .ok q' →
        q' = p.rewritten q ∧ ∀ place, q'.at? place = (q.at? place).map p.rewritten := by
  have hvalidate := p.validate_eq_map schema q
  refine ⟨⟨?_, fun hcheck => ?_⟩, fun q' h => ?_⟩
  · rintro ⟨q', h⟩
    exact (p.check_eq_ok_iff schema q).mpr ((p.validate_eq_ok schema).mp h).1
  · rw [hcheck] at hvalidate
    exact ⟨_, hvalidate⟩
  · obtain ⟨-, rfl⟩ := (p.validate_eq_ok schema).mp h
    rw [← rewritten_eq]
    exact ⟨rfl, p.at?_rewritten q⟩

/-- A pattern is collapsed below a negation with two operands.  The text and the raw condition next
to it, below a connective that lacks an operand, only look like patterns. -/
theorem validate_touches_patterns_malformed :
    let p : Policy := {}
    let tag : FieldPath := ⟨"tag", by decide⟩
    let other : Query := .comparison ⟨tag, .eq, .text "a**b", true⟩
    let query (pattern : String) : Query :=
      .binary .not (.comparison ⟨tag, .ilike, .text pattern, true⟩)
        (.unary .or (.binary .and (.raw ⟨"a**b", []⟩) other))
    p.validate none (query "a**b") = .ok (query "a*b") ∧
      (query "a*b").at? [.right, .left, .right] = some other := by
  intro p tag other query
  have hcheck : p.check none (query "a**b") = .ok () := by decide +kernel
  have hvalidate : p.validate none (query "a**b") = .ok (query "a*b") := by
    rw [validate_eq_map, hcheck]
    rfl
  refine ⟨hvalidate, ?_⟩
  rw [((p.validate_touches_patterns none (query "a**b")).2 _ hvalidate).2]
  rfl

end Policy

end QueryFilter
