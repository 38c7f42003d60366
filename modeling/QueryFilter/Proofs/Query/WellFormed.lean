import QueryFilter.Proofs.Filter.Values
import QueryFilter.Proofs.Policy.Rules
import QueryFilter.Proofs.Query.Expressible

/-!
# What is read is well formed

However a query is read, from a text or from a filter document, its tree is well formed: there is no
raw condition in it, connectives have the operands that belong to them, and every operator has a
value that it is meant for (`Query.IsRead.isTreeOf`).  So a list or a range never stands where the
check expects a scalar (`Query.IsTreeOf.check_ne_notScalar`).

A text can express less than a document: a pattern that is read from a text has a wildcard, and a
list an item.  Well-formed is what both give.
-/

namespace QueryFilter

/-! ## Well-formed comparisons -/

/-- The values that an operator is meant for. -/
inductive Operator.Takes : Operator → Value → Prop
  | scalar {operator : Operator} {v : Value} (hoperator : operator ∈ scalarOperators)
    (hv : v.IsFiniteScalar) : Takes operator v
  | text {operator : Operator} (hoperator : operator ∈ [.like, .ilike, .regex]) (s : String) :
    Takes operator (.text s)
  | list {operator : Operator} {items : List Value} (hoperator : operator ∈ [.oneOf, .noneOf])
    (hitems : ∀ v ∈ items, v.IsFiniteScalar) : Takes operator (.list items)
  | range {low high : Option Value} (hlow : IsFiniteBound low) (hhigh : IsFiniteBound high)
    (closedLow closedHigh : Bool) : Takes .between (.range low high closedLow closedHigh)

/-- A comparison with a value that its operator is meant for.  Case is disregarded only where a text
that is not empty is tested for equality. -/
structure Comparison.IsWellFormed (c : Comparison) : Prop where
  takes : c.operator.Takes c.value
  word : c.ignoreCase → c.operator ∈ [.eq, .ne] ∧ ∃ s, c.value = .text s ∧ s ≠ ""

/-- The scalars in a value that an operator is meant for are finite. -/
theorem Operator.Takes.isFiniteScalar_of_mem_parts {operator : Operator} {v : Value}
    (hv : operator.Takes v) : ∀ w ∈ v.parts, w.IsFiniteScalar := by
  intro w hw
  cases hv with
  | scalar hoperator hv =>
      cases v with
      | list | range => exact hv.elim
      | null | bool | int | float | text => exact List.mem_singleton.mp hw ▸ hv
  | text hoperator s =>
      rw [List.mem_singleton.mp hw]
      trivial
  | list hoperator hitems => exact hitems w hw
  | range hlow hhigh =>
      rcases List.mem_append.mp hw with hw | hw
      · exact (hlow w (Option.mem_toList.mp hw)).1
      · exact (hhigh w (Option.mem_toList.mp hw)).1

/-! ## Texts -/

/-- What a text can express is well formed. -/
theorem Comparison.IsExpressible.isWellFormed {c : Comparison}
    (hc : IsExpressible c.operator c.value c.ignoreCase) : c.IsWellFormed := by
  obtain ⟨field, operator, value, ignoreCase⟩ := c
  have hlike : Operator.like ∈ [.like, .ilike, .regex] := by decide
  have hregex : Operator.regex ∈ [.like, .ilike, .regex] := by decide
  cases hc with
  | word hoperator hs =>
      refine ⟨.scalar ?_ trivial, fun _ => ⟨hoperator, _, rfl, hs⟩⟩
      exact List.mem_append_left [.gt, .gte, .lt, .lte] hoperator
  | scalar hoperator hv => exact ⟨.scalar hoperator hv, nofun⟩
  | pattern hwild => exact ⟨.text hlike _, nofun⟩
  | regex hs hpair => exact ⟨.text hregex _, nofun⟩
  | membership hoperator hne hitems => exact ⟨.list hoperator hitems, nofun⟩
  | range hlow hhigh => exact ⟨.range hlow hhigh _ _, nofun⟩

/-! ## Documents -/

/-- The scalar that a document denotes is finite. -/
theorem Document.Denotes.isFiniteScalar {d : Document} {v : Value} (h : d.Denotes v) :
    v.IsFiniteScalar := by
  cases h with
  | float hx => exact hx
  | null | bool | integer | string => trivial

/-- The value that an operator takes from a document is one that it is meant for. -/
theorem Operator.Reads.takes {operator : Operator} {d : Document} {v : Value}
    (h : operator.Reads d v) : operator.Takes v := by
  have hbound : ∀ {d : Document} {v : Value}, d.Denotes v → v ≠ .null → IsFiniteBound (some v) := by
    rintro d v hd hnull _ ⟨⟩
    exact ⟨hd.isFiniteScalar, hnull⟩
  cases h with
  | scalar hoperator hd => exact .scalar hoperator hd.isFiniteScalar
  | text hoperator s => exact .text hoperator s
  | list hoperator hitems =>
      refine .list hoperator ?_
      induction hitems with
      | nil => exact nofun
      | cons hd _ ih => exact List.forall_mem_cons.mpr ⟨hd.isFiniteScalar, ih⟩
  | range hlow hlowNull hhigh hhighNull =>
      exact .range (hbound hlow hlowNull) (hbound hhigh hhighNull) true true

/-! ## Queries -/

namespace Query

variable {q : Query}

/-- A query that is read from a text, from the text of a filter document by whatever reader of such
texts, or from a document. -/
inductive IsRead (q : Query) : Prop
  | text {s : String} (h : parse s = .ok q)
  | filter {read? : String → Option Document} {s : String} (h : parseFilterWith read? s = .ok q)
  | document {d : Document} (h : ofDocument d = .ok q)

/-- What is read is a tree of well-formed comparisons. -/
theorem IsRead.isTreeOf (hq : q.IsRead) : q.IsTreeOf Comparison.IsWellFormed := by
  have hkept := isKept_isTreeOf Comparison.IsWellFormed
  have htakes : ∀ {operator : Operator} {key : String} {d : Document} {v : Value},
      Value.forOperator operator key d = .ok v → operator.Takes v :=
    fun hv => (Value.forOperator_eq_ok.mp hv).takes
  cases hq with
  | text h => exact (isTreeOf_of_parse h).imp fun _ _ hc => hc.isWellFormed
  | filter h => exact parseFilterWith_induction hkept (fun hv => ⟨htakes hv, nofun⟩) h
  | document h => exact readFilter_gives hkept (fun hv => ⟨htakes hv, nofun⟩) h

/-! ## Checking well-formed queries -/

theorem scalarViolation?_ne_notScalar (p : Policy) {v : Value} (hv : v.IsFiniteScalar) :
    p.scalarViolation? v ≠ some .notScalar := by
  intro h
  cases v with
  | list | range => exact hv
  | text s =>
      rw [Policy.scalarViolation?] at h
      split at h
      · cases h
      · cases h
  | null | bool | int | float => cases h

theorem exists_mem_parts_of_notScalar {p : Policy} {v : Value}
    (h : p.valueViolation? v = some .notScalar) :
    ∃ w ∈ v.parts, p.scalarViolation? w = some .notScalar := by
  unfold Policy.valueViolation? at h
  split at h
  · split at h
    · cases h
    · exact List.exists_of_findSome?_eq_some h
  · exact List.exists_of_findSome?_eq_some h

/-- A well-formed tree has scalars wherever the check expects them. -/
theorem IsTreeOf.check_ne_notScalar (hq : q.IsTreeOf Comparison.IsWellFormed) (p : Policy)
    (schema : Option Schema) : p.check schema q ≠ .error .notScalar := by
  intro h
  obtain ⟨c, hc, hvalue⟩ := List.exists_of_findSome?_eq_some (p.pass_of_check schema h)
  obtain ⟨w, hw, hscalar⟩ := exists_mem_parts_of_notScalar hvalue
  have htakes := (hq.of_mem c (q.comparisons_eq ▸ hc)).takes
  exact scalarViolation?_ne_notScalar p (htakes.isFiniteScalar_of_mem_parts w hw) hscalar

end Query

end QueryFilter
