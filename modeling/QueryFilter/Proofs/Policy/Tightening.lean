import Mathlib.Logic.Relation
import QueryFilter.Proofs.Policy.Rules

/-!
# Tightening a policy

A policy is tightened in steps (`Policy.Tightens`): something more is denied, a limit is lowered, or
a switch is set to its strict position.  A query that is rejected stays rejected, possibly with
another violation, with one exception (`Policy.check_of_tightens`).

The exception is about denied values.  An entry for a table and a column hides the entry for the
column alone, so that a value that was denied in every table is no longer denied in a table for
which an entry is added.  A query that is rejected for such a value stays rejected if the added
entry recognises it as well (`Policy.CoversColumns`).

## Strategy

What a sequence of steps makes of a policy is compared with it part by part (`Policy.Tighter`),
which is a preorder that contains the steps.  A query that obeys a rule of the tighter policy obeys
the same rule of the other, so a rule that is broken stays broken.
-/

namespace QueryFilter.Policy

/-! ## Steps and what they amount to -/

/-- A step that tightens a policy. -/
inductive Tightens (p : Policy) : Policy → Prop
  | denyFields {fields : NameSet} (h : p.deniedFields ⊆ fields) :
    p.Tightens { p with deniedFields := fields }
  | denyOperators {operators : List Operator} (h : p.deniedOperators ⊆ operators) :
    p.Tightens { p with deniedOperators := operators }
  | denyValues (field : String) (values : List Value) : p.Tightens (p.denyValues field values)
  | maxDepth {n : Nat} (h : n ≤ p.maxDepth) : p.Tightens { p with maxDepth := n }
  | maxClauses {n : Nat} (h : n ≤ p.maxClauses) : p.Tightens { p with maxClauses := n }
  | maxValueLength {n : Nat} (h : n ≤ p.maxValueLength) : p.Tightens { p with maxValueLength := n }
  | maxListLength {n : Nat} (h : n ≤ p.maxListLength) : p.Tightens { p with maxListLength := n }
  | denyQualified : p.Tightens { p with allowQualified := false }
  | sanitizeWildcards : p.Tightens { p with sanitizeWildcards := true }

/-- No part of the policy `p'` is looser than that of `p`: entries are only added, and limits only
lowered. -/
structure Tighter (p p' : Policy) : Prop where
  allowedFields : p'.allowedFields = p.allowedFields
  deniedFields : p.deniedFields ⊆ p'.deniedFields
  deniedOperators : p.deniedOperators ⊆ p'.deniedOperators
  deniedValues : ∀ name values, p.deniedValues.get? name = some values →
    ∃ values', p'.deniedValues.get? name = some values' ∧ values ⊆ values'
  maxDepth : p'.maxDepth ≤ p.maxDepth
  maxClauses : p'.maxClauses ≤ p.maxClauses
  maxValueLength : p'.maxValueLength ≤ p.maxValueLength
  maxListLength : p'.maxListLength ≤ p.maxListLength
  allowQualified : p'.allowQualified → p.allowQualified
  sanitizeWildcards : p.sanitizeWildcards → p'.sanitizeWildcards

variable {p p' p'' : Policy}

namespace Tighter

theorem refl (p : Policy) : p.Tighter p where
  allowedFields := rfl
  deniedFields := List.Subset.refl _
  deniedOperators := List.Subset.refl _
  deniedValues _ values h := ⟨values, h, List.Subset.refl _⟩
  maxDepth := Nat.le_refl _
  maxClauses := Nat.le_refl _
  maxValueLength := Nat.le_refl _
  maxListLength := Nat.le_refl _
  allowQualified := id
  sanitizeWildcards := id

theorem trans (h : p.Tighter p') (h' : p'.Tighter p'') : p.Tighter p'' where
  allowedFields := h'.allowedFields.trans h.allowedFields
  deniedFields := List.Subset.trans h.deniedFields h'.deniedFields
  deniedOperators := List.Subset.trans h.deniedOperators h'.deniedOperators
  deniedValues name values hget := by
    obtain ⟨values', hget', hsubset⟩ := h.deniedValues name values hget
    obtain ⟨values'', hget'', hsubset'⟩ := h'.deniedValues name values' hget'
    exact ⟨values'', hget'', List.Subset.trans hsubset hsubset'⟩
  maxDepth := Nat.le_trans h'.maxDepth h.maxDepth
  maxClauses := Nat.le_trans h'.maxClauses h.maxClauses
  maxValueLength := Nat.le_trans h'.maxValueLength h.maxValueLength
  maxListLength := Nat.le_trans h'.maxListLength h.maxListLength
  allowQualified := h.allowQualified ∘ h'.allowQualified
  sanitizeWildcards := h'.sanitizeWildcards ∘ h.sanitizeWildcards

end Tighter

/-- Entries for denied values only grow. -/
theorem subset_denyValues (p : Policy) {field name : String} {values denied : List Value}
    (h : p.deniedValues.get? name = some denied) :
    ∃ denied', (p.denyValues field values).deniedValues.get? name = some denied' ∧
      denied ⊆ denied' := by
  rw [denyValues, Dictionary.get?_alter]
  by_cases hname : name = field
  · subst hname
    rw [if_pos rfl, h]
    exact ⟨denied ++ values, rfl, List.subset_append_left denied values⟩
  · rw [if_neg hname]
    exact ⟨denied, h, List.Subset.refl denied⟩

/-- A step makes no part of a policy looser. -/
theorem Tightens.tighter (h : p.Tightens p') : p.Tighter p' := by
  have hsame := Tighter.refl p
  cases h with
  | denyFields h => exact { hsame with deniedFields := h }
  | denyOperators h => exact { hsame with deniedOperators := h }
  | denyValues field values =>
      exact { hsame with deniedValues := fun _ _ hget => p.subset_denyValues hget }
  | maxDepth h => exact { hsame with maxDepth := h }
  | maxClauses h => exact { hsame with maxClauses := h }
  | maxValueLength h => exact { hsame with maxValueLength := h }
  | maxListLength h => exact { hsame with maxListLength := h }
  | denyQualified => exact { hsame with allowQualified := nofun }
  | sanitizeWildcards => exact { hsame with sanitizeWildcards := fun _ => rfl }

theorem tighter_of_tightens (h : Relation.ReflTransGen Tightens p p') : p.Tighter p' := by
  induction h with
  | refl => exact .refl p
  | tail _ hstep ih => exact ih.trans hstep.tighter

/-! ## Rules -/

section Rules

variable (h : p.Tighter p') {schema : Option Schema} {q : Query}

include h

theorem Tighter.denies {f : FieldPath} (hf : p.Denies f) : p'.Denies f := by
  rcases hf with hpath | hcolumn | ⟨hplain, entry, hentry, hlast⟩
  · exact .inl (h.deniedFields hpath)
  · exact .inr (.inl (h.deniedFields hcolumn))
  · exact .inr (.inr ⟨hplain, entry, h.deniedFields hentry, hlast⟩)

theorem Tighter.lists_iff (name : String) : p'.Lists schema name ↔ p.Lists schema name := by
  rw [Lists, Lists, h.allowedFields]

theorem Tighter.fits {v : Value} (hv : p'.Fits v) : p.Fits v :=
  ⟨hv.1, fun s hs => Nat.le_trans (hv.2 s hs) h.maxValueLength⟩

/-- A query that obeys a rule of the tighter policy obeys the rule of the other, if the rule is not
about denied values. -/
theorem Tighter.obeys {rule : Rule} (hrule : rule ≠ .values) (hq : p'.Obeys schema q rule) :
    p.Obeys schema q rule := by
  cases rule with
  | values => exact absurd rfl hrule
  | qualification => exact hq.imp_left h.allowQualified
  | access =>
      intro c hc
      obtain ⟨hdenied, hlisted⟩ := hq c hc
      simp only [h.lists_iff] at hlisted
      exact ⟨mt h.denies hdenied, hlisted⟩
  | operators =>
      intro c hc
      exact mt (fun hdenied => h.deniedOperators hdenied) (hq c hc)
  | depth =>
      intro n hn
      exact Nat.le_trans (hq n hn) h.maxDepth
  | clauses => exact Nat.le_trans hq h.maxClauses
  | shapes =>
      intro c hc
      obtain ⟨hlist, hfits⟩ := hq c hc
      exact ⟨fun items hitems => Nat.le_trans (hlist items hitems) h.maxListLength,
        fun v hv => h.fits (hfits v hv)⟩
  | wildcards =>
      intro hsanitize
      exact hq (h.sanitizeWildcards hsanitize)

end Rules

/-! ## Denied values -/

/-- Where a query has a field for which `p'` has an entry with its table and `p` has only one for
its column, the entry of `p'` recognises the values of the query that the entry of `p`
recognises. -/
def CoversColumns (p p' : Policy) (q : Query) : Prop :=
  ∀ c ∈ q.leafComparisons, ∀ denied denied' : List Value,
    p.deniedValues.get? c.field.text = none → p.deniedValues.get? c.field.column = some denied →
      p'.deniedValues.get? c.field.text = some denied' → ∀ v ∈ c.value.parts,
        (∃ d ∈ denied, v.looselyEqual c.foldsCase d) → ∃ d ∈ denied', v.looselyEqual c.foldsCase d

theorem Tighter.obeys_values (h : p.Tighter p') {q : Query} (hcovers : p.CoversColumns p' q)
    {schema : Option Schema} (hq : p'.Obeys schema q .values) : p.Obeys schema q .values := by
  intro c hc denied hdenied v hv d hd hloose
  rcases hdenied with hpath | ⟨hnone, hcolumn⟩
  · obtain ⟨denied', hpath', hsubset⟩ := h.deniedValues _ _ hpath
    exact hq c hc denied' (.inl hpath') v hv d (hsubset hd) hloose
  · cases hpath' : p'.deniedValues.get? c.field.text with
    | none =>
        obtain ⟨denied', hcolumn', hsubset⟩ := h.deniedValues _ _ hcolumn
        exact hq c hc denied' (.inr ⟨hpath', hcolumn'⟩) v hv d (hsubset hd) hloose
    | some denied' =>
        obtain ⟨d', hd', hloose'⟩ :=
          hcovers c hc denied denied' hnone hcolumn hpath' v hv ⟨d, hd, hloose⟩
        exact hq c hc denied' (.inl hpath') v hv d' hd' hloose'

/-! ## The check -/

/-- **A query that is rejected is rejected after a policy has been tightened**, whatever the steps
and their number are.  If a denied value is why it is rejected, an entry for a table and a column
that has been added must recognise the values of the query that the entry for the column
recognises. -/
theorem check_of_tightens (h : Relation.ReflTransGen Tightens p p') (schema : Option Schema)
    (q : Query) {v : Violation} (hrejected : p.check schema q = .error v)
    (hcovers : v = .deniedValue → p.CoversColumns p' q) :
    ∃ v', p'.check schema q = .error v' := by
  have htighter := tighter_of_tightens h
  have hbroken := p.not_obeys_of_check schema hrejected
  cases hcheck : p'.check schema q with
  | error v' => exact ⟨v', rfl⟩
  | ok =>
      have hobeys := (p'.check_eq_ok_iff schema q).mp hcheck
      refine absurd ?_ hbroken
      by_cases hrule : v.rule = .values
      · rw [hrule]
        exact htighter.obeys_values (hcovers (v.eq_deniedValue_of_rule hrule)) (hobeys .values)
      · exact htighter.obeys hrule (hobeys v.rule)

/-- An entry for a table and a column is added that repeats what is denied for the column, and the
number of conditions is lowered to zero. -/
theorem check_of_tightens_repeated :
    let p : Policy := Policy.denyValues {} "role" [.text "admin"]
    let p' : Policy :=
      { p.denyValues "users.role" [.text "root", .text "admin"] with maxClauses := 0 }
    let q : Query := .comparison ⟨⟨"users.role", by decide⟩, .eq, .text "Admin", true⟩
    p.check none q = .error .deniedValue ∧ ∃ v, p'.check none q = .error v := by
  intro p p' q
  have hfound : p.violation? none q = some .deniedValue := by decide +kernel
  have hrejected : p.check none q = .error .deniedValue := by rw [check, hfound]
  have hsteps : Relation.ReflTransGen Tightens p p' :=
    .tail (.single (.denyValues "users.role" [.text "root", .text "admin"]))
      (.maxClauses (Nat.zero_le _))
  have hcovers : p.CoversColumns p' q := by
    intro c hc denied denied' _ hcolumn hpath v _ hfound
    obtain ⟨d, hd, hloose⟩ := hfound
    obtain rfl := List.mem_singleton.mp hc
    obtain rfl : [.text "admin"] = denied := Option.some.inj hcolumn
    obtain rfl : [.text "root", .text "admin"] = denied' := Option.some.inj hpath
    exact ⟨d, List.subset_cons_self _ _ hd, hloose⟩
  exact ⟨hrejected, check_of_tightens hsteps none q hrejected fun _ => hcovers⟩

/-- An entry for a table and a column hides what is denied for the column in every table. -/
theorem check_hidden_entry :
    let p : Policy := Policy.denyValues {} "role" [.text "admin"]
    let p' : Policy := p.denyValues "users.role" [.text "root"]
    let q : Query := .comparison ⟨⟨"users.role", by decide⟩, .eq, .text "admin", true⟩
    p.Tightens p' ∧ p.check none q = .error .deniedValue ∧ p'.check none q = .ok () := by
  intro p p' q
  have hfound : p.violation? none q = some .deniedValue := by decide +kernel
  have hnothing : p'.violation? none q = none := by decide +kernel
  refine ⟨.denyValues "users.role" [.text "root"], ?_, ?_⟩
  · rw [check, hfound]
  · rw [check, hnothing]

end QueryFilter.Policy
