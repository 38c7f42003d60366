import QueryFilter.Proofs.Policy.Rules
import QueryFilter.Proofs.Text.Lowercase
import QueryFilter.Sql.Translate

/-!
# Denied fields in other spellings

A field name stands in a statement as it was given, and without quotes unless quotes are asked for.
Databases read a name without quotes with no regard to the case of its ASCII letters, so a column
has as many names as there are ways to write its letters.  The check compares names as they are: a
name is denied in the spellings of the entries, and in no others.

So a query that is rejected for a denied field may pass in another spelling
(`Policy.check_denied_uppercase`).  Whatever else a policy says, all such queries are rejected in
all spellings exactly if every spelling of a denied field is denied itself, or is kept out because
other fields are listed and it is not (`Policy.check_respelled_iff`).

## Strategy

Spellings of a name have their dots at the same places, so they are qualified alike
(`FieldPath.Respells.dot_iff`).  A spelling of a query has the same tree, so its comparisons
correspond to those of the query (`Query.Respells.exists_comparison`).  A spelling that may be
queried is let pass by the policy that says nothing but what is said about fields
(`Policy.check_onlyFields`).
-/

namespace QueryFilter

/-! ## Spellings -/

/-- Two field names differ at most in the case of ASCII letters. -/
def FieldPath.Respells (f g : FieldPath) : Prop :=
  f.text.toList.map Char.toLower = g.text.toList.map Char.toLower

/-- Two queries differ at most in the case of ASCII letters of their field names. -/
inductive Query.Respells : Query → Query → Prop
  | comparison {c : Comparison} {f : FieldPath} (hfield : c.field.Respells f) :
    Respells (.comparison c) (.comparison { c with field := f })
  | raw (r : RawCondition) : Respells (.raw r) (.raw r)
  | unary (op : Connective) {q q' : Query} (h : q.Respells q') :
    Respells (.unary op q) (.unary op q')
  | binary (op : Connective) {l l' r r' : Query} (hl : l.Respells l') (hr : r.Respells r') :
    Respells (.binary op l r) (.binary op l' r')

namespace FieldPath.Respells

variable {f g : FieldPath}

theorem symm (h : f.Respells g) : g.Respells f := Eq.symm h

/-- A name is qualified in all spellings or in none. -/
theorem dot_iff (h : f.Respells g) : '.' ∈ f.text.toList ↔ '.' ∈ g.text.toList := by
  have hdot : ∀ s : List Char, '.' ∈ s ↔ '.' ∈ s.map Char.toLower := by
    intro s
    simp [List.mem_map, Text.toLower_eq_iff]
  rw [hdot, hdot g.text.toList, h]

end FieldPath.Respells

namespace Query.Respells

variable {q q' : Query}

theorem symm (h : q.Respells q') : q'.Respells q := by
  induction h with
  | comparison hfield => exact .comparison hfield.symm
  | raw r => exact .raw r
  | unary op h ih => exact .unary op ih
  | binary op hl hr ihl ihr => exact .binary op ihl ihr

/-- Every comparison of a query has a spelling among the comparisons of the other. -/
theorem exists_comparison (h : q.Respells q') :
    ∀ c ∈ q.leafComparisons, ∃ c' ∈ q'.leafComparisons, c.field.Respells c'.field := by
  induction h with
  | comparison hfield =>
      intro c hc
      rw [List.mem_singleton.mp hc]
      exact ⟨_, List.mem_singleton_self _, hfield⟩
  | raw r => exact nofun
  | unary op h ih => exact ih
  | binary op hl hr ihl ihr =>
      intro c hc
      rcases List.mem_append.mp hc with hc | hc
      · obtain ⟨c', hc', hfield⟩ := ihl c hc
        exact ⟨c', List.mem_append_left _ hc', hfield⟩
      · obtain ⟨c', hc', hfield⟩ := ihr c hc
        exact ⟨c', List.mem_append_right _ hc', hfield⟩

end Query.Respells

namespace Policy

variable (p : Policy) (schema : Option Schema)

/-- No spelling of a denied field may be queried, where names of its form may be at all. -/
def HidesSpellings : Prop :=
  ∀ f g : FieldPath, f.Respells g → (p.allowQualified ∨ '.' ∉ f.text.toList) → p.Denies f →
    p.Hides schema g

/-- Qualification does not depend on the spelling. -/
theorem obeys_qualification_respelled {q q' : Query} (h : q.Respells q')
    (hq : p.Obeys schema q .qualification) : p.Obeys schema q' .qualification := by
  refine hq.imp_right fun hplain c' hc' => ?_
  obtain ⟨c, hc, hfield⟩ := h.symm.exists_comparison c' hc'
  rw [hfield.dot_iff]
  exact hplain c hc

/-- A query for a denied field is rejected in every spelling for the same reason, if no spelling of
a denied field may be queried. -/
theorem check_respelled (hhides : p.HidesSpellings schema) {q q' : Query} (hquery : q.Respells q')
    (hcheck : p.check schema q = .error .fieldAccess)
    (hdenied : ∃ c ∈ q.leafComparisons, p.Denies c.field) :
    p.check schema q' = .error .fieldAccess := by
  rw [check_eq_fieldAccess_iff] at hcheck ⊢
  rw [not_obeys_access_iff]
  obtain ⟨c, hc, hdenied⟩ := hdenied
  obtain ⟨c', hc', hfield⟩ := hquery.exists_comparison c hc
  have hform : p.allowQualified ∨ '.' ∉ c.field.text.toList :=
    hcheck.1.imp_right fun hplain => hplain c hc
  exact ⟨p.obeys_qualification_respelled schema hquery hcheck.1, c', hc',
    hhides _ _ hfield hform hdenied⟩

/-! ## What a policy says about fields -/

/-- Two policies say the same about fields. -/
structure SameFields (p p' : Policy) : Prop where
  allowedFields : p'.allowedFields = p.allowedFields
  deniedFields : p'.deniedFields = p.deniedFields
  allowQualified : p'.allowQualified = p.allowQualified

theorem SameFields.hidesSpellings {p p' : Policy} {schema : Option Schema} (h : p.SameFields p')
    (hhides : p.HidesSpellings schema) : p'.HidesSpellings schema := by
  obtain ⟨hallowed, hdenied, hqualified⟩ := h
  simp only [HidesSpellings, Hides, Denies, Lists, hallowed, hdenied, hqualified] at hhides ⊢
  exact hhides

/-- A query for one field alone. -/
def fieldQuery (f : FieldPath) : Query := .comparison ⟨f, .eq, .null, false⟩

/-- A query for a denied field alone is rejected for the field. -/
theorem check_fieldQuery {f : FieldPath} (hform : p.allowQualified ∨ '.' ∉ f.text.toList)
    (hdenied : p.Denies f) : p.check schema (fieldQuery f) = .error .fieldAccess := by
  rw [check_eq_fieldAccess_iff, not_obeys_access_iff]
  refine ⟨hform.imp_right fun hplain c hc => ?_, _, List.mem_singleton_self _, .inl hdenied⟩
  rw [List.mem_singleton.mp hc]
  exact hplain

/-- The policy that says the same about fields, and nothing else. -/
def onlyFields : Policy :=
  { allowedFields := p.allowedFields
    deniedFields := p.deniedFields
    allowQualified := p.allowQualified
    deniedOperators := [] }

/-- That policy accepts a query for a field that may be queried. -/
theorem check_onlyFields {f : FieldPath} (hform : p.allowQualified ∨ '.' ∉ f.text.toList)
    (hshown : ¬ p.Hides schema f) : p.onlyFields.check schema (fieldQuery f) = .ok () := by
  have hfits : p.onlyFields.Fits .null := by
    refine ⟨rfl, fun s hs => ?_⟩
    cases hs
  exact check_comparison _ schema hform hshown List.not_mem_nil rfl (Nat.le_add_left 1 49) hfits rfl

/-- **Queries for denied fields are rejected in every spelling exactly if no spelling of a denied
field may be queried.**  This goes for all policies together that say the same about fields, and for
rejections for whatever reason.  It also goes for one policy and rejections for the same reason. -/
theorem check_respelled_iff :
    ((∀ (p' : Policy) (q q' : Query), p.SameFields p' → q.Respells q' →
        p'.check schema q = .error .fieldAccess → (∃ c ∈ q.leafComparisons, p'.Denies c.field) →
          ∃ e, p'.check schema q' = .error e) ↔ p.HidesSpellings schema) ∧
      ((∀ q q' : Query, q.Respells q' → p.check schema q = .error .fieldAccess →
        (∃ c ∈ q.leafComparisons, p.Denies c.field) → p.check schema q' = .error .fieldAccess) ↔
          p.HidesSpellings schema) := by
  constructor
  case left =>
    constructor
    · intro hrejects f g hfield hform hdenied
      by_cases hhidden : p.Hides schema g
      · exact hhidden
      · have hshown : p.onlyFields.check schema (fieldQuery g) = .ok () :=
          p.check_onlyFields schema (hform.imp_right (mt hfield.dot_iff.mpr)) hhidden
        obtain ⟨e, hrejected⟩ := hrejects p.onlyFields (fieldQuery f) (fieldQuery g) ⟨rfl, rfl, rfl⟩
          (.comparison hfield) (p.onlyFields.check_fieldQuery schema hform hdenied)
          ⟨_, List.mem_singleton_self _, hdenied⟩
        exact nomatch hshown.symm.trans hrejected
    · intro hhides p' q q' hsame hquery hcheck hdenied
      exact ⟨_, p'.check_respelled schema (hsame.hidesSpellings hhides) hquery hcheck hdenied⟩
  case right =>
    constructor
    · intro hrejects f g hfield hform hdenied
      have hother := hrejects (fieldQuery f) (fieldQuery g) (.comparison hfield)
        (p.check_fieldQuery schema hform hdenied) ⟨_, List.mem_singleton_self _, hdenied⟩
      rw [check_eq_fieldAccess_iff, not_obeys_access_iff] at hother
      obtain ⟨-, c, hc, hhidden⟩ := hother
      rw [List.mem_singleton.mp hc] at hhidden
      exact hhidden
    · exact fun hhides q q' hquery => p.check_respelled schema hhides hquery

/-- The field `password` is denied, and only `name` may be queried, in this spelling.  So a query
for `Password` is rejected, by this policy for the field, and by a policy that says the same about
fields for whatever is found first. -/
theorem check_respelled_listed :
    let p : Policy := (Policy.allowFields {} ["name"]).denyFields ["password"]
    let lower : FieldPath := ⟨"password", by decide⟩
    let mixed : FieldPath := ⟨"Password", by decide⟩
    p.HidesSpellings none ∧ p.check none (fieldQuery lower) = .error .fieldAccess ∧
      p.check none (fieldQuery mixed) = .error .fieldAccess ∧
      ∃ e, Policy.check { p with maxClauses := 0 } none (fieldQuery mixed) = .error e := by
  intro p lower mixed
  have hhides : p.HidesSpellings none := by
    intro f g hfield _ hdenied
    refine .inr ⟨⟨"name", List.mem_singleton_self _⟩, fun hlisted => ?_⟩
    have hname : g.text = "name" := List.mem_singleton.mp hlisted
    have hplain : '.' ∉ f.text.toList := by
      rw [hfield.dot_iff, hname]
      decide
    have hcolumn : f.column = f.text := by
      rw [FieldPath.column, lastSegment_of_not_mem hplain, String.ofList_toList]
    -- so the denied field is `password` itself, and no spelling of it is listed
    have hpassword : f.text.toList = "password".toList := by
      rcases hdenied with hpath | hpath | ⟨-, entry, hentry, hlast⟩
      · rw [List.mem_singleton.mp hpath]
      · rw [← hcolumn, List.mem_singleton.mp hpath]
      · rw [← hlast, List.mem_singleton.mp hentry]
        rfl
    rw [FieldPath.Respells, hpassword, hname] at hfield
    exact absurd hfield (by decide)
  have hspelling : (fieldQuery lower).Respells (fieldQuery mixed) :=
    .comparison (by rw [FieldPath.Respells]; decide)
  have hdenied : ∃ c ∈ (fieldQuery lower).leafComparisons, p.Denies c.field :=
    ⟨_, List.mem_singleton_self _, .inl (List.mem_singleton_self _)⟩
  have hlower : p.check none (fieldQuery lower) = .error .fieldAccess :=
    p.check_fieldQuery none (.inl rfl) (.inl (List.mem_singleton_self _))
  obtain ⟨hall, hone⟩ := p.check_respelled_iff none
  refine ⟨hhides, hlower, hone.mpr hhides _ _ hspelling hlower hdenied, ?_⟩
  exact hall.mpr hhides { p with maxClauses := 0 } _ _ ⟨rfl, rfl, rfl⟩ hspelling
    (check_fieldQuery _ none (.inl rfl) (.inl (List.mem_singleton_self _))) hdenied

/-- The field `password` is denied, and can be queried as `PASSWORD`, the name that stands in the
statement. -/
theorem check_denied_uppercase :
    let p : Policy := Policy.denyFields {} ["password"]
    let query (f : FieldPath) : Query := .comparison ⟨f, .eq, .text "x", true⟩
    let lower : FieldPath := ⟨"password", by decide⟩
    let upper : FieldPath := ⟨"PASSWORD", by decide⟩
    (query lower).Respells (query upper) ∧ p.Denies lower ∧
      p.check none (query lower) = .error .fieldAccess ∧ p.check none (query upper) = .ok () ∧
      ((Sql.Translator.translate { dialect := .postgres } (query upper)).toOption.map
        Sql.Fragment.sql) = some "lower(PASSWORD) = lower($1)" := by
  intro p query lower upper
  have hspelling : lower.Respells upper := by
    rw [FieldPath.Respells]
    decide
  have hlower : p.violation? none (query lower) = some .fieldAccess := by decide +kernel
  have hupper : p.violation? none (query upper) = none := by decide +kernel
  refine ⟨.comparison hspelling, .inl (List.mem_singleton_self _), ?_, ?_, by decide +kernel⟩
  · rw [check, hlower]
  · rw [check, hupper]

end Policy

end QueryFilter
