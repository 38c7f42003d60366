import QueryFilter.Proofs.Policy.Coverage
import QueryFilter.Proofs.Policy.Validation
import QueryFilter.Proofs.Text.Lowercase

/-!
# Denied texts in other letter case

A comparison may disregard case in two ways: it is a test for equality with a word that was written
without quotes, or it is an `ILIKE` pattern, which tests for its own text if it has no wildcard
(`Comparison.IsCaseless`).  The check of denied values disregards case only in the first of them.
There a denied text is recognised in any case of its ASCII letters.  A pattern is recognised as what
it is, letter by letter, or as a number.

So a denied text is kept out in every case exactly where it is not asked for by a pattern, or where
the pattern is itself denied in its own letters (`Policy.check_caseless_iff`).

Texts that differ in the case of ASCII letters have one lower-case form (`Text.lowercase_congr`), by
which an equality recognises them.  A pattern that is not recognised is let pass by a policy that
denies the same values and nothing else (`check_onlyValues_comparison`).
-/

namespace QueryFilter

/-! ## Comparisons that disregard case -/

/-- A comparison asks for a text without regard to case: as an equality that disregards case, or as
a pattern of that kind without wildcards. -/
def Comparison.IsCaseless (c : Comparison) (s : String) : Prop :=
  c.value = .text s ∧ (c.ignoreCase ∧ c.operator.isEquality ∨
    c.operator = .ilike ∧ ∀ d ∈ s.toList, ¬ isWildcard d)

theorem Comparison.IsCaseless.plain_of_ilike {c : Comparison} {s : String} (h : c.IsCaseless s)
    (hilike : c.operator = .ilike) : ∀ d ∈ s.toList, ¬ isWildcard d := by
  rcases h.2 with ⟨-, hequality⟩ | ⟨-, hplain⟩
  · rw [hilike] at hequality
    exact nomatch hequality
  · exact hplain

/-- Where case is disregarded, a text is recognised in any case of its letters. -/
theorem Value.looselyEqual_of_alike {s d : String}
    (halike : s.toList.map Char.toLower = d.toList.map Char.toLower) :
    (Value.text s).looselyEqual true (.text d) := by
  simp [looselyEqual, sameLowercase, Text.lowercase_congr halike]

/-- A text without wildcards is not too complex a pattern. -/
theorem Pattern.excess?_of_plain {s : List Char} (hplain : ∀ c ∈ s, ¬ isWildcard c) :
    excess? s = none := by
  have halternations : alternationsAfter false s = 0 := by
    induction s with
    | nil => rfl
    | cons c s ih =>
        obtain ⟨hc, hs⟩ := List.forall_mem_cons.mp hplain
        rw [alternationsAfter, if_neg hc, ih hs]
        rfl
  rw [Policy.excess?_eq_none_iff, alternationCount, halternations, wildcardCount,
    List.countP_eq_zero.mpr hplain]
  exact ⟨Nat.zero_le 4, Nat.zero_le 10⟩

namespace Policy

variable (p : Policy) {c : Comparison} {s d : String}

/-- A text is refused if it is recognised as a denied value of the field. -/
theorem refusesValue_of_text (hvalue : c.value = .text s) : p.refusesValue c ↔
    ∃ d' ∈ p.deniedValuesOf c.field, (Value.text s).looselyEqual c.foldsCase d' := by
  rw [refusesValue, hvalue, Value.parts_of_isScalar rfl]
  simp

/-- A query with a value that is refused is rejected. -/
theorem exists_error_of_refusesValue (schema : Option Schema) {q : Query}
    (hc : c ∈ q.leafComparisons) (hrefused : p.refusesValue c) :
    ∃ e, p.check schema q = .error e := by
  cases hcheck : p.check schema q with
  | error e => exact ⟨e, rfl⟩
  | ok =>
      have hobeys := (p.check_eq_ok_iff schema q).mp hcheck .values
      have hclear := (p.obeys_values_iff schema).mp hobeys c hc
      exact nomatch hclear.symm.trans hrefused

/-- Equalities disregard case where they are told to, and patterns do not. -/
theorem foldsCase_of_isCaseless (hcaseless : c.IsCaseless s) :
    c.foldsCase = true ↔ c.operator ≠ .ilike := by
  obtain ⟨hvalue, ⟨hignore, hequality⟩ | ⟨hilike, -⟩⟩ := hcaseless
  · have hne : c.operator ≠ .ilike := fun hilike => by simp [hilike, Operator.isEquality] at hequality
    simp [Comparison.foldsCase, hignore, hequality, hvalue, Value.text?, hne]
  · simp [Comparison.foldsCase, hilike, Operator.isEquality]

/-- **A denied text is kept out in every letter case exactly where it is not asked for by a
pattern**, or where the pattern is recognised with regard to case.  A comparison that asks for it
without regard to case is rejected wherever it stands, and whatever else the policy says, under just
that condition. -/
theorem check_caseless_iff (hcaseless : c.IsCaseless s)
    (hdenied : .text d ∈ p.deniedValuesOf c.field)
    (halike : s.toList.map Char.toLower = d.toList.map Char.toLower) :
    (∀ (p' : Policy) (schema : Option Schema) (q : Query), p'.deniedValues = p.deniedValues →
        c ∈ q.leafComparisons → ∃ e, p'.check schema q = .error e) ↔
      (c.operator = .ilike →
        ∃ d' ∈ p.deniedValuesOf c.field, (Value.text s).looselyEqual false d') := by
  have hvalue := hcaseless.1
  have hcase := foldsCase_of_isCaseless hcaseless
  constructor
  · intro hrejects hilike
    by_contra hnone
    -- the pattern passes where nothing else is denied
    have hscalar : c.value.isScalar := hvalue ▸ rfl
    have hexact : c.foldsCase = false := by
      rw [← Bool.not_eq_true, hcase]
      exact fun hne => hne hilike
    have hpattern : patternViolation? c = none := by
      rw [patternViolation?, patternOf?_eq_some_iff.mpr ⟨.inr hilike, hvalue⟩, Option.bind_some,
        Pattern.excess?_of_plain (hcaseless.plain_of_ilike hilike)]
    have hclear : p.refusesValue c = false := by
      rw [← Bool.not_eq_true, p.refusesValue_of_text hvalue, hexact]
      exact hnone
    have hcheck := p.check_onlyValues_comparison hscalar hpattern hclear
    obtain ⟨e, hrejected⟩ := hrejects (p.onlyValues c.value) none (.comparison c) rfl
      (List.mem_singleton_self c)
    rw [hcheck] at hrejected
    cases hrejected
  · intro hrecognised p' schema q hsame hc
    have hvalues : p'.deniedValuesOf c.field = p.deniedValuesOf c.field := by
      rw [deniedValuesOf, hsame, deniedValuesOf]
    refine p'.exists_error_of_refusesValue schema hc ?_
    rw [p'.refusesValue_of_text hvalue, hvalues]
    by_cases hilike : c.operator = .ilike
    · obtain ⟨d', hd', hloose⟩ := hrecognised hilike
      exact ⟨d', hd', Value.looselyEqual_of_exact hloose _⟩
    · refine ⟨.text d, hdenied, ?_⟩
      rw [hcase.mpr hilike]
      exact Value.looselyEqual_of_alike halike

/-- The value `admin` is denied, and so a field cannot be compared with the word `ADMIN`, in
whatever query the comparison stands. -/
theorem check_caseless_word :
    let p : Policy := Policy.denyValues {} "role" [.text "admin"]
    let c : Comparison := ⟨⟨"role", by decide⟩, .ne, .text "ADMIN", true⟩
    c.IsCaseless "ADMIN" ∧ .text "admin" ∈ p.deniedValuesOf c.field ∧
      ∀ (schema : Option Schema) (q : Query), c ∈ q.leafComparisons → ∃ e, p.check schema q = .error e := by
  intro p c
  have hcaseless : c.IsCaseless "ADMIN" := ⟨rfl, .inl ⟨rfl, rfl⟩⟩
  have hdenied : .text "admin" ∈ p.deniedValuesOf c.field := by
    have hentry : p.deniedValuesOf c.field = [.text "admin"] := rfl
    rw [hentry]
    exact List.mem_singleton_self _
  have halike : "ADMIN".toList.map Char.toLower = "admin".toList.map Char.toLower := by decide
  have hrejects := (p.check_caseless_iff hcaseless hdenied halike).mpr nofun
  exact ⟨hcaseless, hdenied, fun schema q => hrejects p schema q rfl⟩

/-- The same policy accepts `ADMIN` as a pattern without regard to case, and rejects it as a
word. -/
theorem check_caseless_pattern :
    let p : Policy := Policy.denyValues {} "role" [.text "admin"]
    let role : FieldPath := ⟨"role", by decide⟩
    let pattern : Comparison := ⟨role, .ilike, .text "ADMIN", false⟩
    let word : Comparison := ⟨role, .eq, .text "ADMIN", true⟩
    pattern.IsCaseless "ADMIN" ∧ word.IsCaseless "ADMIN" ∧
      p.deniedValues.get? "role" = some [.text "admin"] ∧
      "ADMIN".toList.map Char.toLower = "admin".toList.map Char.toLower ∧
      p.check none (.comparison pattern) = .ok () ∧
      p.check none (.comparison word) = .error .deniedValue := by
  intro p role pattern word
  have hplain : ∀ d ∈ "ADMIN".toList, ¬ isWildcard d := by simp [isWildcard]
  obtain ⟨hpattern, hword⟩ : p.violation? none (.comparison pattern) = none ∧
      p.violation? none (.comparison word) = some .deniedValue := by decide +kernel
  refine ⟨⟨rfl, .inr ⟨rfl, hplain⟩⟩, ⟨rfl, .inl ⟨rfl, rfl⟩⟩, rfl, by decide, ?_, ?_⟩
  · rw [check, hpattern]
  · rw [check, hword]

end Policy

end QueryFilter
