import QueryFilter.Compiler
import QueryFilter.Proofs.Policy.Rules
import QueryFilter.Proofs.Steps

/-!
# Field rejections disclose nothing

Whoever may send queries and read the errors must not learn from them which fields there are.  A
field that is denied and a field that does not exist are refused alike (`Policy.Hides`), and a query
with such a field is answered with one error, whatever else is wrong with it: the operators and
values that it has, its size and its patterns are looked at later, and so is the translation.

So two queries with hidden fields get the same answer, in whichever form they come
(`Compiler.answers_alike`).  Names with a table are the exception if the policy does not allow them,
since qualification is checked before field access.
-/

namespace QueryFilter

namespace Compiler

variable (c : Compiler)

/-- The answers to a query in each of its forms: a text that reads as the query, the text of a
document that does, by whatever reader of such texts, and the query itself. -/
inductive Answers (q : Query) : Except CompileError Sql.Fragment → Prop
  | text {s : String} (h : Query.parse s = .ok q) : Answers q (c.compileText s)
  | filter {read? : String → Option Document} {s : String}
    (h : Query.parseFilterWith read? s = .ok q) : Answers q (c.compileFilterWith read? s)
  | query : Answers q (c.compileQuery q)

/-- Reading leaves no trace: the answer to a query does not depend on the form. -/
theorem Answers.eq {c : Compiler} {q : Query} {answer : Except CompileError Sql.Fragment}
    (h : c.Answers q answer) : answer = c.compileQuery q := by
  cases h with
  | text h =>
      rw [compileText, h]
      rfl
  | filter h =>
      rw [compileFilterWith, h]
      rfl
  | query => rfl

/-- The answer is that a field is not available exactly if one is hidden and all names have a form
that is allowed. -/
theorem compileQuery_eq_fieldAccess_iff (q : Query) :
    c.compileQuery q = .error (.rejected .fieldAccess) ↔
      c.policy.Obeys c.schema q .qualification ∧
        ∃ d ∈ q.leafComparisons, c.policy.Hides c.schema d.field := by
  rw [← Policy.not_obeys_access_iff, ← Policy.check_eq_fieldAccess_iff]
  unfold compileQuery Policy.validate
  cases c.policy.check c.schema q with
  | error v =>
      constructor
      · rintro ⟨⟩
        rfl
      · rintro ⟨⟩
        rfl
  | ok =>
      -- what fails after the check is the translation
      refine ⟨fun h => ?_, nofun⟩
      obtain ⟨e, -, he⟩ := mapError_eq_error.mp h
      cases he

/-- **Field rejections disclose nothing.**  Two queries that each have a comparison with a hidden
field, be it denied or not listed, get the same answer, with the same code and the same message,
whatever form they have and whatever else is in them.  If the policy does not allow names with a
table, there is none in either query. -/
theorem answers_alike (q q' : Query) (answer answer' : Except CompileError Sql.Fragment)
    (h : c.Answers q answer) (h' : c.Answers q' answer')
    (hhidden : ∃ d ∈ q.leafComparisons, c.policy.Hides c.schema d.field)
    (hhidden' : ∃ d ∈ q'.leafComparisons, c.policy.Hides c.schema d.field)
    (hform : c.policy.allowQualified ∨
      ∀ d ∈ q.leafComparisons ++ q'.leafComparisons, '.' ∉ d.field.text.toList) :
    ∃ e, answer = .error e ∧ answer' = .error e ∧ e = .rejected .fieldAccess ∧
      e.message = "query references a field that is not available" := by
  have hanswer : c.compileQuery q = .error (.rejected .fieldAccess) :=
    (c.compileQuery_eq_fieldAccess_iff q).mpr
      ⟨hform.imp_right fun hplain d hd => hplain d (List.mem_append_left _ hd), hhidden⟩
  have hanswer' : c.compileQuery q' = .error (.rejected .fieldAccess) :=
    (c.compileQuery_eq_fieldAccess_iff q').mpr
      ⟨hform.imp_right fun hplain d hd => hplain d (List.mem_append_right _ hd), hhidden'⟩
  rw [h.eq, h'.eq, hanswer, hanswer']
  exact ⟨_, rfl, rfl, rfl, rfl⟩

/-- A denied field is next to one that may be queried, and an unknown field below connectives that
are too many, with an operator and a value that are denied as well. -/
theorem answers_alike_unknown :
    let policy := ((Policy.allowFields {} ["id", "secret"]).denyFields ["secret"]).denyValues "name"
      [.text "a+"]
    let c : Compiler :=
      { policy := { policy with maxDepth := 1 }
        schema := none
        translator := { dialect := .sqlite } }
    let document := "\x7b\"$not\":\x7b\"$not\":\x7b\"name\":\x7b\"$regex\":\"a+\"\x7d\x7d\x7d\x7d"
    let read? (s : String) : Option Document :=
      if s = document then some (.object [("$not", .object [("$not", .object
        [("name", .object [("$regex", .string "a+")])])])])
      else none
    ∃ e, c.compileText "id:5 secret:1" = .error e ∧ c.compileFilterWith read? document = .error e ∧
      e = .rejected .fieldAccess ∧
      e.message = "query references a field that is not available" := by
  intro policy c document read?
  let names (q : Query) : List String := q.leafComparisons.map fun d => d.field.text
  have htext : (Query.parse "id:5 secret:1").toOption.map names = some ["id", "secret"] := by
    decide +kernel
  have hdocument : (Query.parseFilterWith read? document).toOption.map names = some ["name"] := by
    decide +kernel
  obtain ⟨q, hq, hnames⟩ := exists_ok_of_toOption_map htext
  obtain ⟨q', hq', hnames'⟩ := exists_ok_of_toOption_map hdocument
  have hmem : ∀ (q : Query) (name : String), name ∈ names q →
      ∃ d ∈ q.leafComparisons, d.field.text = name := fun _ _ h => List.mem_map.mp h
  obtain ⟨d, hd, hname⟩ := hmem q "secret" (by rw [hnames]; decide)
  obtain ⟨d', hd', hname'⟩ := hmem q' "name" (by rw [hnames']; decide)
  have hdenied : c.policy.Denies d.field := .inl (by rw [hname]; decide)
  have hlists : ∀ name, c.policy.Lists c.schema name ↔ name ∈ ["id", "secret"] :=
    fun name => Iff.rfl
  have hunknown : c.policy.Hides c.schema d'.field := by
    refine .inr ⟨⟨"id", (hlists _).mpr (by decide)⟩, ?_⟩
    rw [hname', hlists]
    decide
  exact c.answers_alike q q' _ _ (.text hq) (.filter hq') ⟨d, hd, .inl hdenied⟩ ⟨d', hd', hunknown⟩
    (.inl rfl)

end Compiler

end QueryFilter
