import QueryFilter.Compiler
import QueryFilter.Proofs.Policy.Validation
import QueryFilter.Proofs.Query.Induction
import QueryFilter.Proofs.Sql.Parameters

/-!
# What reaches the database is bounded

However a query is given, as a text or as a document, and whatever the policy is, what is compiled
from it has no more parameters than the policy's numbers of conditions and of values allow, and each
parameter is a scalar of a bounded length: `params_bounded`.  It does not matter by which reader the
text of a document is read.

Three stages have a part in this.  The readers never give a raw condition (`isRawFree_of_parse`,
`isRawFree_of_parseFilterWith`), so that every parameter comes from a comparison.  The check counts
every comparison and looks at every scalar of its value, and collapsing wildcards afterwards makes
no text longer (`fitsWhole_collapse`).  The translation binds no more than the scalars of a value,
or a pattern of its own making.
-/

namespace QueryFilter

/-! ## Readers give no raw conditions -/

namespace Query

theorem isKept_isRawFree : IsKept fun q => q.isRawFree where
  and hl hr := by rw [Query.and, isRawFree, hl, hr]; rfl
  or hl hr := by rw [Query.or, isRawFree, hl, hr]; rfl
  not hq := hq

theorem isRawFree_of_parse {text : String} {q : Query} (h : parse text = .ok q) : q.isRawFree :=
  parse_induction isKept_isRawFree (fun _ => rfl) h

theorem isRawFree_of_parseFilterWith {read? : String → Option Document} {text : String} {q : Query}
    (h : parseFilterWith read? text = .ok q) : q.isRawFree :=
  parseFilterWith_induction isKept_isRawFree (fun _ => rfl) h

end Query

/-! ## Collapsing wildcards -/

namespace Query

theorem isRawFree_collapse (q : Query) : q.collapse.isRawFree = q.isRawFree := by
  induction q with
  | comparison c => rfl
  | raw r => rfl
  | unary op q ih => exact ih
  | binary op l r ihl ihr => rw [collapse, isRawFree, isRawFree, ihl, ihr]

end Query

namespace Policy

variable (p : Policy)

theorem FitsWhole.length_parts_le {p : Policy} {v : Value} (h : p.FitsWhole v) :
    v.parts.length ≤ max 2 p.maxListLength := by
  cases v with
  | list items => exact Nat.le_trans (h.1 items rfl) (Nat.le_max_right _ _)
  | range low high closedLow closedHigh =>
      refine Nat.le_trans ?_ (Nat.le_max_left _ _)
      cases low <;> cases high <;> simp [Value.parts, Value.bounds]
  | null | bool | int | float | text => exact Nat.le_trans (Nat.le_succ 1) (Nat.le_max_left _ _)

/-- What a policy lets pass has no more comparisons than conditions are allowed, and their values
are not too large. -/
theorem fitsWhole_of_validate {schema : Option Schema} {q q' : Query}
    (h : p.validate schema q = .ok q') :
    q'.isRawFree = q.isRawFree ∧ q'.leafComparisons.length ≤ p.maxClauses ∧
      ∀ c ∈ q'.leafComparisons, p.FitsWhole c.value := by
  obtain ⟨hobeys, rfl⟩ := (p.validate_eq_ok schema).mp h
  have hclauses : q.leafComparisons.length ≤ p.maxClauses :=
    Nat.le_trans (q.length_leafComparisons_le 0) (hobeys .clauses)
  have hshapes : ∀ c ∈ q.leafComparisons, p.FitsWhole c.value := hobeys .shapes
  split
  · rw [Query.isRawFree_collapse, Query.leafComparisons_collapse, List.length_map]
    refine ⟨rfl, hclauses, fun c hc => ?_⟩
    obtain ⟨d, hd, rfl⟩ := List.mem_map.mp hc
    exact p.fitsWhole_collapse (hshapes d hd)
  · exact ⟨rfl, hclauses, hshapes⟩

end Policy

/-! ## Compiling -/

namespace Compiler

variable (c : Compiler)

theorem params_of_compileQuery {q : Query} (hraw : q.isRawFree) {x : Sql.Fragment}
    (h : c.compileQuery q = .ok x) :
    x.params.length ≤ c.policy.maxClauses * max 2 c.policy.maxListLength ∧
      ∀ v ∈ x.params, Sql.IsParameter v ∧
        ∀ s, v = .text s → s.length ≤ max c.policy.maxValueLength 300 := by
  obtain ⟨q', hvalidate, h⟩ := bind_eq_ok.mp h
  obtain ⟨hraw', hclauses, hfits⟩ :=
    c.policy.fitsWhole_of_validate (mapError_eq_ok.mp hvalidate)
  obtain ⟨pieces, hpieces, rfl⟩ := map_eq_ok.mp (mapError_eq_ok.mp h)
  rw [Sql.Translator.pieces_eq] at hpieces
  have hleaf : ∀ d ∈ q'.leafComparisons, ∀ pieces, c.translator.comparison d = .ok pieces →
      (∀ v ∈ Sql.Piece.values pieces, Sql.IsParameter v ∧
          ∀ s, v = .text s → s.length ≤ max c.policy.maxValueLength 300) ∧
        (Sql.Piece.values pieces).length ≤ max 2 c.policy.maxListLength := by
    intro d hd pieces hpieces
    have hbinds := c.translator.binds_of_comparison hpieces
    refine ⟨fun v hv => ⟨hbinds.isParameter v hv, ?_⟩,
      Nat.le_trans hbinds.length_le (hfits d hd).length_parts_le⟩
    rintro s rfl
    rcases hbinds.origin _ hv with hpart | ⟨s', hs', hlength⟩
    · exact Nat.le_trans (((hfits d hd).2 _ hpart).2 s rfl) (Nat.le_max_left _ _)
    · cases hs'
      exact Nat.le_trans hlength (Nat.le_max_right _ _)
  obtain ⟨hparams, hlength⟩ :=
    c.translator.parameters_of_piecesAt (hraw'.trans hraw) hleaf hpieces
  exact ⟨Nat.le_trans hlength (Nat.mul_le_mul_right _ hclauses), hparams⟩

/-- **What is compiled is bounded.**  If a text or a document is compiled, the number of parameters
is at most the number of conditions that the policy allows times the number of values that it allows
in a list, which counts as two if it is less.  Every parameter is a scalar and not null, no number
among them is an infinity or NaN, and no text is longer than the policy allows or than a pattern of
the database can get. -/
theorem params_bounded (read? : String → Option Document) (text : String) (x : Sql.Fragment)
    (h : c.compileText text = .ok x ∨ c.compileFilterWith read? text = .ok x) :
    x.params.length ≤ c.policy.maxClauses * max 2 c.policy.maxListLength ∧
      ∀ v ∈ x.params, v.isScalar ∧ v ≠ .null ∧ (∀ y, v = .float y → Number.isFinite y) ∧
        ∀ s, v = .text s → s.length ≤ max c.policy.maxValueLength 300 := by
  obtain ⟨q, hraw, hcompile⟩ : ∃ q, Query.isRawFree q ∧ c.compileQuery q = .ok x := by
    rcases h with h | h
    · obtain ⟨q, hq, h⟩ := bind_eq_ok.mp h
      exact ⟨q, Query.isRawFree_of_parse (mapError_eq_ok.mp hq), h⟩
    · obtain ⟨q, hq, h⟩ := bind_eq_ok.mp h
      exact ⟨q, Query.isRawFree_of_parseFilterWith (mapError_eq_ok.mp hq), h⟩
  obtain ⟨hlength, hparams⟩ := c.params_of_compileQuery hraw hcompile
  refine ⟨hlength, fun v hv => ?_⟩
  obtain ⟨hparameter, hshort⟩ := hparams v hv
  exact ⟨hparameter.scalar, fun hnull => absurd (hnull ▸ hparameter.notNull) (by decide),
    hparameter.finite, hshort⟩

/-- A pattern of four characters is written with seven under a policy that allows four, though one
of its wildcards is left out.  The same query comes as a text and as a document. -/
theorem params_bounded_pattern :
    let c : Compiler :=
      { policy := { maxClauses := 2, maxListLength := 0, maxValueLength := 4 }
        schema := none
        translator := { dialect := .sqlite } }
    let text := "tag:\\[\\[** AND age:[1 TO 5]"
    let document := "\x7b\"tag\":\x7b\"$like\":\"[[**\"\x7d,\"age\":\x7b\"$between\":[1,5]\x7d\x7d"
    let read? (s : String) : Option Document :=
      if s = document then some (.object
        [("age", .object [("$between", .array [.integer 1, .integer 5])]),
          ("tag", .object [("$like", .string "[[**")])])
      else none
    ∃ x y, c.compileText text = .ok x ∧ c.compileFilterWith read? document = .ok y ∧
      x.sql = "(tag GLOB ?1) AND (age >= ?2 AND age <= ?3)" ∧
      y.sql = "(age >= ?1 AND age <= ?2) AND (tag GLOB ?3)" ∧
      x.params.map Value.text? = [some "[[][[]*", none, none] ∧
      y.params.map Value.text? = [none, none, some "[[][[]*"] ∧
      ∀ z ∈ [x, y], z.params.length ≤ 4 ∧ ∀ v ∈ z.params, v.isScalar ∧ v ≠ .null ∧
        (∀ w, v = .float w → Number.isFinite w) ∧ ∀ s, v = .text s → s.length ≤ 300 := by
  intro c text document read?
  let answer (x : Sql.Fragment) := (x.sql, x.params.map Value.text?)
  have htext : (c.compileText text).toOption.map answer =
      some ("(tag GLOB ?1) AND (age >= ?2 AND age <= ?3)", [some "[[][[]*", none, none]) := by
    decide +kernel
  have hdocument : (c.compileFilterWith read? document).toOption.map answer =
      some ("(age >= ?1 AND age <= ?2) AND (tag GLOB ?3)", [none, none, some "[[][[]*"]) := by
    decide +kernel
  obtain ⟨x, hx, hanswer⟩ := exists_ok_of_toOption_map htext
  obtain ⟨y, hy, hanswer'⟩ := exists_ok_of_toOption_map hdocument
  obtain ⟨hsql, hparams⟩ := Prod.mk.inj hanswer
  obtain ⟨hsql', hparams'⟩ := Prod.mk.inj hanswer'
  refine ⟨x, y, hx, hy, hsql, hsql', hparams, hparams', fun z hz => ?_⟩
  rcases List.mem_pair.mp hz with rfl | rfl
  · exact c.params_bounded read? text z (.inl hx)
  · exact c.params_bounded read? document z (.inr hy)

end Compiler

end QueryFilter
