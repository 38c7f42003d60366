import Mathlib.Data.List.Forall2
import QueryFilter.Proofs.Sql.Alphabet

/-!
# Values have no say in the text of a condition

Two trees that differ only in what their values hold (`Query.SameShape`) have the same text
whenever both can be translated, and whatever the text of a tree without raw conditions is, it is
made of a small alphabet and the fixed `ESCAPE` clause: `sql_noninterference`.

The two runs are followed side by side through `piecesAt`.  Their pieces have the same outline,
because the outline of a condition is a function of the operator and of the kind of its value
(`conditionOutline_congr`).
-/

namespace QueryFilter

/-! ## Values and trees of the same shape -/

/-- Two values that may differ in what they hold, and in nothing else: they are of one kind, their
lists have the same length, and their ranges have the same bounds open and the same ends closed. -/
inductive Value.SameKind : Value → Value → Prop
  | null : SameKind null null
  | bool (a b : Bool) : SameKind (bool a) (bool b)
  | int (a b : Int64) : SameKind (int a) (int b)
  | float (a b : Float) : SameKind (float a) (float b)
  | text (a b : String) : SameKind (text a) (text b)
  | list {as bs : List Value} (items : List.Forall₂ SameKind as bs) : SameKind (list as) (list bs)
  | range {low low' high high' : Option Value} (closedLow closedHigh : Bool)
      (lows : Option.Rel SameKind low low') (highs : Option.Rel SameKind high high') :
      SameKind (range low high closedLow closedHigh) (range low' high' closedLow closedHigh)

/-- Two trees with the same connectives, fields, operators and case flags, whose values are of the
same kind at each place. -/
inductive Query.SameShape : Query → Query → Prop
  | comparison (field : FieldPath) (operator : Operator) (ignoreCase : Bool) {v w : Value}
      (values : v.SameKind w) :
      SameShape (comparison ⟨field, operator, v, ignoreCase⟩)
        (comparison ⟨field, operator, w, ignoreCase⟩)
  | unary (op : Connective) {q q' : Query} (operands : SameShape q q') :
      SameShape (unary op q) (unary op q')
  | binary (op : Connective) {l l' r r' : Query} (lefts : SameShape l l')
      (rights : SameShape r r') : SameShape (binary op l r) (binary op l' r')

namespace Sql.Translator

variable (t : Translator)

theorem conditionOutline_congr (field : String) (operator : Operator) {v w : Value}
    (h : v.SameKind w) :
    t.conditionOutline field operator v = t.conditionOutline field operator w := by
  cases h with
  | null => rfl
  | bool a b => cases operator <;> rfl
  | int a b => cases operator <;> rfl
  | float a b => cases operator <;> rfl
  | text a b => cases operator <;> rfl
  | list items => cases operator <;> simp [conditionOutline, items.length_eq]
  | range closedLow closedHigh lows highs =>
      cases lows <;> cases highs <;> cases operator <;> rfl

theorem foldsCase_congr (field : FieldPath) (operator : Operator) (ignoreCase : Bool) {v w : Value}
    (h : v.SameKind w) :
    Comparison.foldsCase ⟨field, operator, v, ignoreCase⟩ =
      Comparison.foldsCase ⟨field, operator, w, ignoreCase⟩ := by
  cases h <;> rfl

/-- Two trees of the same shape have the same outline wherever they stand. -/
theorem outlines_eq_of_sameShape {q q' : Query} (hshape : q.SameShape q') {ancestors : Nat}
    {pieces pieces' : List Piece} (h : t.piecesAt ancestors q = .ok pieces)
    (h' : t.piecesAt ancestors q' = .ok pieces') : outlines pieces = outlines pieces' := by
  induction hshape generalizing ancestors pieces pieces' with
  | comparison field operator ignoreCase values =>
      obtain ⟨name, hname, houtlines⟩ :=
        t.outlines_of_comparison (t.piecesAt_comparison_eq_ok.mp h).2
      obtain ⟨name', hname', houtlines'⟩ :=
        t.outlines_of_comparison (t.piecesAt_comparison_eq_ok.mp h').2
      have hsame : name = name' := Except.ok.inj (hname.symm.trans hname')
      rw [houtlines, houtlines', ← hsame, comparisonOutline, comparisonOutline,
        foldsCase_congr field operator ignoreCase values,
        t.conditionOutline_congr name operator values]
  | unary op operands ih =>
      obtain ⟨-, -, inner, hinner, rfl⟩ := t.piecesAt_unary_eq_ok.mp h
      obtain ⟨-, -, inner', hinner', rfl⟩ := t.piecesAt_unary_eq_ok.mp h'
      simp [ih hinner hinner']
  | binary op lefts rights ihl ihr =>
      obtain ⟨-, -, left, right, hleft, hright, rfl⟩ := t.piecesAt_binary_eq_ok.mp h
      obtain ⟨-, -, left', right', hleft', hright', rfl⟩ := t.piecesAt_binary_eq_ok.mp h'
      simp [ihl hleft hleft', ihr hright hright']

theorem sql_eq_of_sameShape {q q' : Query} (hshape : q.SameShape q') {x y : Fragment}
    (hx : t.translate q = .ok x) (hy : t.translate q' = .ok y) : x.sql = y.sql := by
  obtain ⟨pieces, h, rfl⟩ := map_eq_ok.mp hx
  obtain ⟨pieces', h', rfl⟩ := map_eq_ok.mp hy
  rw [pieces_eq] at h h'
  exact congrArg String.join
    (numbered_eq_of_outlines_eq t.dialect (t.outlines_eq_of_sameShape hshape h h') 1)

/-- **Values have no say in the text.**  Trees that differ only in what their values hold have the
same text, and the text of a tree without raw conditions is made of statement characters once every
escape clause is taken out. -/
theorem sql_noninterference :
    (∀ (q q' : Query) (x y : Fragment), q.SameShape q' → t.translate q = .ok x →
      t.translate q' = .ok y → x.sql = y.sql) ∧
    ∀ (q : Query) (x : Fragment), q.isRawFree → t.translate q = .ok x →
      ∀ c ∈ removeAll escapeClause 0 x.sql.toList, isStatementChar c :=
  ⟨fun _ _ _ _ hshape hx hy => t.sql_eq_of_sameShape hshape hx hy,
    fun _ _ hraw hx => forall_isStatementChar_removeAll (t.written_sql hraw hx)⟩

/-- A pattern and a bound that try to break out leave the text as it is for harmless ones. -/
theorem sql_noninterference_breakout :
    let t : Translator := { dialect := .sqlite, quoteIdentifiers := true }
    let query (pattern : String) (bound : Value) : Query :=
      .and (.comparison ⟨⟨"name", by decide⟩, .ilike, .text pattern, false⟩)
        (.comparison ⟨⟨"t.age", by decide⟩, .between, .range (some bound) none true false, false⟩)
    let sql := "(\"name\" LIKE ?1 ESCAPE '\\') AND (\"t\".\"age\" >= ?2)"
    (∃ x y, t.translate (query "a*" (.text "1")) = .ok x ∧
      t.translate (query "' OR 1 = 1 --" (.text "x') --")) = .ok y ∧ x.sql = sql ∧ y.sql = sql) ∧
    ∀ c ∈ removeAll escapeClause 0 sql.toList, isStatementChar c := by
  intro t query sql
  have hx : t.translate (query "a*" (.text "1")) = .ok ⟨sql, [.text "a%", .text "1"]⟩ := by
    rw [translate, pieces_eq]
    with_unfolding_all rfl
  have hy : ∃ y, t.translate (query "' OR 1 = 1 --" (.text "x') --")) = .ok y := by
    rw [translate, pieces_eq]
    exact ⟨_, by with_unfolding_all rfl⟩
  obtain ⟨y, hy⟩ := hy
  have hshape : (query "a*" (.text "1")).SameShape (query "' OR 1 = 1 --" (.text "x') --")) :=
    .binary _ (.comparison _ _ _ (.text _ _))
      (.comparison _ _ _ (.range _ _ (.some (.text _ _)) .none))
  have hsame := t.sql_noninterference.1 _ _ _ _ hshape hx hy
  exact ⟨⟨_, y, hx, hy, rfl, hsame.symm⟩, t.sql_noninterference.2 _ _ rfl hx⟩

end Sql.Translator

end QueryFilter
