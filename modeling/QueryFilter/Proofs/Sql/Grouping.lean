import Mathlib
import QueryFilter.Proofs.Query.Leaves
import QueryFilter.Proofs.Sql.Balance

/-!
# A condition can be read in one way only

Two trees with the same condition have the same connectives in the same places and join the same
texts with them: `sql_determines_grouping`.  So the database groups a condition as the tree does.

## Strategy

Operands stand in parentheses, and the parentheses of the text of a tree match (`balanced_written`).
So the parenthesis that closes an operand is found in one way.

What is left is to tell nodes apart by how they open (`operandCount_written`).  A junction opens
with a parenthesis and a negation with `NOT (`.  A leaf opens with a name and a blank that no
parenthesis follows.  The `AND` between the bounds of a range stands inside a leaf, where no
parenthesis has been closed.
-/

namespace QueryFilter

/-! ## Skeletons -/

/-- The connectives of a tree, with a place for each condition that they join. -/
inductive Skeleton where
  | leaf
  | unary (op : Connective) (operand : Skeleton)
  | binary (op : Connective) (left right : Skeleton)

/-- The skeleton of a tree. -/
def Query.skeleton : Query → Skeleton
  | comparison _ | raw _ => .leaf
  | unary op q => .unary op q.skeleton
  | binary op l r => .binary op l.skeleton r.skeleton

namespace Sql

/-! ## Texts of trees -/

/-- The text of some pieces behind `k` parameters. -/
def writtenBehind (d : Dialect) (k : Nat) (pieces : List Piece) : List Char :=
  (Fragment.behind d k pieces).sql.toList

theorem writtenBehind_negation (d : Dialect) (k : Nat) (pieces : List Piece) :
    writtenBehind d k (.text "NOT (" :: pieces ++ [.text ")"]) =
      "NOT ".toList ++ ('(' :: writtenBehind d k pieces ++ [')']) := by
  rw [writtenBehind, Fragment.behind_enclosed, String.toList_append, String.toList_append]
  rfl

namespace Translator

variable (t : Translator)

/-- What stands between the operands of a connective, without the parentheses around it. -/
def junctionWord (op : Connective) : List Char :=
  if op = .and then " AND ".toList else " OR ".toList

theorem writtenBehind_junction (d : Dialect) (k : Nat) (op : Connective) (left right : List Piece) :
    writtenBehind d k (.text "(" :: left ++ .text (junction op) :: right ++ [.text ")"]) =
      ('(' :: writtenBehind d k left ++ [')']) ++ junctionWord op ++
        ('(' :: writtenBehind d (k + (Piece.values left).length) right ++ [')']) := by
  have hjunction : (junction op).toList = ')' :: junctionWord op ++ ['('] := by cases op <;> rfl
  rw [writtenBehind, Fragment.behind_joined]
  simp only [String.toList_append, hjunction, List.append_assoc, List.cons_append, List.nil_append]
  rfl

/-- The text of a junction tells its operands and its connective, if the parentheses of the left
operand match. -/
theorem eq_of_writtenBehind_junction {d : Dialect} {k k' : Nat} {op op' : Connective}
    (hop : op ≠ .not) (hop' : op' ≠ .not) {left right left' right' : List Piece}
    (hleft : Balanced (writtenBehind d k left)) (hleft' : Balanced (writtenBehind d k' left'))
    (htext : writtenBehind d k (.text "(" :: left ++ .text (junction op) :: right ++ [.text ")"]) =
      writtenBehind d k' (.text "(" :: left' ++ .text (junction op') :: right' ++ [.text ")"])) :
    writtenBehind d k left = writtenBehind d k' left' ∧ op = op' ∧
      writtenBehind d (k + (Piece.values left).length) right =
        writtenBehind d (k' + (Piece.values left').length) right' := by
  rw [writtenBehind_junction, writtenBehind_junction] at htext
  simp only [List.append_assoc, List.cons_append, List.nil_append] at htext
  -- the parenthesis that closes the left operand, and then the word behind it
  obtain ⟨hleftText, hrest⟩ := hleft.eq_of_append_close hleft' (List.cons.inj htext).2
  refine ⟨hleftText, ?_⟩
  cases op <;> cases op' <;> simp_all [junctionWord]

/-- The parentheses of the text of a tree match. -/
theorem balanced_written {q : Query} (hraw : q.isRawFree) {ancestors : Nat} (k : Nat)
    {pieces : List Piece} (h : t.piecesAt ancestors q = .ok pieces) :
    Balanced (writtenBehind t.dialect k pieces) := by
  induction q generalizing ancestors k pieces with
  | comparison c =>
      have hleaf := t.leafOutline_of_comparison (t.piecesAt_comparison_eq_ok.mp h).2
      exact fun depth => (depthAfter?_numbered _ _ _ _).trans (hleaf.balanced depth)
  | raw r => cases hraw
  | unary op q ih =>
      obtain ⟨-, -, inner, hinner, rfl⟩ := t.piecesAt_unary_eq_ok.mp h
      rw [writtenBehind_negation]
      exact Balanced.append (fun _ => rfl) (ih hraw k hinner).parenthesized
  | binary op l r ihl ihr =>
      obtain ⟨-, -, left, right, hleft, hright, rfl⟩ := t.piecesAt_binary_eq_ok.mp h
      rw [Query.isRawFree, Bool.and_eq_true] at hraw
      rw [writtenBehind_junction]
      have hword : Balanced (junctionWord op) := by cases op <;> exact fun _ => rfl
      exact ((ihl hraw.1 k hleft).parenthesized.append hword).append
        (ihr hraw.2 _ hright).parenthesized

/-- The text of a tree tells how many operands its root has. -/
theorem operandCount_written {q : Query} (hraw : q.isRawFree) {ancestors : Nat} (k : Nat)
    {pieces : List Piece} (h : t.piecesAt ancestors q = .ok pieces) :
    operandCount (writtenBehind t.dialect k pieces) = q.operands.length := by
  cases q with
  | comparison c =>
      have hleaf := t.leafOutline_of_comparison (t.piecesAt_comparison_eq_ok.mp h).2
      obtain ⟨s, rest, houtlines, hopens⟩ := hleaf.opens
      apply operandCount_of_opensLeaf
      cases pieces with
      | nil => cases houtlines
      | cons piece pieces =>
          cases piece with
          | value v => cases houtlines
          | text s' =>
              obtain ⟨hs, -⟩ := List.cons.inj houtlines
              obtain rfl := Option.some.inj hs
              rw [writtenBehind, Fragment.behind, Piece.numbered, String.join_cons,
                String.toList_append]
              exact hopens.append _
  | raw r => cases hraw
  | unary op q =>
      obtain ⟨-, -, inner, -, rfl⟩ := t.piecesAt_unary_eq_ok.mp h
      rw [writtenBehind_negation]
      rfl
  | binary op l r =>
      obtain ⟨-, -, left, right, -, -, rfl⟩ := t.piecesAt_binary_eq_ok.mp h
      rw [writtenBehind_junction]
      rfl

/-! ## Leaves -/

/-- The texts of conditions that follow one another, the first behind `k` parameters. -/
def textsBehind (k : Nat) : List (List Piece) → List String
  | [] => []
  | pieces :: others =>
    (Fragment.behind t.dialect k pieces).sql ::
      textsBehind (k + (Piece.values pieces).length) others

/-- The texts of the leaves of a tree from left to right, as they stand in its condition. -/
def leafTexts (q : Query) : Except TranslateError (List String) :=
  (q.leafComparisons.mapM t.comparison).map (t.textsBehind 0)

theorem textsBehind_append (k : Nat) (first second : List (List Piece)) :
    t.textsBehind k (first ++ second) =
      t.textsBehind k first ++ t.textsBehind (k + (first.flatMap Piece.values).length) second := by
  induction first generalizing k with
  | nil => rfl
  | cons pieces first ih =>
      rw [List.cons_append, textsBehind, textsBehind, ih, List.flatMap_cons, List.length_append,
        Nat.add_assoc, List.cons_append]

theorem mapM_leafComparisons_binary {op : Connective} {l r : Query} {lefts rights : List (List Piece)}
    (hlefts : l.leafComparisons.mapM t.comparison = .ok lefts)
    (hrights : r.leafComparisons.mapM t.comparison = .ok rights) :
    (Query.binary op l r).leafComparisons.mapM t.comparison = .ok (lefts ++ rights) := by
  rw [Query.leafComparisons, List.mapM_append, hlefts, hrights]
  rfl

/-- The leaves of a tree that can be written can be written, and they have its parameters. -/
theorem exists_leaves {q : Query} (hraw : q.isRawFree) {ancestors : Nat} {pieces : List Piece}
    (h : t.piecesAt ancestors q = .ok pieces) :
    ∃ leaves, q.leafComparisons.mapM t.comparison = .ok leaves ∧
      leaves.flatMap Piece.values = Piece.values pieces := by
  induction q generalizing ancestors pieces with
  | comparison c =>
      have hc := (t.piecesAt_comparison_eq_ok.mp h).2
      refine ⟨[pieces], ?_, List.append_nil _⟩
      rw [Query.leafComparisons, List.mapM_cons, hc]
      rfl
  | raw r => cases hraw
  | unary op q ih =>
      obtain ⟨-, -, inner, hinner, rfl⟩ := t.piecesAt_unary_eq_ok.mp h
      obtain ⟨leaves, hleaves, hvalues⟩ := ih hraw hinner
      exact ⟨leaves, hleaves, by simp [hvalues]⟩
  | binary op l r ihl ihr =>
      obtain ⟨-, -, left, right, hleft, hright, rfl⟩ := t.piecesAt_binary_eq_ok.mp h
      rw [Query.isRawFree, Bool.and_eq_true] at hraw
      obtain ⟨lefts, hlefts, hleftValues⟩ := ihl hraw.1 hleft
      obtain ⟨rights, hrights, hrightValues⟩ := ihr hraw.2 hright
      exact ⟨lefts ++ rights, t.mapM_leafComparisons_binary hlefts hrights,
        by simp [hleftValues, hrightValues]⟩

/-- The leaves of a junction are those of its operands, and the left ones have the parameters of the
left operand. -/
theorem exists_leaves_binary {op : Connective} {l r : Query} (hraw : (Query.binary op l r).isRawFree)
    {ancestors : Nat} {left right : List Piece} (hleft : t.piecesAt ancestors l = .ok left)
    (hright : t.piecesAt ancestors r = .ok right) {leaves : List (List Piece)}
    (hleaves : (Query.binary op l r).leafComparisons.mapM t.comparison = .ok leaves) :
    ∃ lefts rights, l.leafComparisons.mapM t.comparison = .ok lefts ∧
      r.leafComparisons.mapM t.comparison = .ok rights ∧ leaves = lefts ++ rights ∧
      lefts.flatMap Piece.values = Piece.values left := by
  rw [Query.isRawFree, Bool.and_eq_true] at hraw
  obtain ⟨lefts, hlefts, hvalues⟩ := t.exists_leaves hraw.1 hleft
  obtain ⟨rights, hrights, -⟩ := t.exists_leaves hraw.2 hright
  have hboth := hleaves.symm.trans (t.mapM_leafComparisons_binary hlefts hrights)
  exact ⟨lefts, rights, hlefts, hrights, Except.ok.inj hboth, hvalues⟩

/-! ## Reading a condition -/

/-- Trees with the same text have roots with the same number of operands. -/
theorem operands_length_eq {q q' : Query} (hraw : q.isRawFree) (hraw' : q'.isRawFree)
    {ancestors ancestors' k k' : Nat} {pieces pieces' : List Piece}
    (h : t.piecesAt ancestors q = .ok pieces) (h' : t.piecesAt ancestors' q' = .ok pieces')
    (htext : writtenBehind t.dialect k pieces = writtenBehind t.dialect k' pieces') :
    q.operands.length = q'.operands.length := by
  rw [← t.operandCount_written hraw k h, htext, t.operandCount_written hraw' k' h']

/-- Trees with the same text have the same connectives in the same places and join the same texts
with them, wherever in a condition the trees stand. -/
theorem reads_once {q q' : Query} (hraw : q.isRawFree) (hraw' : q'.isRawFree)
    {ancestors ancestors' k k' : Nat} {pieces pieces' : List Piece}
    (h : t.piecesAt ancestors q = .ok pieces) (h' : t.piecesAt ancestors' q' = .ok pieces')
    {leaves leaves' : List (List Piece)} (hleaves : q.leafComparisons.mapM t.comparison = .ok leaves)
    (hleaves' : q'.leafComparisons.mapM t.comparison = .ok leaves')
    (htext : writtenBehind t.dialect k pieces = writtenBehind t.dialect k' pieces') :
    q.skeleton = q'.skeleton ∧ t.textsBehind k leaves = t.textsBehind k' leaves' := by
  induction q generalizing q' ancestors ancestors' k k' pieces pieces' leaves leaves' with
  | raw r => cases hraw
  | comparison c =>
      have hcount := t.operands_length_eq hraw hraw' h h' htext
      cases q' with
      | raw r => cases hraw'
      | unary op q' => cases hcount
      | binary op l r => cases hcount
      | comparison c' =>
          have hc := (t.piecesAt_comparison_eq_ok.mp h).2
          have hc' := (t.piecesAt_comparison_eq_ok.mp h').2
          rw [Query.leafComparisons, List.mapM_cons, hc] at hleaves
          rw [Query.leafComparisons, List.mapM_cons, hc'] at hleaves'
          cases hleaves
          cases hleaves'
          exact ⟨rfl, congrArg ([·]) (String.toList_injective htext)⟩
  | unary op q ih =>
      have hcount := t.operands_length_eq hraw hraw' h h' htext
      cases q' with
      | raw r => cases hraw'
      | comparison c => cases hcount
      | binary op l r => cases hcount
      | unary op' q' =>
          obtain ⟨-, rfl, inner, hinner, rfl⟩ := t.piecesAt_unary_eq_ok.mp h
          obtain ⟨-, rfl, inner', hinner', rfl⟩ := t.piecesAt_unary_eq_ok.mp h'
          rw [writtenBehind_negation, writtenBehind_negation] at htext
          have hoperand := (List.cons.inj (List.append_cancel_left htext)).2
          have hrawOperand' : q'.isRawFree := hraw'
          obtain ⟨hskeleton, htexts⟩ := ih hraw hrawOperand' hinner hinner' hleaves hleaves'
            (List.append_cancel_right hoperand)
          exact ⟨congrArg (Skeleton.unary .not) hskeleton, htexts⟩
  | binary op l r ihl ihr =>
      have hcount := t.operands_length_eq hraw hraw' h h' htext
      cases q' with
      | raw r => cases hraw'
      | comparison c => cases hcount
      | unary op q => cases hcount
      | binary op' l' r' =>
          obtain ⟨-, hop, left, right, hleft, hright, rfl⟩ := t.piecesAt_binary_eq_ok.mp h
          obtain ⟨-, hop', left', right', hleft', hright', rfl⟩ := t.piecesAt_binary_eq_ok.mp h'
          obtain ⟨lefts, rights, hlefts, hrights, rfl, hvalues⟩ :=
            t.exists_leaves_binary hraw hleft hright hleaves
          obtain ⟨lefts', rights', hlefts', hrights', rfl, hvalues'⟩ :=
            t.exists_leaves_binary hraw' hleft' hright' hleaves'
          rw [Query.isRawFree, Bool.and_eq_true] at hraw hraw'
          obtain ⟨hleftText, rfl, hrightText⟩ := eq_of_writtenBehind_junction hop hop'
            (t.balanced_written hraw.1 k hleft) (t.balanced_written hraw'.1 k' hleft') htext
          obtain ⟨hleftSkeleton, hleftTexts⟩ :=
            ihl hraw.1 hraw'.1 hleft hleft' hlefts hlefts' hleftText
          obtain ⟨hrightSkeleton, hrightTexts⟩ :=
            ihr hraw.2 hraw'.2 hright hright' hrights hrights' hrightText
          constructor
          · rw [Query.skeleton, Query.skeleton, hleftSkeleton, hrightSkeleton]
          · rw [textsBehind_append, textsBehind_append, hvalues, hvalues', hleftTexts,
              hrightTexts]

/-- **A condition is grouped in one way only.**  Trees without raw conditions that are translated
into the same text have the same connectives in the same places, and the same texts of their leaves
from left to right.  No leaf has the text of a connective. -/
theorem sql_determines_grouping :
    (∀ (q q' : Query) (x y : Fragment), q.isRawFree → q'.isRawFree → t.translate q = .ok x →
      t.translate q' = .ok y → x.sql = y.sql →
        q.skeleton = q'.skeleton ∧ ∃ texts, t.leafTexts q = .ok texts ∧ t.leafTexts q' = .ok texts) ∧
    ∀ (c : Comparison) (q : Query) (x y : Fragment), q.isRawFree → q.isLeaf = false →
      t.translate (.comparison c) = .ok x → t.translate q = .ok y → x.sql ≠ y.sql := by
  have hread : ∀ {q : Query} {x : Fragment}, t.translate q = .ok x →
      ∃ pieces, t.piecesAt 0 q = .ok pieces ∧ x.sql.toList = writtenBehind t.dialect 0 pieces := by
    intro q x hx
    obtain ⟨pieces, hpieces, rfl⟩ := map_eq_ok.mp hx
    exact ⟨pieces, t.pieces_eq q ▸ hpieces, rfl⟩
  constructor
  · intro q q' x y hraw hraw' hx hy hsql
    obtain ⟨pieces, h, hxtext⟩ := hread hx
    obtain ⟨pieces', h', hytext⟩ := hread hy
    obtain ⟨leaves, hleaves, -⟩ := t.exists_leaves hraw h
    obtain ⟨leaves', hleaves', -⟩ := t.exists_leaves hraw' h'
    have htext : writtenBehind t.dialect 0 pieces = writtenBehind t.dialect 0 pieces' := by
      rw [← hxtext, ← hytext, hsql]
    obtain ⟨hskeleton, htexts⟩ := t.reads_once hraw hraw' h h' hleaves hleaves' htext
    refine ⟨hskeleton, t.textsBehind 0 leaves, map_eq_ok.mpr ⟨leaves, hleaves, rfl⟩, ?_⟩
    exact map_eq_ok.mpr ⟨leaves', hleaves', htexts.symm⟩
  · intro c q x y hraw hnode hx hy hsql
    obtain ⟨pieces, h, hxtext⟩ := hread hx
    obtain ⟨pieces', h', hytext⟩ := hread hy
    have hleaf : (Query.comparison c).isRawFree := rfl
    have htext : writtenBehind t.dialect 0 pieces = writtenBehind t.dialect 0 pieces' := by
      rw [← hxtext, ← hytext, hsql]
    have hcount := t.operands_length_eq hleaf hraw h h' htext
    cases q with
    | comparison c' => exact nomatch hnode
    | raw r => exact nomatch hnode
    | unary op q => exact nomatch hcount
    | binary op l r => exact nomatch hcount

/-- Fields that are called like keywords, a list and a range, and what the range is not read as. -/
theorem sql_determines_grouping_keywords :
    let t : Translator := { dialect := .postgres }
    let query (operator : Operator) (item : Value) (range : Value) : Query :=
      .and (.not (.comparison ⟨⟨"NOT", by decide⟩, operator, .list [item], false⟩))
        (.comparison ⟨⟨"lower", by decide⟩, .between, range, false⟩)
    let closed : Value := .range (some (.int 1)) (some (.int 5)) true true
    let q := query .noneOf (.int 1) closed
    let q' := query .ne (.text "x") (.list [.int 2, .int 3])
    let sql := "(NOT (NOT NOT IN ($1))) AND (lower >= $2 AND lower <= $3)"
    let texts := ["NOT NOT IN ($1)", "lower >= $2 AND lower <= $3"]
    (∃ x y, t.translate q = .ok x ∧ t.translate q' = .ok y ∧ x.sql = sql ∧ y.sql = sql) ∧
      q.skeleton = q'.skeleton ∧ t.leafTexts q = .ok texts ∧ t.leafTexts q' = .ok texts ∧
      ∀ x, t.translate (.comparison ⟨⟨"lower", by decide⟩, .between, closed, false⟩) = .ok x →
        x.sql ≠ sql := by
  intro t query closed q q' sql texts
  have hx : t.translate q = .ok ⟨sql, [.int 1, .int 1, .int 5]⟩ := by
    rw [translate, pieces_eq]
    cbv
  have hy : t.translate q' = .ok ⟨sql, [.text "x", .int 2, .int 3]⟩ := by
    rw [translate, pieces_eq]
    cbv
  have htexts : t.leafTexts q = .ok texts := by cbv
  obtain ⟨hskeleton, texts', hq, hq'⟩ :=
    t.sql_determines_grouping.1 q q' _ _ rfl rfl hx hy rfl
  obtain rfl : texts = texts' := Except.ok.inj (htexts.symm.trans hq)
  refine ⟨⟨_, _, hx, hy, rfl, rfl⟩, hskeleton, hq, hq', fun x hrange => ?_⟩
  exact t.sql_determines_grouping.2 _ q x _ rfl rfl hrange hx

end Translator
end Sql
end QueryFilter
