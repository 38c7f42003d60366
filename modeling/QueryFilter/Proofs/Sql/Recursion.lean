import QueryFilter.Proofs.Steps
import QueryFilter.Sql.Translate

/-!
# The condition of a tree by recursion on the tree

`Translator.pieces` walks a tree with an agenda of tasks and numbers the placeholders of the whole
list of pieces at its end.  This file gives the condition of a tree by recursion on the tree instead
(`Translator.conditionAt`), where each subtree is written with its own placeholders, numbered behind
those of what stands in front of it, and shows that the two agree.

## Strategy

* `piecesAt` is the list of pieces by recursion on the tree.  `run_node` says what the agenda does
  with a node whatever pieces stand behind it and whatever tasks in front of it: it writes
  `piecesAt` of the node, or fails where `piecesAt` does.
* `numbered_append` splits the numbering of a list of pieces at any place, the second part being
  numbered behind the values of the first.  So the condition of a node is put together from the
  conditions of its operands.
* A raw condition is cut at its question marks and put together again
  (`toList_join_numbered_interleave`).
-/

namespace QueryFilter.Sql

/-! ## Numbering pieces -/

namespace Piece

variable (d : Dialect)

@[simp] theorem values_nil : values [] = [] := rfl

@[simp] theorem values_text (s : String) (pieces : List Piece) :
    values (.text s :: pieces) = values pieces := rfl

@[simp] theorem values_value (v : Value) (pieces : List Piece) :
    values (.value v :: pieces) = v :: values pieces := rfl

@[simp] theorem values_append (first second : List Piece) :
    values (first ++ second) = values first ++ values second :=
  List.filterMap_append

/-- The second of two lists of pieces is numbered behind the values of the first. -/
theorem numbered_append (n : Nat) (first second : List Piece) :
    numbered d n (first ++ second) =
      numbered d n first ++ numbered d (n + (values first).length) second := by
  induction first generalizing n with
  | nil => rfl
  | cons piece first ih =>
      cases piece with
      | text s => rw [List.cons_append, numbered, numbered, ih, values_text, List.cons_append]
      | value v =>
          rw [List.cons_append, numbered, numbered, ih, values_value, List.length_cons,
            List.cons_append, Nat.add_assoc, Nat.add_comm 1]

end Piece

theorem inlineOfPieces_cons (d : Dialect) (piece : Piece) (pieces : List Piece) :
    inlineOfPieces d (piece :: pieces) = piece.inlineText d ++ inlineOfPieces d pieces :=
  String.join_cons

/-- The values of a list, numbered one by one, are written as placeholders numbered in bulk. -/
theorem join_numbered_separated (d : Dialect) (n : Nat) (items : List Value) :
    String.join (Piece.numbered d n (separated (items.map .value))) =
      d.placeholders items.length n := by
  induction items generalizing n with
  | nil => rfl
  | cons item items ih =>
      cases items with
      | nil => simp [separated, Piece.numbered, Dialect.placeholders]
      | cons next items =>
          calc String.join (Piece.numbered d n (separated ((item :: next :: items).map .value)))
              = d.placeholder n ++ (", " ++ String.join
                  (Piece.numbered d (n + 1) (separated ((next :: items).map .value)))) := by
                rw [← String.join_cons, ← String.join_cons]
                rfl
            _ = d.placeholder n ++ (", " ++ d.placeholders (next :: items).length (n + 1)) := by
                rw [ih]
            _ = d.placeholders (item :: next :: items).length n := by
                simp [Dialect.placeholders, List.range'_succ, String.append_assoc]

/-- The condition that some pieces make behind `k` parameters: the `i`-th value is written as the
placeholder with the number `k + i`. -/
def Fragment.behind (d : Dialect) (k : Nat) (pieces : List Piece) : Fragment :=
  ⟨String.join (Piece.numbered d (k + 1) pieces), Piece.values pieces⟩

/-- Pieces between two texts make the condition of the pieces between the two texts. -/
theorem Fragment.behind_enclosed (d : Dialect) (k : Nat) (opening closing : String)
    (pieces : List Piece) :
    Fragment.behind d k (.text opening :: pieces ++ [.text closing]) =
      ⟨opening ++ (Fragment.behind d k pieces).sql ++ closing,
        (Fragment.behind d k pieces).params⟩ := by
  simp [Fragment.behind, Piece.numbered_append, Piece.numbered, String.append_assoc]

/-- Two lists of pieces between texts: the second is numbered behind the parameters of the first. -/
theorem Fragment.behind_joined (d : Dialect) (k : Nat) (opening middle closing : String)
    (left right : List Piece) :
    Fragment.behind d k (.text opening :: left ++ .text middle :: right ++ [.text closing]) =
      let l := Fragment.behind d k left
      let r := Fragment.behind d (k + l.params.length) right
      ⟨opening ++ l.sql ++ middle ++ r.sql ++ closing, l.params ++ r.params⟩ := by
  have hnumber : k + 1 + (Piece.values left).length = k + (Piece.values left).length + 1 := by omega
  simp [Fragment.behind, Piece.numbered_append, Piece.numbered, String.append_assoc, hnumber]

/-! ## Binding values -/

/-- Whether a value can be bound: it is not an infinity and not NaN. -/
def isBindable : Value → Bool
  | .float x => Number.isFinite x
  | _ => true

theorem bind_eq (v : Value) :
    bind v = if isBindable v then .ok (.value v) else .error .nonFiniteNumber := by
  cases v <;> rfl

/-- Values are bound all or none. -/
theorem mapM_bind (items : List Value) :
    items.mapM bind =
      if items.all isBindable then .ok (items.map .value) else .error .nonFiniteNumber := by
  induction items with
  | nil => rfl
  | cons item items ih =>
      rw [List.mapM_cons, bind_eq, ih]
      cases hitem : isBindable item with
      | false => simp [hitem, Bind.bind, Except.bind]
      | true =>
          cases hitems : items.all isBindable with
          | false => simp [hitem, hitems, Bind.bind, Except.bind]
          | true => simp [hitem, hitems, Bind.bind, Except.bind, pure, Except.pure]

/-! ## Raw conditions -/

/-- A text with its question marks replaced by the placeholders numbered from `n` on. -/
def markersNumbered (d : Dialect) : (n : Nat) → List Char → List Char
  | _, [] => []
  | n, c :: s =>
    if c = '?' then (d.placeholder n).toList ++ markersNumbered d (n + 1) s
    else c :: markersNumbered d n s

/-- Values between the chunks of a text that is cut at its question marks are numbered as its
question marks are. -/
theorem toList_join_numbered_interleave (d : Dialect) (n : Nat) (s : List Char) (items : List Value)
    (hcount : s.count '?' = items.length) :
    (String.join (Piece.numbered d n
      (interleave (Text.split '?' s) (items.map .value)))).toList = markersNumbered d n s := by
  induction s generalizing n items with
  | nil =>
      cases items with
      | nil => rfl
      | cons item items => simp at hcount
  | cons c s ih =>
      by_cases hc : c = '?'
      · subst hc
        cases items with
        | nil => simp at hcount
        | cons item items =>
            have hrest := ih (n + 1) items (by simpa using hcount)
            simp only [Text.split, markersNumbered, if_pos, List.map_cons, interleave,
              Piece.numbered, String.join_cons, String.toList_append, hrest]
            rfl
      · have hrest := ih n items (by simpa [List.count_cons, hc] using hcount)
        simp only [Text.split, markersNumbered, if_neg hc]
        cases hsplit : Text.split '?' s with
        | nil => exact absurd hsplit (Text.split_ne_nil '?' s)
        | cons first others =>
            rw [hsplit] at hrest
            cases items with
            | nil => simpa [interleave, Piece.numbered] using hrest
            | cons item items => simpa [interleave, Piece.numbered] using hrest

theorem values_interleave (chunks : List (List Char)) (items : List Value)
    (hlength : items.length < chunks.length) :
    Piece.values (interleave chunks (items.map .value)) = items := by
  induction chunks generalizing items with
  | nil => simp at hlength
  | cons chunk chunks ih =>
      cases items with
      | nil => rfl
      | cons item items =>
          rw [List.map_cons, interleave, Piece.values_text, Piece.values_value,
            ih items (by simpa using hlength)]

/-- The condition of a raw condition behind `k` parameters. -/
def rawAt (d : Dialect) (k : Nat) (r : RawCondition) : Except TranslateError Fragment :=
  let markers := r.sql.toList.count '?'
  if markers ≠ r.params.length then .error (.rawParameterMismatch markers r.params.length)
  else if r.params.all isBindable then
    .ok ⟨String.ofList (markersNumbered d (k + 1) r.sql.toList), r.params⟩
  else .error .nonFiniteNumber

theorem map_behind_rawCondition (d : Dialect) (k : Nat) (r : RawCondition) :
    (rawCondition r).map (Fragment.behind d k) = rawAt d k r := by
  unfold rawCondition rawAt
  dsimp only
  split
  · rfl
  next hcount =>
    rw [Decidable.not_not] at hcount
    rw [mapM_bind]
    split
    · have hlength : r.params.length < (Text.split '?' r.sql.toList).length := by
        rw [Text.length_split, hcount]
        exact Nat.lt_succ_self _
      have htext := toList_join_numbered_interleave d (k + 1) r.sql.toList r.params hcount
      rw [← htext, String.ofList_toList]
      simp [Bind.bind, Except.bind, Except.map, Fragment.behind, values_interleave _ _ hlength]
    · rfl

/-! ## Trees -/

namespace Translator

variable (t : Translator)

theorem opening_unary (ancestors : Nat) (op : Connective) (q : Query) :
    t.opening ancestors (.unary op q) =
      if t.maxDepth < ancestors then .error (.nestingTooDeep t.maxDepth)
      else if op ≠ .not then .error .unaryJunction else .ok [.text "NOT ("] := by
  cases op <;> rfl

theorem opening_binary (ancestors : Nat) (op : Connective) (l r : Query) :
    t.opening ancestors (.binary op l r) =
      if t.maxDepth < ancestors then .error (.nestingTooDeep t.maxDepth)
      else if op = .not then .error .binaryNot else .ok [.text "("] := by
  cases op <;> rfl

/-- What joins the operands of a connective. -/
def junction (op : Connective) : String := if op = .and then ") AND (" else ") OR ("

/-- The pieces of a tree with `ancestors` connectives above it. -/
def piecesAt (ancestors : Nat) (q : Query) : Except TranslateError (List Piece) :=
  if t.maxDepth < ancestors then .error (.nestingTooDeep t.maxDepth)
  else match q with
    | .comparison c => t.comparison c
    | .raw r => rawCondition r
    | .unary op q =>
      if op ≠ .not then .error .unaryJunction
      else (piecesAt (ancestors + 1) q).map fun inner => .text "NOT (" :: inner ++ [.text ")"]
    | .binary op l r =>
      if op = .not then .error .binaryNot
      else (piecesAt (ancestors + 1) l).bind fun left =>
        (piecesAt (ancestors + 1) r).map fun right =>
          .text "(" :: left ++ .text (junction op) :: right ++ [.text ")"]

theorem piecesAt_comparison_eq_ok {ancestors : Nat} {c : Comparison} {pieces : List Piece} :
    t.piecesAt ancestors (.comparison c) = .ok pieces ↔
      ancestors ≤ t.maxDepth ∧ t.comparison c = .ok pieces := by
  rw [piecesAt]
  split
  next hdeep => exact ⟨nofun, fun h => absurd hdeep (Nat.not_lt.mpr h.1)⟩
  next hdepth => exact ⟨fun h => ⟨Nat.not_lt.mp hdepth, h⟩, And.right⟩

theorem piecesAt_raw_eq_ok {ancestors : Nat} {r : RawCondition} {pieces : List Piece} :
    t.piecesAt ancestors (.raw r) = .ok pieces ↔
      ancestors ≤ t.maxDepth ∧ rawCondition r = .ok pieces := by
  rw [piecesAt]
  split
  next hdeep => exact ⟨nofun, fun h => absurd hdeep (Nat.not_lt.mpr h.1)⟩
  next hdepth => exact ⟨fun h => ⟨Nat.not_lt.mp hdepth, h⟩, And.right⟩

theorem piecesAt_unary_eq_ok {ancestors : Nat} {op : Connective} {q : Query}
    {pieces : List Piece} :
    t.piecesAt ancestors (.unary op q) = .ok pieces ↔
      ancestors ≤ t.maxDepth ∧ op = .not ∧ ∃ inner, t.piecesAt (ancestors + 1) q = .ok inner ∧
        .text "NOT (" :: inner ++ [.text ")"] = pieces := by
  rw [piecesAt]
  split
  next hdeep => exact ⟨nofun, fun h => absurd hdeep (Nat.not_lt.mpr h.1)⟩
  next hdepth =>
    split
    next hop => exact ⟨nofun, fun h => absurd h.2.1 hop⟩
    next hop =>
      rw [map_eq_ok]
      exact ⟨fun h => ⟨Nat.not_lt.mp hdepth, Decidable.not_not.mp hop, h⟩, fun h => h.2.2⟩

theorem piecesAt_binary_eq_ok {ancestors : Nat} {op : Connective} {l r : Query}
    {pieces : List Piece} :
    t.piecesAt ancestors (.binary op l r) = .ok pieces ↔
      ancestors ≤ t.maxDepth ∧ op ≠ .not ∧ ∃ left right,
        t.piecesAt (ancestors + 1) l = .ok left ∧ t.piecesAt (ancestors + 1) r = .ok right ∧
        .text "(" :: left ++ .text (junction op) :: right ++ [.text ")"] = pieces := by
  rw [piecesAt]
  split
  next hdeep => exact ⟨nofun, fun h => absurd hdeep (Nat.not_lt.mpr h.1)⟩
  next hdepth =>
    split
    next hop => exact ⟨nofun, fun h => absurd hop h.2.1⟩
    next hop =>
      constructor
      · intro h
        obtain ⟨left, hleft, h⟩ := bind_eq_ok.mp h
        obtain ⟨right, hright, h⟩ := map_eq_ok.mp h
        exact ⟨Nat.not_lt.mp hdepth, hop, left, right, hleft, hright, h⟩
      · rintro ⟨-, -, left, right, hleft, hright, h⟩
        exact bind_eq_ok.mpr ⟨left, hleft, map_eq_ok.mpr ⟨right, hright, h⟩⟩

theorem run_node_eq_bind (done : List Piece) (ancestors : Nat) (q : Query) (tasks : List Task) :
    t.run done (.node q ancestors :: tasks) =
      (t.opening ancestors q).bind fun opened =>
        t.run (opened.reverse ++ done) (Task.inside ancestors q ++ tasks) := by
  rw [run]
  cases t.opening ancestors q <;> rfl

/-- What the agenda does with a node: it writes the pieces of the node and goes on, or it fails. -/
theorem run_node (done : List Piece) (ancestors : Nat) (q : Query) (tasks : List Task) :
    t.run done (.node q ancestors :: tasks) =
      (t.piecesAt ancestors q).bind fun pieces => t.run (pieces.reverse ++ done) tasks := by
  induction q generalizing done ancestors tasks with
  | comparison c =>
      rw [run_node_eq_bind, piecesAt, opening]
      split <;> rfl
  | raw r =>
      rw [run_node_eq_bind, piecesAt, opening]
      split <;> rfl
  | unary op q ih =>
      rw [run_node_eq_bind, piecesAt, opening_unary]
      split
      · rfl
      · split
        · rfl
        · simp only [Except.bind, Task.inside, List.cons_append, List.nil_append, ih]
          cases t.piecesAt (ancestors + 1) q with
          | error e => rfl
          | ok inner => simp [Except.map, run]
  | binary op l r ihl ihr =>
      rw [run_node_eq_bind, piecesAt, opening_binary]
      split
      · rfl
      · split
        · rfl
        · simp only [Except.bind, Task.inside, List.cons_append, List.nil_append, ihl]
          cases t.piecesAt (ancestors + 1) l with
          | error e => rfl
          | ok left =>
              simp only [run, ihr]
              cases t.piecesAt (ancestors + 1) r with
              | error e => rfl
              | ok right => simp [Except.bind, Except.map, junction]

/-- The pieces of a whole tree are those that recursion on the tree gives. -/
theorem pieces_eq (q : Query) : t.pieces q = t.piecesAt 0 q := by
  rw [pieces, run_node]
  cases t.piecesAt 0 q with
  | error e => rfl
  | ok pieces => simp [Except.bind, run]

/-- The condition of a tree with `ancestors` connectives above it, behind `k` parameters. -/
def conditionAt (ancestors k : Nat) (q : Query) : Except TranslateError Fragment :=
  if t.maxDepth < ancestors then .error (.nestingTooDeep t.maxDepth)
  else match q with
    | .comparison c => (t.comparison c).map (Fragment.behind t.dialect k)
    | .raw r => rawAt t.dialect k r
    | .unary op q =>
      if op ≠ .not then .error .unaryJunction
      else (conditionAt (ancestors + 1) k q).map fun x => ⟨"NOT (" ++ x.sql ++ ")", x.params⟩
    | .binary op l r =>
      if op = .not then .error .binaryNot
      else (conditionAt (ancestors + 1) k l).bind fun x =>
        (conditionAt (ancestors + 1) (k + x.params.length) r).map fun y =>
          ⟨"(" ++ x.sql ++ junction op ++ y.sql ++ ")", x.params ++ y.params⟩

/-- Both recursions agree: the condition of a tree is the one that its pieces make. -/
theorem conditionAt_eq (ancestors k : Nat) (q : Query) :
    t.conditionAt ancestors k q = (t.piecesAt ancestors q).map (Fragment.behind t.dialect k) := by
  induction q generalizing ancestors k with
  | comparison c =>
      rw [conditionAt, piecesAt]
      split <;> rfl
  | raw r =>
      rw [conditionAt, piecesAt]
      split
      · rfl
      · exact (map_behind_rawCondition t.dialect k r).symm
  | unary op q ih =>
      rw [conditionAt, piecesAt]
      split
      · rfl
      · split
        · rfl
        · rw [ih]
          cases t.piecesAt (ancestors + 1) q with
          | error e => rfl
          | ok inner => exact congrArg Except.ok (Fragment.behind_enclosed _ k _ _ inner).symm
  | binary op l r ihl ihr =>
      rw [conditionAt, piecesAt]
      split
      · rfl
      · split
        · rfl
        · rw [ihl]
          cases t.piecesAt (ancestors + 1) l with
          | error e => rfl
          | ok left =>
              simp only [Except.map, Except.bind, ihr]
              cases t.piecesAt (ancestors + 1) r with
              | error e => rfl
              | ok right =>
                  exact congrArg Except.ok (Fragment.behind_joined _ k _ _ _ left right).symm

/-- **The agenda writes what recursion on the tree writes.**  A tree is translated into its
condition by recursion, with no connectives above it and no parameters in front of it: the same
text, the same parameters in the same order, or the same error. -/
theorem translate_eq_conditionAt (q : Query) : t.translate q = t.conditionAt 0 0 q :=
  calc t.translate q = (t.pieces q).map (Fragment.ofPieces t.dialect) := rfl
    _ = (t.piecesAt 0 q).map (Fragment.behind t.dialect 0) := by
        rw [pieces_eq]
        rfl
    _ = t.conditionAt 0 0 q := (t.conditionAt_eq 0 0 q).symm

/-- A raw condition with a parameter for each question mark still fails if one of the parameters is
an infinity, since that cannot be bound. -/
theorem translate_raw_infinite_parameter :
    let infinite : RawCondition := ⟨"x = ?", [.float (Float.ofBits 0x7FF0000000000000)]⟩
    infinite.sql.toList.count '?' = infinite.params.length ∧
      Translator.translate { dialect := .postgres } (.raw infinite) = .error .nonFiniteNumber ∧
      Translator.translate { dialect := .postgres } (.raw infinite) ≠
        .ok ⟨"x = $1", infinite.params⟩ := by
  have hfails : Translator.translate { dialect := .postgres }
      (.raw ⟨"x = ?", [.float (Float.ofBits 0x7FF0000000000000)]⟩) = .error .nonFiniteNumber := by
    rw [translate, pieces_eq]
    with_unfolding_all rfl
  refine ⟨by decide, hfails, ?_⟩
  rw [hfails]
  exact nofun

end Translator

end QueryFilter.Sql
