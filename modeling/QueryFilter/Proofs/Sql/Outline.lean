import QueryFilter.Proofs.Query.Leaves
import QueryFilter.Proofs.Sql.Recursion

/-!
# The outline of a condition

The outline of some pieces is their texts, with a hole for each value (`outlines`).  The numbered
text of pieces is a function of their outline (`numbered_eq_of_outlines_eq`), so what can be said
about the text of a condition can be said about its outline.

The outline of a condition is given for every operator and kind of value (`conditionOutline`).  It
mentions the number of values of a list and which bounds of a range are open, and nothing else of
the value.  The outline of a tree is put together from those of its leaves (`treeOutline`).
-/

namespace QueryFilter.Sql

/-! ## Outlines -/

/-- The text of a piece, or a hole for its value. -/
def Piece.outline : Piece → Option String
  | text s => some s
  | value _ => none

/-- The texts of some pieces, with a hole for each value. -/
def outlines (pieces : List Piece) : List (Option String) := pieces.map Piece.outline

@[simp] theorem outlines_nil : outlines [] = [] := rfl

@[simp] theorem outlines_text (s : String) (pieces : List Piece) :
    outlines (.text s :: pieces) = some s :: outlines pieces := rfl

@[simp] theorem outlines_value (v : Value) (pieces : List Piece) :
    outlines (.value v :: pieces) = none :: outlines pieces := rfl

@[simp] theorem outlines_append (first second : List Piece) :
    outlines (first ++ second) = outlines first ++ outlines second := List.map_append

/-- The numbered text of some pieces is a function of their outline. -/
theorem numbered_eq_of_outlines_eq (d : Dialect) {first second : List Piece}
    (houtlines : outlines first = outlines second) (n : Nat) :
    Piece.numbered d n first = Piece.numbered d n second := by
  induction first generalizing n second with
  | nil =>
      cases second with
      | nil => rfl
      | cons piece second => exact nomatch houtlines
  | cons piece first ih =>
      cases second with
      | nil => exact nomatch houtlines
      | cons piece' second =>
          obtain ⟨hpiece, hrest⟩ := List.cons.inj houtlines
          cases piece <;> cases piece' <;>
            simp_all [Piece.outline, Piece.numbered, ih hrest, outlines]

/-! ## The outline of a condition -/

theorem eq_value_of_bind {v : Value} {piece : Piece} (h : bind v = .ok piece) :
    piece = .value v := by
  rw [bind_eq] at h
  split at h
  · exact (Except.ok.inj h).symm
  · exact nomatch h

theorem eq_map_value_of_mapM_bind {items : List Value} {pieces : List Piece}
    (h : items.mapM bind = .ok pieces) : pieces = items.map .value := by
  rw [mapM_bind] at h
  split at h
  · exact (Except.ok.inj h).symm
  · exact nomatch h

/-- The outline of as many values as there are items, with commas between them. -/
def commas : Nat → List (Option String)
  | 0 => []
  | 1 => [none]
  | n + 2 => none :: some ", " :: commas (n + 1)

theorem outlines_separated (items : List Value) :
    outlines (separated (items.map .value)) = commas items.length := by
  induction items with
  | nil => rfl
  | cons item items ih =>
      cases items with
      | nil => rfl
      | cons next items => exact congrArg (fun rest => none :: some ", " :: rest) ih

theorem outlines_of_onSide {field sign : String} {bound : Value} {pieces : List Piece}
    (h : onSide field sign bound = .ok pieces) :
    outlines pieces = [some (field ++ " " ++ sign ++ " "), none] := by
  obtain ⟨piece, hbind, hpieces⟩ := bind_eq_ok.mp h
  rw [← Except.ok.inj hpieces, eq_value_of_bind hbind]
  rfl

/-- The outline of a condition about a list, which tells how many values the list has. -/
def membershipOutline (field keyword whenEmpty : String) (size : Nat) : List (Option String) :=
  if size = 0 then [some whenEmpty]
  else some (field ++ " " ++ keyword ++ " (") :: commas size ++ [some ")"]

theorem outlines_of_membership {field keyword whenEmpty : String} {operator : Operator}
    {items : List Value} {pieces : List Piece}
    (h : membership field keyword whenEmpty operator items = .ok pieces) :
    outlines pieces = membershipOutline field keyword whenEmpty items.length := by
  unfold membership at h
  split at h
  · exact nomatch h
  · split at h
    next hempty =>
      rw [← Except.ok.inj h, membershipOutline, if_pos (by simpa using hempty)]
      rfl
    next hempty =>
      obtain ⟨bound, hbind, hpieces⟩ := bind_eq_ok.mp h
      rw [← Except.ok.inj hpieces, membershipOutline, if_neg (by simpa using hempty),
        eq_map_value_of_mapM_bind hbind]
      simp [outlines_separated]

/-- The outline of a range: it tells which bounds are open and whether the others belong to it. -/
def rangeOutline (field : String) (openLow openHigh closedLow closedHigh : Bool) :
    List (Option String) :=
  let above := [some (field ++ " " ++ (if closedLow then ">=" else ">") ++ " "), none]
  let below := [some (field ++ " " ++ (if closedHigh then "<=" else "<") ++ " "), none]
  match openLow, openHigh with
  | true, true => [some (field ++ " IS NOT NULL")]
  | false, true => above
  | true, false => below
  | false, false => above ++ some " AND " :: below

theorem outlines_of_inRange {field : String} {operator : Operator} {low high : Option Value}
    {closedLow closedHigh : Bool} {pieces : List Piece}
    (h : inRange field operator low high closedLow closedHigh = .ok pieces) :
    outlines pieces = rangeOutline field low.isNone high.isNone closedLow closedHigh := by
  unfold inRange at h
  split at h
  · exact nomatch h
  · cases low with
    | none =>
        cases high with
        | none =>
            rw [← Except.ok.inj h]
            rfl
        | some high => exact outlines_of_onSide h
    | some low =>
        cases high with
        | none => exact outlines_of_onSide h
        | some high =>
            obtain ⟨above, habove, h⟩ := bind_eq_ok.mp h
            obtain ⟨below, hbelow, hpieces⟩ := bind_eq_ok.mp h
            rw [← Except.ok.inj hpieces, outlines_append, outlines_text,
              outlines_of_onSide habove, outlines_of_onSide hbelow]
            rfl

namespace Translator

variable (t : Translator)

/-- The outline of a pattern, whatever the pattern is. -/
def patternOutline (field : String) (operator : Operator) : List (Option String) :=
  match operator, t.dialect.globOperator? with
  | .like, some glob => [some (field ++ " " ++ glob ++ " "), none]
  | operator, _ =>
    let keyword := if operator = .ilike ∧ t.dialect.hasIlike then "ILIKE" else "LIKE"
    [some (field ++ " " ++ keyword ++ " "), none, some t.dialect.likeEscape]

theorem outlines_of_patternCondition {field : String} {operator : Operator} {pattern : String}
    {pieces : List Piece} (h : t.patternCondition field operator pattern = .ok pieces) :
    outlines pieces = t.patternOutline field operator := by
  obtain ⟨_, -, h⟩ := bind_eq_ok.mp h
  unfold patternOutline
  -- a text can always be bound, so only the keyword depends on the operator and the dialect
  cases hglob : t.dialect.globOperator? <;> cases operator <;>
  · rw [hglob] at h
    rw [← Except.ok.inj h]
    rfl

/-- The outline of a condition.  It depends on the operator, the kind of the value and the shape of
a list or range, but on no payload. -/
def conditionOutline (field : String) (operator : Operator) (value : Value) :
    List (Option String) :=
  match operator, value with
  | .eq, .null => [some (field ++ " IS NULL")]
  | .ne, .null => [some (field ++ " IS NOT NULL")]
  | .oneOf, .list items | .eq, .list items => membershipOutline field "IN" "1 = 0" items.length
  | .noneOf, .list items | .ne, .list items =>
    membershipOutline field "NOT IN" "1 = 1" items.length
  | .between, .range low high closedLow closedHigh =>
    rangeOutline field low.isNone high.isNone closedLow closedHigh
  | .between, .list _ => rangeOutline field false false true true
  | .like, .text _ | .ilike, .text _ => t.patternOutline field operator
  | .regex, _ => [some (field ++ " " ++ t.dialect.regexOperator?.getD "" ++ " "), none]
  | operator, _ => [some (field ++ " " ++ (comparisonSign? operator).getD "" ++ " "), none]

theorem outlines_of_condition {field : String} {operator : Operator} {value : Value}
    {pieces : List Piece} (h : t.condition field operator value = .ok pieces) :
    outlines pieces = t.conditionOutline field operator value := by
  unfold condition at h
  split at h
  case h_1 => exact Except.ok.inj h ▸ rfl
  case h_2 => exact Except.ok.inj h ▸ rfl
  case h_3 => exact outlines_of_membership h
  case h_4 => exact outlines_of_membership h
  case h_5 => exact outlines_of_membership h
  case h_6 => exact outlines_of_membership h
  case h_7 => exact outlines_of_inRange h
  case h_8 => exact outlines_of_inRange h
  case h_9 => exact nomatch h
  case h_10 => exact t.outlines_of_patternCondition h
  case h_11 => exact t.outlines_of_patternCondition h
  case h_12 =>
    split at h
    · exact nomatch h
    next regex hregex =>
      rw [conditionOutline, hregex]
      exact outlines_of_onSide h
  case h_13 =>
    -- only a comparison with a scalar is left
    split at h
    next sign hsign =>
      split at h
      next hscalar =>
        cases operator <;> simp only [comparisonSign?, reduceCtorEq, Option.some.injEq] at hsign <;>
          subst hsign <;> cases value <;>
          first
          | exact outlines_of_onSide h
          | simp_all [Value.isScalar, Value.isNull]
      · exact nomatch h
    · exact nomatch h

/-- The outline of a comparison whose field is written in a given way. -/
def comparisonOutline (field : String) (c : Comparison) : List (Option String) :=
  if t.foldCase && c.foldsCase then
    [some ("lower(" ++ field ++ ") " ++ (comparisonSign? c.operator).getD "" ++ " lower("), none,
      some ")"]
  else t.conditionOutline field c.operator c.value

theorem outlines_of_comparison {c : Comparison} {pieces : List Piece}
    (h : t.comparison c = .ok pieces) :
    ∃ field, t.fieldText c.field = .ok field ∧ outlines pieces = t.comparisonOutline field c := by
  obtain ⟨field, hfield, h⟩ := bind_eq_ok.mp h
  refine ⟨field, hfield, ?_⟩
  unfold comparisonOutline
  split
  next hfolds =>
    rw [if_pos hfolds] at h
    obtain ⟨piece, hbind, hpieces⟩ := bind_eq_ok.mp h
    rw [← Except.ok.inj hpieces, eq_value_of_bind hbind]
    rfl
  next hexact =>
    rw [if_neg hexact] at h
    exact t.outlines_of_condition h

end Translator

/-! ## The outline of a tree -/

/-- The outline of a raw condition: its text, with a hole for each question mark. -/
def rawOutline (r : RawCondition) : List (Option String) :=
  ((Text.split '?' r.sql.toList).map fun chunk => some (String.ofList chunk)).intersperse none

theorem outlines_interleave {chunks : List (List Char)} {items : List Value}
    (hlength : chunks.length = items.length + 1) :
    outlines (interleave chunks (items.map .value)) =
      (chunks.map fun chunk => some (String.ofList chunk)).intersperse none := by
  induction items generalizing chunks with
  | nil =>
      obtain ⟨chunk, rfl⟩ := List.length_eq_one_iff.mp hlength
      rfl
  | cons item items ih =>
      obtain _ | ⟨chunk, _ | ⟨next, chunks⟩⟩ := chunks
      · cases hlength
      · cases hlength
      · have hrest := ih (Nat.succ.inj hlength)
        exact congrArg (fun rest => some (String.ofList chunk) :: none :: rest) hrest

theorem outlines_of_rawCondition {r : RawCondition} {pieces : List Piece}
    (h : rawCondition r = .ok pieces) : outlines pieces = rawOutline r := by
  simp only [rawCondition] at h
  split at h
  next => exact nomatch h
  next hcount =>
    obtain ⟨bound, hbind, hpieces⟩ := bind_eq_ok.mp h
    rw [← Except.ok.inj hpieces, eq_map_value_of_mapM_bind hbind]
    apply outlines_interleave
    rw [Text.length_split, Decidable.not_not.mp hcount]

namespace Translator

variable (t : Translator) (write : FieldPath → String)

/-- The outline of a tree whose fields are written in a given way. -/
def treeOutline : Query → List (Option String)
  | .comparison c => t.comparisonOutline (write c.field) c
  | .raw r => rawOutline r
  | .unary _ q => some "NOT (" :: treeOutline q ++ [some ")"]
  | .binary op l r =>
    some "(" :: treeOutline l ++ some (junction op) :: treeOutline r ++ [some ")"]

/-- A tree has this outline wherever it stands, if its fields are written in that way. -/
theorem outlines_of_piecesAt {q : Query}
    (hwrite : ∀ c ∈ q.leafComparisons, ∀ name, t.fieldText c.field = .ok name →
      name = write c.field) {ancestors : Nat} {pieces : List Piece}
    (h : t.piecesAt ancestors q = .ok pieces) : outlines pieces = t.treeOutline write q := by
  induction q generalizing ancestors pieces with
  | comparison c =>
      obtain ⟨name, hname, houtlines⟩ :=
        t.outlines_of_comparison (t.piecesAt_comparison_eq_ok.mp h).2
      rw [houtlines, hwrite c (List.mem_singleton_self c) name hname, treeOutline]
  | raw r => exact outlines_of_rawCondition (t.piecesAt_raw_eq_ok.mp h).2
  | unary op q ih =>
      obtain ⟨-, -, inner, hinner, rfl⟩ := t.piecesAt_unary_eq_ok.mp h
      simp [treeOutline, ih hwrite hinner]
  | binary op l r ihl ihr =>
      obtain ⟨-, -, left, right, hleft, hright, rfl⟩ := t.piecesAt_binary_eq_ok.mp h
      have hl := ihl (fun c hc => hwrite c (List.mem_append_left _ hc)) hleft
      have hr := ihr (fun c hc => hwrite c (List.mem_append_right _ hc)) hright
      simp [treeOutline, hl, hr]

end Translator

end QueryFilter.Sql
