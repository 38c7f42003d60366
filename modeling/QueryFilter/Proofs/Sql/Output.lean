import QueryFilter.Proofs.Sql.Parameters

/-!
# Writing in one pass

`Translator.pieces` collects texts and values, and the translations write them out at the end, with
placeholders or with literals.  This file gives the writer that needs no pieces: it appends to one
text as it walks the tree, and to the parameters that are bound so far (`Translator.writeTree`).  It
has two modes, which part ways at every value.  A list is bound with all its placeholders in one go,
but in line its values are written one by one.  Raw text is copied character by character.

Both translations are this writer in one of its modes (`Translator.translate_eq_writeTree`,
`Translator.translateInline_eq_writeTree`).

## Strategy

`Output.write` appends pieces to an output in either mode.  Each part of the writer appends the
pieces of that part of the condition, or fails with the same error, whatever stands in the output
already; the parts are put together as the pieces are.
-/

namespace QueryFilter.Sql

/-- A text that is being written, and the parameters that are bound so far. -/
structure Output where
  dialect : Dialect
  inline : Bool
  sql : String := ""
  params : List Value := []

namespace Output

variable (out : Output)

/-- What has been written, as a condition with its parameters. -/
def fragment : Fragment := ⟨out.sql, out.params⟩

/-- Appends a text. -/
def push (s : String) : Output := { out with sql := out.sql ++ s }

/-- Appends the literal of a value, or its placeholder if values are bound. -/
def pushValue (v : Value) : Output :=
  if out.inline then out.push (literal out.dialect v)
  else
    { out with
      sql := out.sql ++ out.dialect.placeholder (out.params.length + 1)
      params := out.params ++ [v] }

/-- Appends a value, unless it is an infinity or NaN. -/
def bind (v : Value) : Except TranslateError Output :=
  if isBindable v then .ok (out.pushValue v) else .error .nonFiniteNumber

/-- Appends values one by one, with commas between them. -/
def bindEach (out : Output) : List Value → Except TranslateError Output
  | [] => .ok out
  | [v] => out.bind v
  | v :: items => do
    let out ← out.bind v
    bindEach (out.push ", ") items

/-- Appends the placeholders of all values in one go. -/
def bindAll (items : List Value) : Except TranslateError Output :=
  if items.all isBindable then
    .ok { out with
      sql := out.sql ++ out.dialect.placeholders items.length (out.params.length + 1)
      params := out.params ++ items }
  else .error .nonFiniteNumber

/-- Appends the values of a list. -/
def bindItems (items : List Value) : Except TranslateError Output :=
  if out.inline then out.bindEach items else out.bindAll items

/-- Appends the condition that a field is among some values, or is not. -/
def membership (field keyword whenEmpty : String) (operator : Operator) (items : List Value) :
    Except TranslateError Output :=
  match items.findSome? elementMismatch? with
  | some found => .error (.invalidValue operator found)
  | none =>
    if items.isEmpty then .ok (out.push whenEmpty)
    else do
      let out ← (out.push (field ++ " " ++ keyword ++ " (")).bindItems items
      .ok (out.push ")")

/-- Appends the condition that a field is on one side of a bound. -/
def onSide (field sign : String) (bound : Value) : Except TranslateError Output :=
  (out.push (field ++ " " ++ sign ++ " ")).bind bound

/-- Appends the condition that a field is in a range. -/
def inRange (field : String) (operator : Operator) (low high : Option Value)
    (closedLow closedHigh : Bool) : Except TranslateError Output :=
  match (Value.bounds low high).findSome? boundMismatch? with
  | some found => .error (.invalidValue operator found)
  | none =>
    let above := if closedLow then ">=" else ">"
    let below := if closedHigh then "<=" else "<"
    match low, high with
    | none, none => .ok (out.push (field ++ " IS NOT NULL"))
    | some low, none => out.onSide field above low
    | none, some high => out.onSide field below high
    | some low, some high => do
      let out ← out.onSide field above low
      (out.push " AND ").onSide field below high

/-- Appends a raw text character by character, with a value in place of each question mark. -/
def copyRaw (out : Output) : List Char → List Value → Except TranslateError Output
  | [], _ => .ok out
  | c :: s, [] => copyRaw (out.push (String.singleton c)) s []
  | c :: s, v :: items =>
    if c = '?' then do
      let out ← out.bind v
      copyRaw out s items
    else copyRaw (out.push (String.singleton c)) s (v :: items)

/-- Appends a raw condition. -/
def raw (r : RawCondition) : Except TranslateError Output :=
  let markers := r.sql.toList.count '?'
  if markers ≠ r.params.length then .error (.rawParameterMismatch markers r.params.length)
  else out.copyRaw r.sql.toList r.params

/-! ## Appending pieces -/

/-- Appends a piece. -/
def writePiece (out : Output) : Piece → Output
  | .text s => out.push s
  | .value v => out.pushValue v

/-- Appends pieces. -/
def write (pieces : List Piece) : Output := pieces.foldl writePiece out

theorem push_push (s s' : String) : (out.push s).push s' = out.push (s ++ s') := by
  simp [push, String.append_assoc]

@[simp] theorem push_empty : out.push "" = out := by
  simp [push]

theorem write_text (s : String) (pieces : List Piece) :
    out.write (.text s :: pieces) = (out.push s).write pieces := rfl

theorem write_value (v : Value) (pieces : List Piece) :
    out.write (.value v :: pieces) = (out.pushValue v).write pieces := rfl

theorem write_append (first second : List Piece) :
    out.write (first ++ second) = (out.write first).write second := List.foldl_append

/-- In line, pieces are written with their literals. -/
theorem write_inline (pieces : List Piece) (hmode : out.inline) :
    out.write pieces = out.push (inlineOfPieces out.dialect pieces) := by
  induction pieces generalizing out with
  | nil => exact out.push_empty.symm
  | cons piece pieces ih =>
      rw [inlineOfPieces_cons, ← push_push]
      cases piece with
      | text s => exact ih (out.push s) hmode
      | value v =>
          rw [write_value, pushValue, if_pos hmode]
          exact ih (out.push (literal out.dialect v)) hmode

/-- If values are bound, pieces are written with placeholders that are numbered on. -/
theorem write_bound (pieces : List Piece) (hmode : out.inline = false) :
    out.write pieces =
      { out with
        sql := out.sql ++ String.join (Piece.numbered out.dialect (out.params.length + 1) pieces)
        params := out.params ++ Piece.values pieces } := by
  induction pieces generalizing out with
  | nil => simp [write, Piece.numbered]
  | cons piece pieces ih =>
      cases piece with
      | text s =>
          rw [write_text, ih (out.push s) hmode]
          simp [push, Piece.numbered, String.append_assoc]
      | value v =>
          rw [write_value, pushValue, hmode, if_neg Bool.false_ne_true, ih _ rfl]
          simp [Piece.numbered, String.append_assoc]

/-! ## Parts of a condition -/

theorem bind_eq_map (v : Value) : out.bind v = (Sql.bind v).map fun piece => out.write [piece] := by
  rw [bind, bind_eq]
  split <;> rfl

/-- Values that are written one by one are the pieces of a list. -/
theorem bindEach_eq (items : List Value) :
    out.bindEach items =
      if items.all isBindable then .ok (out.write (separated (items.map .value)))
      else .error .nonFiniteNumber := by
  induction items generalizing out with
  | nil => rfl
  | cons v items ih =>
      cases items with
      | nil => simp [bindEach, bind, separated, write, writePiece]
      | cons next items =>
          change (do
            let out ← out.bind v
            bindEach (out.push ", ") (next :: items)) = _
          rw [bind, List.all_cons]
          cases isBindable v with
          | false => rfl
          | true => exact ih ((out.pushValue v).push ", ")

/-- In both modes the values of a list are written as its pieces. -/
theorem bindItems_eq (items : List Value) :
    out.bindItems items =
      if items.all isBindable then .ok (out.write (separated (items.map .value)))
      else .error .nonFiniteNumber := by
  unfold bindItems
  split
  · exact out.bindEach_eq items
  next hmode =>
    rw [bindAll, write_bound out _ (Bool.eq_false_iff.mpr hmode), join_numbered_separated,
      values_separated]

theorem membership_eq_map (field keyword whenEmpty : String) (operator : Operator)
    (items : List Value) :
    out.membership field keyword whenEmpty operator items =
      (Sql.membership field keyword whenEmpty operator items).map out.write := by
  unfold membership Sql.membership
  cases items.findSome? elementMismatch? with
  | some found => rfl
  | none =>
      cases hempty : items.isEmpty with
      | true => rfl
      | false =>
          simp only [Bool.false_eq_true, if_false]
          rw [bindItems_eq, mapM_bind]
          cases items.all isBindable with
          | false => rfl
          | true =>
              change _ = Except.ok ((out.push (field ++ " " ++ keyword ++ " (")).write
                (separated (items.map .value) ++ [.text ")"]))
              rw [write_append]
              rfl

theorem onSide_eq_map (field sign : String) (bound : Value) :
    out.onSide field sign bound = (Sql.onSide field sign bound).map out.write := by
  rw [onSide, bind_eq_map, Sql.onSide]
  cases Sql.bind bound <;> rfl

theorem inRange_eq_map (field : String) (operator : Operator) (low high : Option Value)
    (closedLow closedHigh : Bool) :
    out.inRange field operator low high closedLow closedHigh =
      (Sql.inRange field operator low high closedLow closedHigh).map out.write := by
  unfold inRange Sql.inRange
  cases (Value.bounds low high).findSome? boundMismatch? with
  | some found => rfl
  | none =>
      match low, high with
      | none, none => rfl
      | some low, none => exact out.onSide_eq_map field _ low
      | none, some high => exact out.onSide_eq_map field _ high
      | some low, some high =>
          dsimp only
          rw [onSide_eq_map]
          cases Sql.onSide field (if closedLow then ">=" else ">") low with
          | error e => rfl
          | ok above =>
              change ((out.write above).push " AND ").onSide field _ high = _
              rw [onSide_eq_map]
              cases Sql.onSide field (if closedHigh then "<=" else "<") high with
              | error e => rfl
              | ok below =>
                  change _ = Except.ok (out.write (above ++ .text " AND " :: below))
                  rw [write_append]
                  rfl

/-! ## Raw conditions -/

/-- A character in front of the first chunk of a text is a character in front of its pieces. -/
theorem write_interleave_cons (c : Char) (chunk : List Char) (chunks : List (List Char))
    (pieces : List Piece) :
    out.write (interleave ((c :: chunk) :: chunks) pieces) =
      (out.push (String.singleton c)).write (interleave (chunk :: chunks) pieces) := by
  have hchunk : String.ofList (c :: chunk) = String.singleton c ++ String.ofList chunk := by
    rw [← String.toList_inj]
    simp
  cases pieces <;> simp only [interleave, write_text, hchunk, push_push]

/-- A text that is copied character by character is the pieces between its question marks. -/
theorem copyRaw_eq (s : List Char) (items : List Value) (hcount : s.count '?' = items.length) :
    out.copyRaw s items =
      if items.all isBindable then
        .ok (out.write (interleave (Text.split '?' s) (items.map .value)))
      else .error .nonFiniteNumber := by
  induction s generalizing out items with
  | nil =>
      obtain rfl : items = [] := List.eq_nil_of_length_eq_zero hcount.symm
      exact congrArg Except.ok out.push_empty.symm
  | cons c s ih =>
      by_cases hc : c = '?'
      · subst hc
        -- the first chunk is empty, and a value stands behind it
        cases items with
        | nil => simp at hcount
        | cons v items =>
            rw [copyRaw, if_pos rfl, bind, List.all_cons]
            cases isBindable v with
            | false => rfl
            | true =>
                change (out.pushValue v).copyRaw s items = _
                rw [ih _ _ (by simpa using hcount), Text.split, if_pos rfl, List.map_cons, interleave,
                  write_text, write_value]
                exact congrArg (fun out => if items.all isBindable then Except.ok
                  ((Output.pushValue out v).write _) else _) out.push_empty.symm
      · have hrest : s.count '?' = items.length := by simpa [List.count_cons, hc] using hcount
        have hcopy : out.copyRaw (c :: s) items = (out.push (String.singleton c)).copyRaw s items := by
          cases items with
          | nil => rfl
          | cons v items => rw [copyRaw, if_neg hc]
        rw [hcopy, ih _ _ hrest, Text.split, if_neg hc]
        cases hsplit : Text.split '?' s with
        | nil => exact absurd hsplit (Text.split_ne_nil '?' s)
        | cons chunk chunks => rw [write_interleave_cons]

theorem raw_eq_map (r : RawCondition) : out.raw r = (rawCondition r).map out.write := by
  unfold raw rawCondition
  dsimp only
  split
  · rfl
  next hcount =>
    rw [copyRaw_eq out _ _ (Decidable.not_not.mp hcount), mapM_bind]
    cases r.params.all isBindable <;> rfl

end Output

namespace Translator

variable (t : Translator) (out : Output)

/-! ## Comparisons -/

/-- Appends the condition that a field matches a pattern. -/
def writePattern (field : String) (operator : Operator) (pattern : String) :
    Except TranslateError Output := do
  checkPattern pattern
  match operator, t.dialect.globOperator? with
  | .like, some glob =>
    (out.push (field ++ " " ++ glob ++ " ")).bind
      (.text (String.ofList (Pattern.toGlob pattern.toList)))
  | operator, _ =>
    let keyword := if operator = .ilike ∧ t.dialect.hasIlike then "ILIKE" else "LIKE"
    let out ← (out.push (field ++ " " ++ keyword ++ " ")).bind
      (.text (String.ofList (Pattern.toLike pattern.toList)))
    .ok (out.push t.dialect.likeEscape)

/-- Appends the condition of an operator and a value, case included. -/
def writeCondition (field : String) (operator : Operator) (value : Value) :
    Except TranslateError Output :=
  match operator, value with
  | .eq, .null => .ok (out.push (field ++ " IS NULL"))
  | .ne, .null => .ok (out.push (field ++ " IS NOT NULL"))
  | .oneOf, .list items | .eq, .list items => out.membership field "IN" "1 = 0" operator items
  | .noneOf, .list items | .ne, .list items => out.membership field "NOT IN" "1 = 1" operator items
  | .between, .range low high closedLow closedHigh =>
    out.inRange field operator low high closedLow closedHigh
  | .between, .list [low, high] => out.inRange field operator (some low) (some high) true true
  | .between, .list _ => .error (.invalidValue operator .notTwoBounds)
  | .like, .text pattern | .ilike, .text pattern => t.writePattern out field operator pattern
  | .regex, .text pattern =>
    match t.dialect.regexOperator? with
    | none => .error (.unsupportedOperator operator t.dialect)
    | some regex => out.onSide field regex (.text pattern)
  | operator, value =>
    match comparisonSign? operator with
    | some sign =>
      if value.isScalar && !value.isNull then out.onSide field sign value
      else .error (.invalidValue operator (.ofValue value))
    | none => .error (.invalidValue operator (.ofValue value))

/-- Appends the condition of a comparison. -/
def writeComparison (c : Comparison) : Except TranslateError Output := do
  let field ← t.fieldText c.field
  if t.foldCase && c.foldsCase then
    let sign := (comparisonSign? c.operator).getD ""
    let out ← (out.push ("lower(" ++ field ++ ") " ++ sign ++ " lower(")).bind c.value
    .ok (out.push ")")
  else t.writeCondition out field c.operator c.value

theorem writePattern_eq_map (field : String) (operator : Operator) (pattern : String) :
    t.writePattern out field operator pattern =
      (t.patternCondition field operator pattern).map out.write := by
  unfold writePattern patternCondition
  cases checkPattern pattern with
  | error e => rfl
  | ok =>
      dsimp only [Bind.bind, Except.bind]
      cases t.dialect.globOperator? <;> cases operator <;> rfl

theorem writeCondition_eq_map (field : String) (operator : Operator) (value : Value) :
    t.writeCondition out field operator value =
      (t.condition field operator value).map out.write := by
  unfold writeCondition
  split
  · rfl
  · rfl
  · exact out.membership_eq_map ..
  · exact out.membership_eq_map ..
  · exact out.membership_eq_map ..
  · exact out.membership_eq_map ..
  · exact out.inRange_eq_map ..
  · exact out.inRange_eq_map ..
  next hbounds =>
    rw [condition]
    · rfl
    · exact hbounds
  · exact t.writePattern_eq_map ..
  · exact t.writePattern_eq_map ..
  · rw [condition]
    cases t.dialect.regexOperator? with
    | none => rfl
    | some regex => exact out.onSide_eq_map ..
  next =>
    rw [condition]
    · cases comparisonSign? operator with
      | none => rfl
      | some sign =>
          dsimp only
          split
          · exact out.onSide_eq_map ..
          · rfl
    all_goals assumption

theorem writeComparison_eq_map (c : Comparison) :
    t.writeComparison out c = (t.comparison c).map out.write := by
  unfold writeComparison comparison
  cases t.fieldText c.field with
  | error e => rfl
  | ok field =>
      change (if t.foldCase && c.foldsCase then _ else _) =
        Except.map out.write (if t.foldCase && c.foldsCase then _ else _)
      split
      · rw [Output.bind_eq_map]
        cases bind c.value <;> rfl
      · exact t.writeCondition_eq_map ..

/-! ## Trees -/

/-- Appends what stands at the opening of a node. -/
def writeOpening (ancestors : Nat) (q : Query) : Except TranslateError Output :=
  if t.maxDepth < ancestors then .error (.nestingTooDeep t.maxDepth)
  else match q with
    | .comparison c => t.writeComparison out c
    | .raw r => out.raw r
    | .unary .not _ => .ok (out.push "NOT (")
    | .unary _ _ => .error .unaryJunction
    | .binary .not _ _ => .error .binaryNot
    | .binary _ _ _ => .ok (out.push "(")

/-- Appends what is on the agenda. -/
def writeTasks (out : Output) : List Task → Except TranslateError Output
  | [] => .ok out
  | .text s :: tasks => writeTasks (out.push s) tasks
  | .node q ancestors :: tasks =>
    match t.writeOpening out ancestors q with
    | .error e => .error e
    | .ok out => writeTasks out (Task.inside ancestors q ++ tasks)
termination_by tasks => Task.weight tasks
decreasing_by
  · simp only [Task.weight]
    omega
  · exact Task.weight_inside_lt ancestors q tasks

/-- Writes a query in one pass. -/
def writeTree (inline : Bool) (q : Query) : Except TranslateError Output :=
  t.writeTasks { dialect := t.dialect, inline } [.node q 0]

theorem writeOpening_eq_map (ancestors : Nat) (q : Query) :
    t.writeOpening out ancestors q = (t.opening ancestors q).map out.write := by
  unfold writeOpening opening
  split
  · rfl
  · cases q with
    | comparison c => exact t.writeComparison_eq_map out c
    | raw r => exact out.raw_eq_map r
    | unary op q => cases op <;> rfl
    | binary op l r => cases op <;> rfl

/-- Whatever has been written, the agenda is written as its pieces are, or fails as they do. -/
theorem writeTasks_eq_map (done : List Piece) (tasks : List Task) :
    t.writeTasks (out.write done.reverse) tasks = (t.run done tasks).map out.write := by
  fun_induction run t done tasks with
  | case1 done => rw [writeTasks]; rfl
  | case2 done s tasks ih =>
      rw [writeTasks, ← ih, List.reverse_cons, Output.write_append]
      rfl
  | case3 done q ancestors tasks e hopening =>
      rw [writeTasks, writeOpening_eq_map, hopening]
      rfl
  | case4 done q ancestors tasks pieces hopening ih =>
      rw [writeTasks, writeOpening_eq_map, hopening, ← ih, List.reverse_append,
        List.reverse_reverse, Output.write_append]
      rfl

/-- One pass writes the pieces of the whole tree. -/
theorem writeTree_eq_map (inline : Bool) (q : Query) :
    t.writeTree inline q =
      (t.pieces q).map (Output.write { dialect := t.dialect, inline }) :=
  t.writeTasks_eq_map { dialect := t.dialect, inline } [] [.node q 0]

/-- The translation with placeholders is one pass in which values are bound. -/
theorem translate_eq_writeTree (q : Query) :
    t.translate q = (t.writeTree false q).map Output.fragment := by
  rw [writeTree_eq_map, translate]
  cases t.pieces q with
  | error e => rfl
  | ok pieces =>
      change Except.ok (Fragment.ofPieces t.dialect pieces) = Except.ok (Output.fragment _)
      rw [Output.write_bound _ pieces rfl, Output.fragment, Fragment.ofPieces]
      simp

/-- The translation with literals is one pass in which values are written in line. -/
theorem translateInline_eq_writeTree (q : Query) :
    t.translateInline q = (t.writeTree true q).map Output.sql := by
  rw [writeTree_eq_map, translateInline]
  cases t.pieces q with
  | error e => rfl
  | ok pieces =>
      change Except.ok (inlineOfPieces t.dialect pieces) = Except.ok (Output.sql _)
      rw [Output.write_inline _ pieces rfl]
      simp [Output.push]

end Translator

end QueryFilter.Sql
