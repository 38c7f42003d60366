import QueryFilter.Proofs.Query.Cursor
import QueryFilter.Proofs.Query.Faults
import QueryFilter.Proofs.Query.Nesting

/-!
# The descent through a query text

The readers of a query text are functions of the text that remains, and each level of nesting has
readers of its own.  Here they are one piece of work with a cursor (`Part.descend`): the parts of a
text call one another, the operands of a part are read in turns, and a parenthesis or a negation is
put on top of what is open and taken off behind what it is about.  Nothing in it is known to end, so
it has a bound.

That it agrees with the readers (`Part.agreesWithin`) is shown part by part.

* Turn by turn.  What a turn does is what the recursion of the reader does in front of its recursive
  call (`readConjuncts_eq` and its like), so a loop agrees if its turns do, and as each takes a
  character there are fewer turns than characters (`agrees_conjuncts`, `agrees_disjuncts`,
  `loop_plusTurn`, `agrees_group`).
* Level by level.  Where something is opened, the levels that are left and the places that are open
  add up to `maxNesting`; the reader is out of levels exactly where one place too many is open
  (`agrees_enter`).
* Call by call.  A part may call another one without taking a character, but then one of less weight
  (`Part.weight`), so four times the length of the text that remains, and the weight, bound the
  calls.
-/

namespace QueryFilter

open Text (isBlank skipBlanks)

/-! ## The descent -/

/-- The text behind a plus sign that is attached to its operand. -/
def plusSign? : List Char → Option (List Char)
  | [] => none
  | c :: s => if c = '+' ∧ attached s then some s else none

/-- The fault of an operand that is no query in parentheses and cannot be a comparison. -/
def operandFault? (s : List Char) : Option Fault :=
  if s = [] then some (.here .missingTerm [])
  else if atKeyword "AND" s || atKeyword "OR" s then some (.here .missingOperand s)
  else none

namespace Reading

/-- A further operand of a disjunction, if there is one. -/
def disjunctTurn (conjunction : Reading Query) (left : Query) : Reading (Round Query Query) := do
  skip skipBlanks
  if ← sign orSign? then
    let right ← conjunction
    pure (.again (left.or right))
  else pure (.exit left)

/-- A further operand of a conjunction, if there is one. -/
def conjunctTurn (operand : Reading Query) (left : Query) : Reading (Round Query Query) := do
  skip skipBlanks
  if ← look endsConjunction then pure (.exit left)
  else
    let _ ← sign andSign?
    let right ← operand
    pure (.again (left.and right))

/-- A plus sign, if there is one. -/
def plusTurn (_ : Unit) : Reading (Round Unit Unit) := do
  skip skipBlanks
  if ← sign plusSign? then pure (.again ()) else pure (.exit ())

/-- A further value of a group, or the parenthesis that closes the group. -/
def groupTurn (items : List Value) : Reading (Round (List Value) (List Value)) := do
  skip skipBlanks
  if ← sign (symbol? ")") then pure (.exit items)
  else
    skip (nextGroupValue items.isEmpty)
    match ← look groupWordFault? with
    | some fault => refuse fault
    | none =>
      let item ← take readGroupValue
      pure (.again (items ++ [item]))

end Reading

/-- The parts of a query text that are read by calling one another. -/
inductive Part where
  | disjunction | conjunction | operand | primary | comparison

namespace Part

open Reading

/-- Reads a part with a cursor.  Calls are nested to at most `bound`, and so are the turns of each
loop. -/
def descend : (bound : Nat) → Part → Reading Query
  | 0, _ => giveUp
  | bound + 1, disjunction => do
    let first ← descend bound conjunction
    loop (disjunctTurn (descend bound conjunction)) bound first
  | bound + 1, conjunction => do
    let first ← descend bound operand
    loop (conjunctTurn (descend bound operand)) bound first
  | bound + 1, operand => do
    loop plusTurn bound ()
    let place ← look id
    if ← sign notSign? then
      enter place
      let q ← descend bound operand
      leave
      pure q.not
    else descend bound primary
  | bound + 1, primary => do
    skip skipBlanks
    let place ← look id
    if ← sign (symbol? "(") then
      enter place
      let q ← descend bound disjunction
      let q ← take (closeParenthesis q)
      leave
      pure q
    else
      match ← look operandFault? with
      | some fault => refuse fault
      | none => descend bound comparison
  | _ + 1, comparison => take fun s => (readComparison s).map fun (c, rest) => (.comparison c, rest)

/-- The operands that may be nested in a part, where a number of levels is left. -/
def inner : (levels : Nat) → Option (Reader Query)
  | 0 => none
  | levels + 1 => some (QueryFilter.operand levels)

/-- What the reader of a part finds, where it may go in a number of levels. -/
def read (levels : Nat) : Part → List Char → Except Fault (Query × List Char)
  | disjunction, s => readDisjunction (QueryFilter.operand levels) s
  | conjunction, s => readConjunction (QueryFilter.operand levels) s
  | operand, s => (QueryFilter.operand levels).run s
  | primary, s => readPrimary (inner levels) (skipBlanks s)
  | comparison, s => (readComparison s).map fun (c, rest) => (.comparison c, rest)

end Part

/-! ## The readers as sequences -/

section Sequences

variable {operand : Reader Query}

theorem readConjuncts_eq (left : Query) (s : List Char) :
    readConjuncts operand left s =
      if endsConjunction (skipBlanks s) then .ok (left, skipBlanks s)
      else operand.run (skipAndSign (skipBlanks s)) >>= fun (right, rest) =>
        readConjuncts operand (left.and right) rest := by
  rw [readConjuncts]
  split
  · rfl
  · split
    next hrun => rw [hrun]; rfl
    next hrun => rw [hrun]; rfl

theorem readConjunction_eq (s : List Char) :
    readConjunction operand s =
      operand.run s >>= fun (first, rest) => readConjuncts operand first rest := by
  unfold readConjunction
  cases operand.run s <;> rfl

theorem readDisjuncts_eq (left : Query) (s : List Char) :
    readDisjuncts operand left s =
      match orSign? (skipBlanks s) with
      | none => .ok (left, skipBlanks s)
      | some s' => readConjunction operand s' >>= fun (right, rest) =>
          readDisjuncts operand (left.or right) rest := by
  rw [readDisjuncts]
  split
  next hnone => rw [hnone]
  next hsome =>
    rw [hsome]
    dsimp only
    split
    next hrun => rw [hrun]; rfl
    next hrun => rw [hrun]; rfl

theorem readDisjunction_eq (s : List Char) :
    readDisjunction operand s =
      readConjunction operand s >>= fun (first, rest) => readDisjuncts operand first rest := by
  unfold readDisjunction
  cases readConjunction operand s <;> rfl

end Sequences

theorem symbol?_singleton (c : Char) (s : List Char) :
    [c].isPrefixOf? s = if s.head? = some c then some s.tail else none := by
  cases s with
  | nil => rfl
  | cons d s =>
      change (if c == d then some s else none) = if some d = some c then some s else none
      by_cases hcd : c = d
      · simp [hcd]
      · rw [if_neg (by simpa using hcd), if_neg fun h => hcd (Option.some.inj h).symm]

/-- A parenthesis in front of an operand opens a query, and anything else is a comparison or a
fault. -/
theorem readPrimary_eq (inner : Option (Reader Query)) (s : List Char) :
    readPrimary inner s =
      match symbol? "(" s with
      | some s' =>
        match inner with
        | none => .error (.here .tooDeep s)
        | some operand => readDisjunction operand s' >>= fun (q, rest) => closeParenthesis q rest
      | none =>
        match operandFault? s with
        | some fault => .error fault
        | none => (readComparison s).map fun (c, rest) => (.comparison c, rest) := by
  cases s with
  | nil => rfl
  | cons c s =>
      have hopen : symbol? "(" (c :: s) = if c = '(' then some s else none := by
        rw [symbol?, show "(".toList = ['('] from rfl, symbol?_singleton]
        simp only [List.head?_cons, Option.some.injEq, List.tail_cons]
      unfold readPrimary
      rw [hopen]
      dsimp only
      by_cases hc : c = '('
      · rw [if_pos hc, if_pos hc]
        cases inner with
        | none => rfl
        | some operand =>
            dsimp only
            cases readDisjunction operand s <;> rfl
      · rw [if_neg hc, if_neg hc, operandFault?, if_neg (List.cons_ne_nil c s)]
        split
        · rfl
        · dsimp only
          cases readComparison (c :: s) <;> rfl

theorem readOperandWith_eq (inner : Option (Reader Query)) (s : List Char) :
    readOperandWith inner s =
      match notSign? (skipPlusSigns s) with
      | none => readPrimary inner (skipPlusSigns s)
      | some s' =>
        match inner with
        | none => .error (.here .tooDeep (skipPlusSigns s))
        | some operand => operand.run s' >>= fun (q, rest) => .ok (q.not, rest) := by
  unfold readOperandWith
  dsimp only
  cases notSign? (skipPlusSigns s) with
  | none => rfl
  | some s' =>
      cases inner with
      | none => rfl
      | some operand =>
          dsimp only
          cases operand.run s' <;> rfl

/-- The reader of the values of a group, turn by turn. -/
theorem readGroupValues_eq (isFirst : Bool) (s : List Char) :
    readGroupValues isFirst s =
      match symbol? ")" (skipBlanks s) with
      | some s' => .ok ([], s')
      | none =>
        match groupWordFault? (nextGroupValue isFirst (skipBlanks s)) with
        | some fault => .error fault
        | none => readGroupValue (nextGroupValue isFirst (skipBlanks s)) >>= fun (item, rest) =>
            (readGroupValues false rest).map fun (items, rest) => (item :: items, rest) := by
  rw [symbol?, show ")".toList = [')'] from rfl, symbol?_singleton, readGroupValues]
  split
  next => rfl
  next =>
    dsimp only
    cases groupWordFault? (nextGroupValue isFirst (skipBlanks s)) with
    | some fault => rfl
    | none =>
        dsimp only
        split
        next hitem => rw [hitem]; rfl
        next item rest hitem =>
          rw [hitem]
          change _ = (readGroupValues false rest).map _
          cases readGroupValues false rest <;> rfl

/-! ## Loops -/

theorem skipPlusSigns_skipBlanks (s : List Char) :
    skipPlusSigns (skipBlanks s) = skipPlusSigns s := by
  induction s with
  | nil => rfl
  | cons c s ih =>
      rw [Text.skipBlanks_cons]
      split
      next hblank => rw [ih, skipPlusSigns, hblank, Bool.true_or, if_pos rfl]
      next => rfl

theorem skipPlusSigns_of_plusSign? {s rest : List Char} (h : plusSign? s = some rest) :
    skipPlusSigns s = skipPlusSigns rest ∧ rest <:+ s ∧ rest.length < s.length := by
  unfold plusSign? at h
  split at h
  next => cases h
  next c s =>
    split at h
    next hplus =>
      cases h
      refine ⟨?_, List.suffix_cons c _, Nat.lt_succ_self _⟩
      rw [skipPlusSigns, if_pos]
      simp [hplus]
    next => cases h

theorem skipPlusSigns_of_plusSign?_eq_none {s : List Char} (h : plusSign? (skipBlanks s) = none) :
    skipPlusSigns s = skipBlanks s := by
  rw [← skipPlusSigns_skipBlanks]
  cases hs : skipBlanks s with
  | nil => rfl
  | cons c s' =>
      have hblank : isBlank c = false := by
        have hhead := List.head?_dropWhile_not isBlank s
        rwa [show s.dropWhile isBlank = c :: s' from hs] at hhead
      rw [hs] at h
      rw [skipPlusSigns, if_neg]
      intro hskips
      rcases Bool.or_eq_true_iff.mp hskips with hc | hplus
      · rw [hblank] at hc
        cases hc
      · rw [plusSign?, if_pos (by simpa using hplus)] at h
        cases h

open Reading

/-- The turns that take plus signs come to where they end. -/
theorem loop_plusTurn {bound : Nat} {s : List Char} (hbound : s.length < bound)
    (opened : List (List Char)) :
    loop plusTurn bound () ⟨s, opened⟩ = .done () ⟨skipPlusSigns s, opened⟩ := by
  induction bound generalizing s with
  | zero => exact absurd hbound (Nat.not_lt_zero _)
  | succ bound ih =>
      simp only [loop, plusTurn, bind_run, skip_run, andThen_done]
      cases hplus : plusSign? (skipBlanks s) with
      | none =>
          rw [sign_of_none _ hplus, skipPlusSigns_of_plusSign?_eq_none hplus]
          rfl
      | some rest =>
          obtain ⟨hskip, -, hlt⟩ := skipPlusSigns_of_plusSign? hplus
          have hle := Text.skipBlanks_length_le s
          rw [sign_of_some _ hplus, ← skipPlusSigns_skipBlanks s, hskip]
          exact ih (by omega)

section Turns

variable {x : Reading Query} {operand : Reader Query} {opened : List (List Char)}

/-- The turns that read operands of a conjunction read what the reader reads.  An operand takes a
character, so the text that remains gets shorter with the turns that are left. -/
theorem agrees_conjuncts {bound : Nat} {s : List Char} (hbound : s.length < bound) (left : Query)
    (hx : ∀ s', s' <:+ s → Agrees ⟨s', opened⟩ (x ⟨s', opened⟩) (operand.run s')) :
    Agrees ⟨s, opened⟩ (loop (conjunctTurn x) bound left ⟨s, opened⟩)
      (readConjuncts operand left s) := by
  induction bound generalizing s left with
  | zero => exact absurd hbound (Nat.not_lt_zero _)
  | succ bound ih =>
      simp only [loop, conjunctTurn, bind_run, skip_run, andThen_done, look_run]
      rw [readConjuncts_eq]
      split
      next hends => exact ⟨skipBlanks_suffix s, rfl⟩
      next =>
        have hsuffix : skipAndSign (skipBlanks s) <:+ s :=
          (skipAndSign_suffix _).trans (skipBlanks_suffix s)
        simp only [bind_run, sign_andThen, andThen_andThen]
        refine Agrees.mono ((hx _ hsuffix).bind fun right rest hrun hrest => ?_) hsuffix
        have hlt := operand.shortens hrun
        have hle := hsuffix.length_le
        exact ih (by omega) _ fun s' hs' => hx s' (hs'.trans (hrest.trans hsuffix))

/-- The turns that read operands of a disjunction read what the reader reads. -/
theorem agrees_disjuncts {bound : Nat} {s : List Char} (hbound : s.length < bound) (left : Query)
    (hx : ∀ s', s' <:+ s → Agrees ⟨s', opened⟩ (x ⟨s', opened⟩) (readConjunction operand s')) :
    Agrees ⟨s, opened⟩ (loop (disjunctTurn x) bound left ⟨s, opened⟩)
      (readDisjuncts operand left s) := by
  induction bound generalizing s left with
  | zero => exact absurd hbound (Nat.not_lt_zero _)
  | succ bound ih =>
      simp only [loop, disjunctTurn, bind_run, skip_run, andThen_done]
      rw [readDisjuncts_eq]
      cases hor : orSign? (skipBlanks s) with
      | none =>
          rw [sign_of_none _ hor]
          exact ⟨skipBlanks_suffix s, rfl⟩
      | some s₂ =>
          have hsuffix : s₂ <:+ s := (suffix_of_orSign? hor).trans (skipBlanks_suffix s)
          rw [sign_of_some _ hor]
          simp only [andThen_done, if_true, bind_run, andThen_andThen]
          refine Agrees.mono ((hx _ hsuffix).bind fun right rest hrun hrest => ?_) hsuffix
          have hlt := length_of_readConjunction hrun
          have hle := hsuffix.length_le
          exact ih (by omega) _ fun s' hs' => hx s' (hs'.trans (hrest.trans hsuffix))

end Turns

/-- What is found behind the values of a group that have been read. -/
def behindItems (items : List Value) (found : Except Fault (List Value × List Char)) :
    Except Fault (List Value × List Char) :=
  found.map fun (others, rest) => (items ++ others, rest)

theorem behindItems_nil (found : Except Fault (List Value × List Char)) :
    behindItems [] found = found := by
  cases found <;> rfl

theorem behindItems_next (items : List Value) (found : Except Fault (Value × List Char)) :
    behindItems items (found >>= fun (item, rest) =>
        (readGroupValues false rest).map fun (others, rest) => (item :: others, rest)) =
      found >>= fun (item, rest) =>
        behindItems (items ++ [item]) (readGroupValues (items ++ [item]).isEmpty rest) := by
  cases found with
  | error fault => rfl
  | ok result =>
      obtain ⟨item, rest⟩ := result
      have hnonempty : (items ++ [item]).isEmpty = false := by simp
      dsimp only [bind, Except.bind]
      rw [hnonempty]
      cases readGroupValues false rest with
      | error fault => rfl
      | ok found => simp [behindItems, Except.map]

/-- The turns that read the values of a group read what the reader reads. -/
theorem agrees_group {opened : List (List Char)} (hlevel : opened.length ≤ maxNesting) {bound : Nat}
    {s : List Char} (hbound : s.length < bound) (items : List Value) :
    Agrees ⟨s, opened⟩ (loop groupTurn bound items ⟨s, opened⟩)
      (behindItems items (readGroupValues items.isEmpty s)) := by
  induction bound generalizing s items with
  | zero => exact absurd hbound (Nat.not_lt_zero _)
  | succ bound ih =>
      simp only [loop, groupTurn, bind_run, skip_run, andThen_done]
      rw [readGroupValues_eq]
      cases hclose : symbol? ")" (skipBlanks s) with
      | some rest =>
          rw [sign_of_some _ hclose]
          have hsuffix := (suffix_of_symbol? hclose).trans (skipBlanks_suffix s)
          exact ⟨hsuffix, by simp⟩
      | none =>
          have hsuffix : nextGroupValue items.isEmpty (skipBlanks s) <:+ s :=
            (nextGroupValue_suffix _ _).trans (skipBlanks_suffix s)
          rw [sign_of_none _ hclose]
          simp only [andThen_done, Bool.false_eq_true, if_false, bind_run, skip_run, look_run]
          generalize nextGroupValue items.isEmpty (skipBlanks s) = s' at hsuffix
          cases hword : groupWordFault? s' with
          | some fault =>
              have hfails : (Cursor.mk s' opened).FailsAt fault ⟨s', opened⟩ :=
                .here hlevel (groupWordFault?_shallow hword)
              exact ⟨_, rfl, hfails.mono hsuffix⟩
          | none =>
              have hvalue : Agrees ⟨s', opened⟩ (take readGroupValue ⟨s', opened⟩)
                  (readGroupValue s') :=
                .take hlevel (fun _ _ h => (readGroupValue_staysIn _).of_ok h)
                  fun _ h => readGroupValue_shallow _ _ h
              dsimp only
              rw [behindItems_next, bind_run, andThen_andThen]
              refine Agrees.mono (hvalue.bind fun item rest hitem _ => ?_) hsuffix
              have hlt := length_of_readGroupValue hitem
              have hle := hsuffix.length_le
              exact ih (by omega) _

/-! ## Parts -/

theorem operand_run (levels : Nat) (s : List Char) :
    (operand levels).run s = readOperandWith (Part.inner levels) s := by
  cases levels <;> rfl

theorem skipBlanks_skipPlusSigns (s : List Char) :
    skipBlanks (skipPlusSigns s) = skipPlusSigns s := by
  induction s with
  | nil => rfl
  | cons c s ih =>
      rw [skipPlusSigns]
      split
      next => exact ih
      next hstays =>
        have hblank : ¬ isBlank c := fun hblank => hstays (Bool.or_eq_true_iff.mpr (.inl hblank))
        rw [Text.skipBlanks_cons, if_neg hblank]

theorem operandFault?_shallow {s : List Char} {fault : Fault} (h : operandFault? s = some fault) :
    fault.cause.kind ≠ .nestingTooDeep := by
  grind [operandFault?, Fault.here, ParseError.Cause.kind, ParseError.TextCause.kind]

theorem closeParenthesis_shallow (q : Query) (s : List Char) : Shallow (closeParenthesis q s) := by
  intro fault h
  grind [closeParenthesis, Fault.here, ParseError.Cause.kind, ParseError.TextCause.kind]

/-- A comparison takes its text from the front. -/
theorem suffix_of_readComparison {c : Comparison} {s rest : List Char}
    (h : readComparison s = .ok (c, rest)) : rest <:+ s := by
  cases s with
  | nil => exact absurd (length_of_readComparison h) (Nat.not_lt_zero _)
  | cons d s => exact (readComparison_staysIn d s).of_ok h

theorem bind_ok_id {α : Type} (found : Except Fault (α × List Char)) :
    (found >>= fun (a, rest) => .ok (id a, rest)) = found := by
  cases found <;> rfl

theorem skipPlusSigns_skipPlusSigns (s : List Char) :
    skipPlusSigns (skipPlusSigns s) = skipPlusSigns s := by
  induction s with
  | nil => rfl
  | cons c s ih =>
      rw [skipPlusSigns]
      split
      next => exact ih
      next hstays => rw [skipPlusSigns, if_neg hstays]

theorem operand_run_skipPlusSigns (levels : Nat) (s : List Char) :
    (operand levels).run (skipPlusSigns s) = (operand levels).run s := by
  rw [operand_run, operand_run, readOperandWith_eq, readOperandWith_eq, skipPlusSigns_skipPlusSigns]

/-- Where a parenthesis opens, an operand is what it opens. -/
theorem operand_run_of_parenthesis {s rest : List Char} (hopen : symbol? "(" s = some rest)
    (levels : Nat) : (operand levels).run s = readPrimary (Part.inner levels) s := by
  obtain rfl := eq_append_of_symbol? hopen
  have hskip : skipPlusSigns ("(".toList ++ rest) = "(".toList ++ rest := rfl
  have hnot : notSign? ("(".toList ++ rest) = none := rfl
  rw [operand_run, readOperandWith_eq, hskip, hnot]

/-- An opening is refused if as much as may be is open, and goes in one level otherwise. -/
theorem agrees_enter {place s : List Char} {opened : List (List Char)}
    (hlevel : opened.length ≤ maxNesting) (hopens : Opens place) {next : Reading Query}
    {read : Reader Query → Except Fault (Query × List Char)}
    (hrun : (operand (maxNesting - opened.length)).run place =
      match Part.inner (maxNesting - opened.length) with
      | none => .error (.here .tooDeep place)
      | some operand => read operand)
    (hnext : opened.length < maxNesting →
      (operand (maxNesting - opened.length)).run place =
        read (operand (maxNesting - (place :: opened).length)) →
      Agrees ⟨place, opened⟩ (next ⟨s, place :: opened⟩)
        (read (operand (maxNesting - (place :: opened).length)))) :
    Agrees ⟨place, opened⟩ ((enter place >>= fun _ => next) ⟨s, opened⟩)
      ((operand (maxNesting - opened.length)).run place) := by
  -- the reader runs out of levels where the cursor has opened as much as may be
  rcases Nat.lt_or_eq_of_le hlevel with hlt | heq
  · obtain ⟨levels, hlevels⟩ : ∃ levels, maxNesting - opened.length = levels + 1 :=
      Nat.exists_eq_add_one.mpr (Nat.sub_pos_of_lt hlt)
    have hinside : maxNesting - (place :: opened).length = levels := by
      rw [List.length_cons]
      omega
    have hread : (operand (maxNesting - opened.length)).run place =
        read (operand (maxNesting - (place :: opened).length)) := by
      rw [hrun, hlevels, hinside]
      rfl
    rw [bind_run, enter_of_lt _ hlt, hread]
    exact hnext hlt hread
  · have hfull :
        (operand (maxNesting - opened.length)).run place = .error (.here .tooDeep place) := by
      rw [hrun, heq, Nat.sub_self]
      rfl
    rw [bind_run, enter_of_eq _ heq, hfull]
    exact ⟨_, rfl, .tooDeep heq hopens hfull⟩

namespace Part

/-- The calls that a part makes before a character is taken. -/
def weight : Part → Nat
  | comparison => 0
  | primary => 1
  | operand => 2
  | conjunction => 3
  | disjunction => 4

theorem weight_le (part : Part) : part.weight ≤ 4 := by
  cases part <;> decide

/-- Within a bound, the descent reads every part as its reader does, if the bound is large enough
for the text that remains. -/
def AgreesWithin (bound : Nat) : Prop :=
  ∀ (part : Part) (s : List Char) (opened : List (List Char)), opened.length ≤ maxNesting →
    4 * s.length + part.weight < bound →
      Agrees ⟨s, opened⟩ (descend bound part ⟨s, opened⟩) (part.read (maxNesting - opened.length) s)

section Step

variable {bound : Nat} (ih : AgreesWithin bound) {s : List Char} {opened : List (List Char)}
  (hlevel : opened.length ≤ maxNesting)

include ih hlevel

theorem agrees_disjunction (hbound : 4 * s.length + disjunction.weight < bound + 1) :
    Agrees ⟨s, opened⟩ (descend (bound + 1) disjunction ⟨s, opened⟩)
      (disjunction.read (maxNesting - opened.length) s) := by
  have hconjunction : ∀ s', s' <:+ s → Agrees ⟨s', opened⟩ (descend bound conjunction ⟨s', opened⟩)
      (readConjunction (QueryFilter.operand (maxNesting - opened.length)) s') := by
    intro s' hs'
    have hle := hs'.length_le
    exact ih conjunction s' opened hlevel (by simp only [weight] at *; omega)
  rw [read, readDisjunction_eq]
  refine (hconjunction s List.suffix_rfl).bind fun first rest _ hrest => ?_
  have hle := hrest.length_le
  refine agrees_disjuncts (by simp only [weight] at *; omega) first fun s' hs' => ?_
  exact hconjunction s' (hs'.trans hrest)

theorem agrees_conjunction (hbound : 4 * s.length + conjunction.weight < bound + 1) :
    Agrees ⟨s, opened⟩ (descend (bound + 1) conjunction ⟨s, opened⟩)
      (conjunction.read (maxNesting - opened.length) s) := by
  have hoperand : ∀ s', s' <:+ s → Agrees ⟨s', opened⟩ (descend bound operand ⟨s', opened⟩)
      ((QueryFilter.operand (maxNesting - opened.length)).run s') := by
    intro s' hs'
    have hle := hs'.length_le
    exact ih operand s' opened hlevel (by simp only [weight] at *; omega)
  rw [read, readConjunction_eq]
  refine (hoperand s List.suffix_rfl).bind fun first rest _ hrest => ?_
  have hle := hrest.length_le
  refine agrees_conjuncts (by simp only [weight] at *; omega) first fun s' hs' => ?_
  exact hoperand s' (hs'.trans hrest)

theorem agrees_operand (hbound : 4 * s.length + operand.weight < bound + 1) :
    Agrees ⟨s, opened⟩ (descend (bound + 1) operand ⟨s, opened⟩)
      (operand.read (maxNesting - opened.length) s) := by
  have hplus := skipPlusSigns_suffix s
  have hle := hplus.length_le
  have hturns : s.length < bound := by
    simp only [weight] at hbound
    omega
  rw [read, ← operand_run_skipPlusSigns]
  simp only [descend, bind_run, loop_plusTurn hturns, andThen_done, look_run, id_eq]
  refine Agrees.mono ?_ hplus
  have hread := readOperandWith_eq (inner (maxNesting - opened.length)) (skipPlusSigns s)
  rw [← operand_run, skipPlusSigns_skipPlusSigns] at hread
  cases hnot : notSign? (skipPlusSigns s) with
  | none =>
      rw [hread, hnot, sign_of_none _ hnot]
      have hprimary := ih primary (skipPlusSigns s) opened hlevel
        (by simp only [weight] at *; omega)
      rw [read, skipBlanks_skipPlusSigns] at hprimary
      exact hprimary
  | some s' =>
      have hlt := length_of_notSign? hnot
      have hsuffix := suffix_of_notSign? hnot
      have hopens : Opens (skipPlusSigns s) := .inr (by rw [hnot]; rfl)
      rw [sign_of_some _ hnot]
      rw [hnot] at hread
      refine agrees_enter hlevel hopens hread fun hfree hrun => ?_
      have hinside := ih operand s' (skipPlusSigns s :: opened) hfree
        (by simp only [weight] at *; omega)
      refine hinside.leave hopens hsuffix hlt (fun fault hfault => ?_) Query.not
      rw [hrun]
      exact bind_eq_error.mpr (.inl hfault)

theorem agrees_primary (hbound : 4 * s.length + primary.weight < bound + 1) :
    Agrees ⟨s, opened⟩ (descend (bound + 1) primary ⟨s, opened⟩)
      (primary.read (maxNesting - opened.length) s) := by
  have hskip := skipBlanks_suffix s
  have hle := hskip.length_le
  have hread := readPrimary_eq (inner (maxNesting - opened.length)) (skipBlanks s)
  rw [read]
  simp only [descend, bind_run, skip_run, andThen_done, look_run, id_eq]
  refine Agrees.mono ?_ hskip
  cases hopen : symbol? "(" (skipBlanks s) with
  | some s' =>
      have hlength := length_of_symbol? hopen
      have hlt : s'.length < (skipBlanks s).length := by
        rw [← hlength]
        exact Nat.lt_add_of_pos_right (by decide)
      have hopens : Opens (skipBlanks s) := .inl (by rw [eq_append_of_symbol? hopen]; rfl)
      rw [hopen, ← operand_run_of_parenthesis hopen] at hread
      rw [sign_of_some _ hopen, ← operand_run_of_parenthesis hopen]
      refine agrees_enter hlevel hopens hread fun hfree hrun => ?_
      have hinside := ih disjunction s' (skipBlanks s :: opened) hfree
        (by simp only [weight] at *; omega)
      -- the closing parenthesis is read inside: if it is missing, the place is still open
      have hclosed : Agrees ⟨s', skipBlanks s :: opened⟩
          ((descend bound disjunction >>= fun q => take (closeParenthesis q))
            ⟨s', skipBlanks s :: opened⟩)
          (disjunction.read (maxNesting - (skipBlanks s :: opened).length) s' >>=
            fun (q, rest) => closeParenthesis q rest) :=
        hinside.bind fun q rest _ _ =>
          .take hfree (fun _ _ h => (closeParenthesis_staysIn q rest).of_ok h)
            fun _ h => closeParenthesis_shallow q rest _ h
      have hleft := hclosed.leave hopens (suffix_of_symbol? hopen) hlt
        (fun fault hfault => hrun.trans hfault) id
      rw [bind_ok_id, bind_run, andThen_andThen] at hleft
      exact hleft
  | none =>
      rw [hread, hopen, sign_of_none _ hopen]
      simp only [andThen_done, Bool.false_eq_true, if_false, bind_run, look_run]
      cases hfault : operandFault? (skipBlanks s) with
      | some fault => exact ⟨_, rfl, .here hlevel (operandFault?_shallow hfault)⟩
      | none => exact ih comparison (skipBlanks s) opened hlevel (by simp only [weight] at *; omega)

omit ih in
theorem agrees_comparison :
    Agrees ⟨s, opened⟩ (descend (bound + 1) comparison ⟨s, opened⟩)
      (comparison.read (maxNesting - opened.length) s) := by
  refine Agrees.take hlevel (fun q rest h => ?_) fun fault h => ?_
  · obtain ⟨⟨c, rest'⟩, hread, heq⟩ := map_eq_ok.mp h
    cases heq
    exact suffix_of_readComparison hread
  · exact readComparison_shallow s fault (map_eq_error.mp h)

end Step

/-- The descent reads every part as its reader does. -/
theorem agreesWithin (bound : Nat) : AgreesWithin bound := by
  induction bound with
  | zero => exact fun _ _ _ _ hbound => absurd hbound (Nat.not_lt_zero _)
  | succ bound ih =>
      intro part s opened hlevel hbound
      cases part with
      | disjunction => exact agrees_disjunction ih hlevel hbound
      | conjunction => exact agrees_conjunction ih hlevel hbound
      | operand => exact agrees_operand ih hlevel hbound
      | primary => exact agrees_primary ih hlevel hbound
      | comparison => exact agrees_comparison hlevel

/-- What a reader of a part leaves is shorter than what it is given. -/
theorem length_of_read {levels : Nat} {part : Part} {q : Query} {s rest : List Char}
    (h : part.read levels s = .ok (q, rest)) : rest.length < s.length := by
  cases part with
  | disjunction => exact length_of_readDisjunction h
  | conjunction => exact length_of_readConjunction h
  | operand => exact (QueryFilter.operand levels).shortens h
  | primary => exact Nat.lt_of_lt_of_le (length_of_readPrimary h) (Text.skipBlanks_length_le s)
  | comparison =>
      obtain ⟨⟨c, rest'⟩, hread, heq⟩ := map_eq_ok.mp h
      cases heq
      exact length_of_readComparison hread

end Part

end QueryFilter
