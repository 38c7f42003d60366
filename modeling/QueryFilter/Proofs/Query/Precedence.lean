import QueryFilter.Proofs.Query.Nesting

/-!
# Precedence and associativity

Texts that are queries on their own, each in parentheses and behind a sign of its own, are joined by
signs of conjunction into rows, and the rows are joined by signs of disjunction.  The whole text
reads as the disjunction of the conjunctions, both grouped to the left (`Rows.parse_text`),
whichever spellings of the signs are mixed.

An operand takes one level for its parentheses and one more for a negation, and the levels that are
left must be as many as the reader reaches in its text.  What stands in the parentheses is any text
that is accepted, and reads there as it does alone (`readDisjunction_of_readQuery`).
-/

namespace QueryFilter

open Text (skipBlanks)

/-! ## Chains -/

/-- Things with a sign between each two of them. -/
structure Chain (σ α : Type) where
  first : α
  others : List (σ × α)

namespace Chain

variable {σ α : Type} (chain : Chain σ α)

/-- The things of a chain. -/
def items : List α := chain.first :: chain.others.map Prod.snd

/-- Appends each sign and the thing behind it to a text. -/
def writeOthers (sign : σ → List Char) (write : α → List Char → List Char)
    (others : List (σ × α)) (rest : List Char) : List Char :=
  others.foldr (fun (s, a) rest => sign s ++ write a rest) rest

/-- Appends a chain to a text. -/
def write (sign : σ → List Char) (write : α → List Char → List Char) (rest : List Char) : List Char :=
  write chain.first (writeOthers sign write chain.others rest)

/-- The meanings of the things joined from left to right. -/
def fold (join : Query → Query → Query) (meaning : α → Query) : Query :=
  chain.others.foldl (fun q (_, a) => join q (meaning a)) (meaning chain.first)

end Chain

/-! ## Operands and rows -/

/-- What stands in front of the parentheses of an operand. -/
inductive OperandSign where
  | absent
  | plus
  | word
  | bang
  | minus

namespace OperandSign

def text : OperandSign → List Char
  | absent => []
  | plus => "+".toList
  | word => "NOT ".toList
  | bang => "!".toList
  | minus => "-".toList

/-- Whether a sign negates its operand. -/
def negates : OperandSign → Bool
  | absent | plus => false
  | word | bang | minus => true

/-- The levels of nesting that an operand takes: one for its parentheses, and one for a negation. -/
def levels (sign : OperandSign) : Nat := if sign.negates then 2 else 1

end OperandSign

/-- A sign between two operands of a row. -/
inductive AndSign where
  | word
  | symbol
  | blank

def AndSign.text : AndSign → List Char
  | word => " AND ".toList
  | symbol => " && ".toList
  | blank => " ".toList

/-- A sign between two rows. -/
inductive OrSign where
  | word
  | symbol

def OrSign.text : OrSign → List Char
  | word => " OR ".toList
  | symbol => " || ".toList

/-- A text in parentheses with a sign in front of it, and the query that the text is. -/
structure Operand where
  sign : OperandSign
  text : String
  query : Query

namespace Operand

/-- Appends an operand to a text. -/
def write (o : Operand) (rest : List Char) : List Char :=
  o.sign.text ++ '(' :: (o.text.toList ++ ')' :: rest)

/-- The query that an operand stands for. -/
def meaning (o : Operand) : Query := if o.sign.negates then o.query.not else o.query

end Operand

/-- Operands that are joined by conjunction. -/
abbrev Row := Chain AndSign Operand

namespace Row

def write (row : Row) (rest : List Char) : List Char := Chain.write row AndSign.text Operand.write rest

def meaning (row : Row) : Query := row.fold Query.and Operand.meaning

end Row

/-- Rows that are joined by disjunction. -/
abbrev Rows := Chain OrSign Row

namespace Rows

def write (rows : Rows) (rest : List Char) : List Char := Chain.write rows OrSign.text Row.write rest

def text (rows : Rows) : String := String.ofList (rows.write [])

def meaning (rows : Rows) : Query := rows.fold Query.or Row.meaning

/-- The operands of all rows. -/
def operands (rows : Rows) : List Operand := rows.items.flatMap Chain.items

end Rows

/-! ## Reading an operand -/

theorem run_operand_blank (levels : Nat) (s : List Char) :
    (operand levels).run (' ' :: s) = (operand levels).run s := by
  cases levels <;> rfl

theorem run_operand_plus (levels : Nat) (s : List Char) :
    (operand levels).run ('+' :: '(' :: s) = (operand levels).run ('(' :: s) := by
  cases levels <;> rfl

namespace Operand

variable {o : Operand} (hread : Query.parse o.text = .ok o.query) {levels : Nat}

include hread

theorem run_parenthesized (hlevels : Query.nestingLevel o.text ≤ levels) (rest : List Char) :
    (operand (levels + 1)).run ('(' :: (o.text.toList ++ ')' :: rest)) = .ok (o.query, rest) := by
  have hquery := (Query.readQuery_eq_ok_iff hread).mpr hlevels
  exact readOperandWith_parenthesized
    (readDisjunction_of_readQuery hquery (Nat.le_refl levels) (endsQuery_close rest))

/-- An operand reads as what it stands for, whatever stands behind it. -/
theorem run_write (hlevels : Query.nestingLevel o.text + o.sign.levels ≤ levels)
    (rest : List Char) : (operand levels).run (o.write rest) = .ok (o.meaning, rest) := by
  have hinside : ∀ {inner}, Query.nestingLevel o.text ≤ inner → _ := fun hle =>
    run_parenthesized hread hle rest
  obtain ⟨sign, text, query⟩ := o
  obtain ⟨inner, rfl⟩ := Nat.exists_eq_add_of_le' (Nat.le_of_add_left_le hlevels)
  have hinner := hinside (Nat.le_of_add_le_add_right hlevels)
  cases sign with
  | absent => exact hinner
  | plus => exact (run_operand_plus _ _).trans hinner
  | word =>
      have hsign : ∀ s, notSign? (skipPlusSigns ("NOT ".toList ++ s)) = some (' ' :: s) :=
        fun _ => rfl
      exact readOperandWith_not (hsign _) ((run_operand_blank _ _).trans hinner)
  | bang =>
      have hsign : ∀ s, notSign? (skipPlusSigns ('!' :: '(' :: s)) = some ('(' :: s) :=
        fun _ => rfl
      exact readOperandWith_not (hsign _) hinner
  | minus =>
      have hsign : ∀ s, notSign? (skipPlusSigns ('-' :: '(' :: s)) = some ('(' :: s) :=
        fun _ => rfl
      exact readOperandWith_not (hsign _) hinner

omit hread

theorem skipBlanks_write (o : Operand) (rest : List Char) :
    skipBlanks (o.write rest) = o.write rest := by
  obtain ⟨sign, text, query⟩ := o
  cases sign <;> rfl

/-- An operand starts with a character that neither ends a conjunction nor starts a sign of it. -/
theorem endsConjunction_write (o : Operand) (rest : List Char) :
    endsConjunction (o.write rest) = false ∧ skipAndSign (o.write rest) = o.write rest := by
  obtain ⟨sign, text, query⟩ := o
  cases sign <;> exact ⟨rfl, rfl⟩

end Operand

/-! ## Reading rows -/

section Rows

variable {levels : Nat}

/-- A sign of conjunction and the operand behind it. -/
theorem readConjuncts_sign (sign : AndSign) {o : Operand} {follow : List Char}
    (ho : (operand levels).run (o.write follow) = .ok (o.meaning, follow)) (left : Query) :
    readConjuncts (operand levels) left (sign.text ++ o.write follow) =
      readConjuncts (operand levels) (left.and o.meaning) follow := by
  cases sign with
  | word => exact readConjuncts_next rfl ((run_operand_blank _ _).trans ho)
  | symbol => exact readConjuncts_next rfl ((run_operand_blank _ _).trans ho)
  | blank =>
      obtain ⟨hends, hsign⟩ := o.endsConjunction_write follow
      have hblank : skipBlanks (AndSign.blank.text ++ o.write follow) = o.write follow :=
        o.skipBlanks_write follow
      refine readConjuncts_next ?_ ?_
      · rw [hblank]
        exact hends
      · rw [hblank, hsign]
        exact ho

/-- The operands of a row behind its first one are joined to what stands in front of them. -/
theorem readConjuncts_writeOthers {others : List (AndSign × Operand)}
    (hothers : ∀ o ∈ others.map Prod.snd, ∀ rest,
      (operand levels).run (o.write rest) = .ok (o.meaning, rest))
    {rest : List Char} (hrest : endsConjunction (skipBlanks rest)) (left : Query) :
    readConjuncts (operand levels) left
        (Chain.writeOthers AndSign.text Operand.write others rest) =
      .ok (others.foldl (fun q (_, o) => q.and o.meaning) left, skipBlanks rest) := by
  induction others generalizing left with
  | nil => exact readConjuncts_stop hrest
  | cons next others ih =>
      obtain ⟨sign, o⟩ := next
      have hnext := hothers o List.mem_cons_self
      have hrow := ih (fun o ho => hothers o (List.mem_cons_of_mem _ ho)) (left.and o.meaning)
      exact (readConjuncts_sign sign (hnext _) left).trans hrow

/-- A row reads as the conjunction of its operands. -/
theorem readConjunction_write {row : Row}
    (hrow : ∀ o ∈ row.items, ∀ rest, (operand levels).run (o.write rest) = .ok (o.meaning, rest))
    {rest : List Char} (hrest : endsConjunction (skipBlanks rest)) :
    readConjunction (operand levels) (row.write rest) = .ok (row.meaning, skipBlanks rest) := by
  have hfirst := hrow row.first List.mem_cons_self
  rw [readConjunction, Row.write, Chain.write, hfirst]
  exact readConjuncts_writeOthers (fun o ho => hrow o (List.mem_cons_of_mem _ ho)) hrest _

theorem endsConjunction_writeOthers (others : List (OrSign × Row)) :
    endsConjunction (skipBlanks (Chain.writeOthers OrSign.text Row.write others [])) := by
  cases others with
  | nil => rfl
  | cons next others =>
      obtain ⟨sign, row⟩ := next
      cases sign <;> rfl

/-- A sign of disjunction and the row behind it. -/
theorem readDisjuncts_sign (sign : OrSign) {q : Query} {s follow : List Char}
    (hs : readConjunction (operand levels) s = .ok (q, follow)) (left : Query) :
    readDisjuncts (operand levels) left (skipBlanks (sign.text ++ s)) =
      readDisjuncts (operand levels) (left.or q) follow := by
  have hsign : orSign? (skipBlanks (skipBlanks (sign.text ++ s))) = some (' ' :: s) := by
    cases sign <;> rfl
  refine readDisjuncts_next hsign ?_
  rw [readConjunction, run_operand_blank]
  exact hs

/-- The rows behind the first one are joined to what stands in front of them. -/
theorem readDisjuncts_writeOthers {others : List (OrSign × Row)}
    (hothers : ∀ row ∈ others.map Prod.snd, ∀ o ∈ row.items, ∀ rest,
      (operand levels).run (o.write rest) = .ok (o.meaning, rest)) (left : Query) :
    readDisjuncts (operand levels) left
        (skipBlanks (Chain.writeOthers OrSign.text Row.write others [])) =
      .ok (others.foldl (fun q (_, row) => q.or row.meaning) left, []) := by
  induction others generalizing left with
  | nil => exact readDisjuncts_stop rfl
  | cons next others ih =>
      obtain ⟨sign, row⟩ := next
      have hnext := readConjunction_write (hothers row List.mem_cons_self)
        (endsConjunction_writeOthers others)
      have hrows := ih (fun row hrow => hothers row (List.mem_cons_of_mem _ hrow))
        (left.or row.meaning)
      exact (readDisjuncts_sign sign hnext left).trans hrows

end Rows

namespace Rows

theorem readDisjunction_write {rows : Rows} {levels : Nat}
    (hrows : ∀ o ∈ rows.operands, ∀ rest,
      (operand levels).run (o.write rest) = .ok (o.meaning, rest)) :
    readDisjunction (operand levels) (rows.write []) = .ok (rows.meaning, []) := by
  have hrow : ∀ row ∈ rows.items, ∀ o ∈ row.items, ∀ rest,
      (operand levels).run (o.write rest) = .ok (o.meaning, rest) := fun row hrow o ho =>
    hrows o (List.mem_flatMap.mpr ⟨row, hrow, ho⟩)
  have hfirst := readConjunction_write (hrow rows.first List.mem_cons_self)
    (endsConjunction_writeOthers rows.others)
  rw [readDisjunction, Rows.write, Chain.write, hfirst]
  exact readDisjuncts_writeOthers (fun row hmem => hrow row (List.mem_cons_of_mem _ hmem)) _

theorem skipBlanks_write_ne_nil (rows : Rows) : skipBlanks (rows.write []) ≠ [] := by
  have hblank := Operand.skipBlanks_write rows.first.first
  rw [Rows.write, Chain.write, Row.write, Chain.write, hblank]
  exact List.append_ne_nil_of_right_ne_nil _ (List.cons_ne_nil _ _)

/-- **Joined texts read as their queries joined**: the operands of each row by conjunction, the rows
by disjunction, both from left to right.  The whole text may have 16384 characters, and each operand
may nest 64 levels deep, its own parentheses and its negation included. -/
theorem parse_text {rows : Rows} (hlength : rows.text.length ≤ 16384)
    (hread : ∀ o ∈ rows.operands, Query.parse o.text = .ok o.query)
    (hlevels : ∀ o ∈ rows.operands, Query.nestingLevel o.text + o.sign.levels ≤ 64) :
    Query.parse rows.text = .ok rows.meaning := by
  have htext : rows.text.toList = rows.write [] := String.toList_ofList
  have hwhole : readDisjunction (operand maxNesting) (rows.write []) = .ok (rows.meaning, []) :=
    readDisjunction_write fun o ho rest => Operand.run_write (hread o ho) (hlevels o ho) rest
  refine Query.parse_eq_ok.mpr ⟨hlength, ?_, ?_⟩
  · rw [htext]
    exact skipBlanks_write_ne_nil rows
  · rw [htext]
    exact readQuery_eq_ok.mpr ⟨[], hwhole, rfl⟩

/-- A word behind a blank, a negated pattern that is negated once more, and a regular expression. -/
theorem parse_text_signs :
    let word : Query := .comparison ⟨⟨"c", by decide⟩, .eq, .text "y", true⟩
    let pattern : Query := .comparison ⟨⟨"b", by decide⟩, .like, .text "x*", false⟩
    let regex : Query := .comparison ⟨⟨"d", by decide⟩, .regex, .text "z", false⟩
    let rows : Rows :=
      { first := ⟨⟨.absent, " c:y", word⟩, [(.blank, ⟨.minus, "-b:x*", pattern.not⟩)]⟩
        others := [(.symbol, ⟨⟨.plus, "d:/z/", regex⟩, []⟩)] }
    rows.text = "( c:y) -(-b:x*) || +(d:/z/)" ∧
      Query.parse rows.text = .ok ((word.and pattern.not.not).or regex) := by
  intro word pattern regex rows
  have hword : Query.parse " c:y" = .ok word := by with_unfolding_all rfl
  have hpattern : Query.parse "-b:x*" = .ok pattern.not := by with_unfolding_all rfl
  have hregex : Query.parse "d:/z/" = .ok regex := by with_unfolding_all rfl
  have htext : rows.text = "( c:y) -(-b:x*) || +(d:/z/)" := by decide
  have hlength : rows.text.length ≤ 16384 :=
    Nat.le_trans (Nat.le_of_eq (congrArg String.length htext)) (by decide)
  have hoperands : ∀ o ∈ rows.operands,
      Query.parse o.text = .ok o.query ∧ Query.nestingLevel o.text + o.sign.levels ≤ 64 := by
    intro o ho
    have ho : o ∈ [⟨.absent, " c:y", word⟩, ⟨.minus, "-b:x*", pattern.not⟩,
      ⟨.plus, "d:/z/", regex⟩] := ho
    simp only [List.mem_cons, List.not_mem_nil, or_false] at ho
    rcases ho with rfl | rfl | rfl
    · exact ⟨hword, by decide +kernel⟩
    · exact ⟨hpattern, by decide +kernel⟩
    · exact ⟨hregex, by decide +kernel⟩
  exact ⟨htext, parse_text hlength (fun o ho => (hoperands o ho).1) fun o ho => (hoperands o ho).2⟩

end Rows

end QueryFilter
