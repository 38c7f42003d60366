import QueryFilter.Query.Grammar
import QueryFilter.Proofs.Query.Clause
import QueryFilter.Proofs.Query.Leaves

/-!
# The text of a query reads back

A canonical tree is one that the language of queries can express: connectives have the operands
that belong to them, and the comparisons are canonical.  Its text reads as the same tree
(`Query.parse_render`), if it is not too long and not nested too deeply.

## Strategy

The reader of one level reads what stands in the parentheses of that level by the reader of the
next.  A conjunction or disjunction is written with its operands in parentheses, and so takes one
level; a negation takes two, one for the negation and one for the parentheses behind it.  By
induction on the tree the text of a tree reads back where enough levels remain, whatever follows it
as long as that ends a query (`readDisjunction_write`).  The induction only asks that each comparison
reads back (`Comparison.IsWritable`), which goes for some that are not canonical as well.
-/

namespace QueryFilter

open Text (isBlank skipBlanks)

/-! ## Canonical trees -/

/-- The number of levels that a connective takes. -/
def Connective.levels : Connective → Nat
  | .not => 2
  | _ => 1

namespace Query

/-- A tree that the language of queries can express. -/
def IsCanonical : Query → Prop
  | comparison c => c.IsCanonical
  | raw _ => False
  | unary op q => op = .not ∧ q.IsCanonical
  | binary op l r => op ≠ .not ∧ l.IsCanonical ∧ r.IsCanonical

theorem isCanonical_iff (q : Query) : q.IsCanonical ↔ q.IsTreeOf Comparison.IsCanonical := by
  induction q with
  | comparison c => exact Iff.rfl
  | raw r => exact Iff.rfl
  | unary op q ih => exact and_congr_right fun _ => ih
  | binary op l r ihl ihr => exact and_congr_right fun _ => and_congr ihl ihr

/-- For each leaf of a tree with `above` levels above it the number of levels above the leaf, from
left to right. -/
def leafLevels (above : Nat) : Query → List Nat
  | comparison _ | raw _ => [above]
  | unary op q => leafLevels (above + op.levels) q
  | binary op l r => leafLevels (above + op.levels) l ++ leafLevels (above + op.levels) r

/-- A tree has a leaf, and no leaf is above the root. -/
theorem exists_mem_leafLevels (above : Nat) (q : Query) : ∃ n ∈ q.leafLevels above, above ≤ n := by
  induction q generalizing above with
  | comparison c => exact ⟨above, List.mem_singleton_self _, Nat.le_refl _⟩
  | raw r => exact ⟨above, List.mem_singleton_self _, Nat.le_refl _⟩
  | unary op q ih =>
      obtain ⟨n, hn, hle⟩ := ih (above + op.levels)
      exact ⟨n, hn, Nat.le_trans (Nat.le_add_right _ _) hle⟩
  | binary op l r ihl ihr =>
      obtain ⟨n, hn, hle⟩ := ihl (above + op.levels)
      exact ⟨n, List.mem_append_left _ hn, Nat.le_trans (Nat.le_add_right _ _) hle⟩

end Query

/-! ## What ends a query -/

/-- A text behind which a query ends. -/
def EndsQuery (rest : List Char) : Prop := rest = [] ∨ ∃ s, rest = ')' :: s

theorem endsQuery_close (s : List Char) : EndsQuery (')' :: s) := .inr ⟨s, rfl⟩

theorem EndsQuery.endsTerm {rest : List Char} (hrest : EndsQuery rest) : EndsTerm rest := by
  rcases hrest with rfl | ⟨s, rfl⟩
  · exact nofun
  · exact endsTerm_cons rfl s

theorem EndsQuery.skipBlanks {rest : List Char} (hrest : EndsQuery rest) :
    Text.skipBlanks rest = rest := by
  rcases hrest with rfl | ⟨s, rfl⟩ <;> rfl

theorem EndsQuery.endsConjunction {rest : List Char} (hrest : EndsQuery rest) :
    endsConjunction rest := by
  rcases hrest with rfl | ⟨s, rfl⟩ <;> rfl

theorem EndsQuery.orSign? {rest : List Char} (hrest : EndsQuery rest) : orSign? rest = none := by
  rcases hrest with rfl | ⟨s, rfl⟩ <;> rfl

section Joining

variable {operand : Reader Query} {left right q : Query} {s s' rest : List Char}

theorem readConjuncts_stop (hends : endsConjunction (skipBlanks s)) :
    readConjuncts operand left s = .ok (left, skipBlanks s) := by
  rw [readConjuncts, if_pos hends]

theorem readConjuncts_next (hends : endsConjunction (skipBlanks s) = false)
    (hright : operand.run (skipAndSign (skipBlanks s)) = .ok (right, rest)) :
    readConjuncts operand left s = readConjuncts operand (left.and right) rest := by
  rw [readConjuncts, hends, if_neg Bool.false_ne_true]
  split
  next herror => rw [hright] at herror; cases herror
  next hok =>
    rw [hright] at hok
    cases hok
    rfl

theorem readDisjuncts_stop (hends : orSign? (skipBlanks s) = none) :
    readDisjuncts operand left s = .ok (left, skipBlanks s) := by
  rw [readDisjuncts]
  split
  next => rfl
  next hsome => rw [hends] at hsome; cases hsome

theorem readDisjuncts_next (hsign : orSign? (skipBlanks s) = some s')
    (hright : readConjunction operand s' = .ok (right, rest)) :
    readDisjuncts operand left s = readDisjuncts operand (left.or right) rest := by
  rw [readDisjuncts]
  split
  next hnone => rw [hsign] at hnone; cases hnone
  next hsome =>
    rw [hsign] at hsome
    cases hsome
    split
    next herror => rw [hright] at herror; cases herror
    next hok =>
      rw [hright] at hok
      cases hok
      rfl

variable (hrest : EndsQuery rest)

include hrest

theorem readConjuncts_end (q : Query) : readConjuncts operand q rest = .ok (q, rest) := by
  have hblank := hrest.skipBlanks
  have hends : endsConjunction (skipBlanks rest) := hblank.symm ▸ hrest.endsConjunction
  rw [readConjuncts_stop hends, hblank]

theorem readConjunction_operand (hread : operand.run s = .ok (q, rest)) :
    readConjunction operand s = .ok (q, rest) := by
  rw [readConjunction, hread]
  exact readConjuncts_end hrest q

theorem readDisjuncts_end (q : Query) : readDisjuncts operand q rest = .ok (q, rest) := by
  have hblank := hrest.skipBlanks
  have hends : orSign? (skipBlanks rest) = none := hblank.symm ▸ hrest.orSign?
  rw [readDisjuncts_stop hends, hblank]

theorem readDisjunction_operand (hread : operand.run s = .ok (q, rest)) :
    readDisjunction operand s = .ok (q, rest) := by
  rw [readDisjunction, readConjunction_operand hrest hread]
  exact readDisjuncts_end hrest q

/-- Two operands with a sign of conjunction between them. -/
theorem readDisjunction_and {l r : Query} {follow : List Char}
    (hleft : operand.run s = .ok (l, " AND ".toList ++ follow))
    (hright : operand.run (' ' :: follow) = .ok (r, rest)) :
    readDisjunction operand s = .ok (l.and r, rest) := by
  have hconjuncts : readConjuncts operand l (" AND ".toList ++ follow) = .ok (l.and r, rest) :=
    (readConjuncts_next rfl hright).trans (readConjuncts_end hrest _)
  rw [readDisjunction, readConjunction, hleft]
  dsimp only
  rw [hconjuncts]
  exact readDisjuncts_end hrest _

/-- Two operands with a sign of disjunction between them. -/
theorem readDisjunction_or {l r : Query} {follow : List Char}
    (hleft : operand.run s = .ok (l, " OR ".toList ++ follow))
    (hright : operand.run (' ' :: follow) = .ok (r, rest)) :
    readDisjunction operand s = .ok (l.or r, rest) := by
  have hconjuncts : readConjuncts operand l (" OR ".toList ++ follow) =
      .ok (l, "OR ".toList ++ follow) := readConjuncts_stop rfl
  have hdisjuncts : readDisjuncts operand l ("OR ".toList ++ follow) = .ok (l.or r, rest) :=
    (readDisjuncts_next rfl (readConjunction_operand hrest hright)).trans
      (readDisjuncts_end hrest _)
  rw [readDisjunction, readConjunction, hleft]
  dsimp only
  rw [hconjuncts]
  exact hdisjuncts

end Joining

/-! ## Operands -/

/-- What stands in parentheses is read one level further in. -/
theorem readOperandWith_parenthesized {operand : Reader Query} {q : Query} {s rest : List Char}
    (hread : readDisjunction operand s = .ok (q, ')' :: rest)) :
    readOperandWith (some operand) ('(' :: s) = .ok (q, rest) := by
  have hplus : skipPlusSigns ('(' :: s) = '(' :: s := rfl
  have hnot : notSign? ('(' :: s) = none := rfl
  rw [readOperandWith, hplus]
  dsimp only
  rw [hnot]
  dsimp only
  rw [readPrimary, if_pos rfl, hread]
  rfl

/-- A sign of negation, and what it negates. -/
theorem readOperandWith_not {operand : Reader Query} {q : Query} {s s' rest : List Char}
    (hsign : notSign? (skipPlusSigns s) = some s') (hread : operand.run s' = .ok (q, rest)) :
    readOperandWith (some operand) s = .ok (q.not, rest) := by
  rw [readOperandWith]
  dsimp only
  rw [hsign]
  dsimp only
  rw [hread]

/-- What goes on with a character of a word is not a keyword. -/
theorem keyword?_eq_none {keyword : String} {s t : List Char} {d : Char}
    (hs : ∀ c ∈ s ++ [d], isBlank c = false ∧ c ≠ '(') (hd : d ∉ keyword.toList) :
    keyword? keyword (s ++ d :: t) = none := by
  rw [keyword?, Option.filter_eq_none_iff]
  intro rest hrest
  -- the keyword ends in front of `d`, which it does not contain
  obtain ⟨c, u, rfl, hc⟩ : ∃ c u, rest = c :: u ∧ c ∈ s ++ [d] := by
    rcases List.append_eq_append_iff.mp (eq_append_of_symbol? hrest) with
      ⟨behind, hkeyword, hrest⟩ | ⟨behind, hs', hrest⟩
    · cases behind with
      | nil => exact ⟨d, t, hrest.symm, List.mem_append_right s List.mem_cons_self⟩
      | cons e behind =>
          refine absurd ?_ hd
          rw [hkeyword, (List.cons.inj hrest).1]
          exact List.mem_append_right s List.mem_cons_self
    · cases behind with
      | nil => exact ⟨d, t, hrest, List.mem_append_right s List.mem_cons_self⟩
      | cons e behind =>
          refine ⟨e, _, hrest, List.mem_append_left [d] ?_⟩
          rw [hs']
          exact List.mem_append_right _ List.mem_cons_self
  obtain ⟨hblank, hne⟩ := hs c hc
  simp [hblank, hne]

theorem FieldPath.IsPlain.not_blank {f : FieldPath} (hf : f.IsPlain) :
    ∀ c ∈ f.text.toList ++ [':'], isBlank c = false ∧ c ≠ '(' := by
  intro c hc
  rcases List.mem_append.mp hc with hc | hc
  · obtain ⟨hblank, hplain⟩ := hf.plain c hc
    refine ⟨hblank, ?_⟩
    rintro rfl
    exact hplain (by decide)
  · rw [List.mem_singleton.mp hc]
    decide

section Fields

variable {c : Comparison} (hfield : c.field.IsPlain) (rest : List Char)

include hfield

/-- A comparison starts with the name of its field, and so with no character that has a meaning in
front of an operand there. -/
theorem Comparison.exists_head_write : ∃ first others, c.write rest = first :: others ∧
    isBlank first = false ∧ first ≠ '(' ∧ (first ∈ ['+', '-', '!'] → attached others = false) := by
  obtain ⟨first, others, htext⟩ := List.exists_cons_of_ne_nil c.field.toList_ne_nil
  obtain ⟨hblank, hparen⟩ := hfield.not_blank first (by rw [htext]; exact List.mem_cons_self)
  have hunsigned := hfield.unsigned
  rw [htext] at hunsigned
  refine ⟨first, others ++ ':' :: c.writeClause rest, ?_, hblank, hparen, fun hsign => ?_⟩
  · rw [Comparison.write, htext, List.cons_append]
  · have hequals : others[0]? = some '=' := hunsigned (List.mem_map_of_mem hsign)
    cases others with
    | nil => cases hequals
    | cons d others =>
        cases hequals
        rfl

theorem skipPlusSigns_write : skipPlusSigns (c.write rest) = c.write rest := by
  obtain ⟨first, others, hwrite, hblank, -, hsign⟩ := Comparison.exists_head_write hfield rest
  rw [hwrite, skipPlusSigns, hblank, Bool.false_or, if_neg]
  intro hplus
  obtain ⟨hfirst, hattached⟩ := Bool.and_eq_true_iff.mp hplus
  obtain rfl := beq_iff_eq.mp hfirst
  rw [hsign (by decide)] at hattached
  cases hattached

/-- The colon is reached before a keyword could end. -/
theorem keyword?_write {keyword : String} (hcolon : ':' ∉ keyword.toList) :
    keyword? keyword (c.write rest) = none :=
  keyword?_eq_none hfield.not_blank hcolon

theorem atKeyword_write {keyword : String} (hcolon : ':' ∉ keyword.toList) :
    atKeyword keyword (c.write rest) = false := by
  rw [atKeyword, keyword?_write hfield rest hcolon, Option.isSome_none]

theorem notSign?_write : notSign? (c.write rest) = none := by
  have hkeyword : keyword? "NOT" (c.write rest) = none := keyword?_write hfield rest (by decide)
  obtain ⟨first, others, hwrite, -, -, hsign⟩ := Comparison.exists_head_write hfield rest
  rw [hwrite] at hkeyword ⊢
  rw [notSign?, hkeyword, Option.none_or]
  apply if_neg
  rintro ⟨hfirst, hattached⟩
  rw [hsign (by rcases hfirst with rfl | rfl <;> decide)] at hattached
  cases hattached

end Fields

theorem readOperandWith_comparison (inner : Option (Reader Query)) {c : Comparison}
    (hc : c.IsWritable) {rest : List Char} (hrest : EndsTerm rest) :
    readOperandWith inner (c.write rest) = .ok (.comparison c, rest) := by
  have hread := readComparison_write hc hrest
  have hand : atKeyword "AND" (c.write rest) = false := atKeyword_write hc.field rest (by decide)
  have hor : atKeyword "OR" (c.write rest) = false := atKeyword_write hc.field rest (by decide)
  obtain ⟨first, others, hwrite, -, hparen, -⟩ := Comparison.exists_head_write hc.field rest
  have hprimary : readPrimary inner (c.write rest) = .ok (.comparison c, rest) := by
    rw [hwrite] at hread hand hor ⊢
    rw [readPrimary.eq_def]
    dsimp only
    rw [if_neg hparen, hand, hor, Bool.or_self, if_neg Bool.false_ne_true, hread]
  rw [readOperandWith, skipPlusSigns_write hc.field, notSign?_write hc.field]
  exact hprimary

/-! ## Trees -/

/-- A tree of comparisons that read back reads back where as many levels remain as its leaves lie
deep. -/
theorem readDisjunction_write {q : Query} (hq : q.IsTreeOf Comparison.IsWritable)
    {above levels : Nat} (hlevels : ∀ n ∈ q.leafLevels above, n ≤ above + levels) {rest : List Char}
    (hrest : EndsQuery rest) :
    readDisjunction (operand levels) (q.write rest) = .ok (q, rest) := by
  induction q generalizing above levels rest with
  | comparison c =>
      apply readDisjunction_operand hrest
      cases levels with
      | zero => exact readOperandWith_comparison none hq hrest.endsTerm
      | succ levels => exact readOperandWith_comparison _ hq hrest.endsTerm
  | raw r => exact hq.elim
  | unary op q ih =>
      obtain ⟨rfl, hq⟩ := hq
      obtain ⟨n, hn, hle⟩ := q.exists_mem_leafLevels (above + 2)
      have hn := hlevels n hn
      -- one level for the sign of negation, and one for the parentheses behind it
      obtain ⟨inner, rfl⟩ : ∃ inner, levels = inner + 2 := ⟨levels - 2, by omega⟩
      have hinner : ∀ n ∈ q.leafLevels (above + 2), n ≤ above + 2 + inner := by
        intro n hn
        rw [Nat.add_assoc, Nat.add_comm 2]
        exact hlevels n hn
      have hread := ih hq hinner (endsQuery_close rest)
      have hoperand : (operand (inner + 1)).run (' ' :: '(' :: q.write (')' :: rest)) =
          .ok (q, rest) := readOperandWith_parenthesized hread
      have hsign : notSign? (skipPlusSigns ("NOT ".toList ++ '(' :: q.write (')' :: rest))) =
          some (' ' :: '(' :: q.write (')' :: rest)) := rfl
      exact readDisjunction_operand hrest (readOperandWith_not hsign hoperand)
  | binary op l r ihl ihr =>
      obtain ⟨hop, hl, hr⟩ := hq
      have hone : op.levels = 1 := by
        cases op with
        | not => exact absurd rfl hop
        | _ => rfl
      obtain ⟨n, hn, hle⟩ := l.exists_mem_leafLevels (above + op.levels)
      have hn := hlevels n (List.mem_append_left _ hn)
      obtain ⟨inner, rfl⟩ : ∃ inner, levels = inner + 1 := ⟨levels - 1, by omega⟩
      have hinner : ∀ n, n ≤ above + (inner + 1) → n ≤ above + op.levels + inner := by
        intro n hn
        omega
      have hright : readDisjunction (operand inner) (r.write (')' :: rest)) =
          .ok (r, ')' :: rest) :=
        ihr hr (fun n hn => hinner n (hlevels n (List.mem_append_right _ hn)))
          (endsQuery_close rest)
      have hleft : ∀ follow, readDisjunction (operand inner) (l.write (')' :: follow)) =
          .ok (l, ')' :: follow) := fun follow =>
        ihl hl (fun n hn => hinner n (hlevels n (List.mem_append_left _ hn)))
          (endsQuery_close follow)
      have hright' : (operand (inner + 1)).run (' ' :: '(' :: r.write (')' :: rest)) =
          .ok (r, rest) := readOperandWith_parenthesized hright
      cases op with
      | not => exact absurd rfl hop
      | and =>
          exact readDisjunction_and hrest (readOperandWith_parenthesized (hleft _)) hright'
      | or =>
          exact readDisjunction_or hrest (readOperandWith_parenthesized (hleft _)) hright'

/-- The text of such a tree starts with a character that is not a blank. -/
theorem exists_head_write {q : Query} (hq : q.IsTreeOf Comparison.IsWritable) (rest : List Char) :
    ∃ c s, q.write rest = c :: s ∧ isBlank c = false := by
  cases q with
  | comparison c =>
      obtain ⟨first, others, hwrite, hblank, -, -⟩ := Comparison.exists_head_write hq.field rest
      exact ⟨first, others, hwrite, hblank⟩
  | raw r => exact hq.elim
  | unary op q => exact ⟨'N', _, rfl, rfl⟩
  | binary op l r =>
      cases op with
      | not => exact absurd rfl hq.1
      | and => exact ⟨'(', _, rfl, rfl⟩
      | or => exact ⟨'(', _, rfl, rfl⟩

namespace Query

/-- **The text of a canonical tree reads as the tree**, if it has at most 16384 characters and each
leaf lies below at most 64 levels, of which a conjunction or disjunction takes one and a negation
two. -/
theorem parse_render {q : Query} (hq : q.IsCanonical) (hlength : q.render.length ≤ 16384)
    (hlevels : ∀ n ∈ q.leafLevels 0, n ≤ 64) : parse q.render = .ok q := by
  have htext : q.render.toList = q.write [] := String.toList_ofList
  have hwritable : q.IsTreeOf Comparison.IsWritable :=
    (q.isCanonical_iff.mp hq).imp fun _ _ hc => hc.isWritable
  have hread : readDisjunction (operand maxNesting) (q.write []) = .ok (q, []) :=
    readDisjunction_write hwritable (fun n hn => (Nat.zero_add 64).symm ▸ hlevels n hn) (.inl rfl)
  have hquery : readQuery maxNesting (q.write []) = .ok q := by
    unfold readQuery
    rw [hread]
    rfl
  have hlong : ¬ maxInputLength < (q.write []).length := by
    rw [← htext]
    exact Nat.not_lt_of_le hlength
  have hempty : (skipBlanks (q.write [])).isEmpty = false := by
    obtain ⟨c, s, hwrite, hblank⟩ := exists_head_write hwritable []
    rw [hwrite, Text.skipBlanks_cons, hblank, if_neg Bool.false_ne_true]
    rfl
  unfold parse
  dsimp only
  rw [htext, if_neg hlong, hempty, if_neg Bool.false_ne_true, hquery]
  rfl

/-- A negated word that would be the null scalar if it were not escaped, a range that is open above,
and a group of a text that holds a sign, the null scalar and a double. -/
theorem parse_render_escapes :
    let q : Query :=
      .and (.not (.comparison ⟨⟨"users.name", by decide⟩, .ne, .text "null", true⟩))
        (.or
          (.comparison ⟨⟨"age", by decide⟩, .between,
            .range (some (.int (-5))) none false true, false⟩)
          (.comparison ⟨⟨"note", by decide⟩, .oneOf,
            .list [.text "\\\" OR (", .null, .float (Float.ofBits 0x3FF8000000000000)], false⟩))
    q.render = "(NOT (users.name:!=\\null)) AND ((age:\x7b-5 TO *]) OR " ++
        "(note:(\"\\\\\\\" OR (\" OR null OR 1.5)))" ∧
      parse q.render = .ok q := by
  intro q
  have hname : FieldPath.IsBare ⟨"users.name", by decide⟩ := by decide
  have hage : FieldPath.IsBare ⟨"age", by decide⟩ := by decide
  have hnote : FieldPath.IsBare ⟨"note", by decide⟩ := by decide
  have hitems : ∀ v ∈ [Value.text "\\\" OR (", .null, .float (Float.ofBits 0x3FF8000000000000)],
      v.IsFiniteScalar := by
    intro v hv
    simp only [List.mem_cons, List.not_mem_nil, or_false] at hv
    rcases hv with rfl | rfl | rfl
    · trivial
    · trivial
    · change Number.isFinite (Float.ofBits 0x3FF8000000000000)
      rfl
  have hbound : IsFiniteBound (some (.int (-5))) := by
    rintro v ⟨⟩
    exact ⟨trivial, nofun⟩
  have hcanonical : q.IsCanonical :=
    ⟨nofun, ⟨rfl, hname, .word (by decide) (by decide)⟩, nofun,
      ⟨hage, .range hbound nofun⟩, ⟨hnote, .membership (by decide) (List.cons_ne_nil _ _) hitems⟩⟩
  have hrender : q.render = "(NOT (users.name:!=\\null)) AND ((age:\x7b-5 TO *]) OR " ++
      "(note:(\"\\\\\\\" OR (\" OR null OR 1.5)))" := by
    decide +kernel
  have hlength : q.render.length ≤ 16384 :=
    Nat.le_trans (Nat.le_of_eq (congrArg String.length hrender)) (by decide)
  exact ⟨hrender, parse_render hcanonical hlength (by decide)⟩

end Query

end QueryFilter
