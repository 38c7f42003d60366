import QueryFilter.Proofs.Sql.Identifiers

/-!
# The alphabet of a condition

The text of a tree without raw conditions is made of letters, digits and a few signs, and of the
fixed clause that makes the backslash an escape: `written_sql`.  Nothing that an attacker may choose
gets into it: values are outside of the text, and the characters of a field name are checked.

## Strategy

`Written` describes the texts that are made of statement characters and escape clauses.  It is
closed under concatenation, so it is enough to look at the texts of an outline one by one, and at
placeholders.  Taking the escape clauses out of a written text leaves statement characters only
(`forall_isStatementChar_removeAll`): a written text that starts with an escape clause cannot be
read in another way, because the clause has an apostrophe in it.
-/

namespace QueryFilter

/-- Whether a tree has no raw condition. -/
def Query.isRawFree : Query → Bool
  | comparison _ => true
  | raw _ => false
  | unary _ q => q.isRawFree
  | binary _ l r => l.isRawFree && r.isRawFree

namespace Sql

/-! ## Written texts -/

/-- Whether a character may stand in a statement outside of the escape clause. -/
def isStatementChar (c : Char) : Bool :=
  c.isAlphanum || ['_', '.', ' ', '(', ')', ',', '=', '<', '>', '~', '"', '$', '?'].contains c

/-- The clause that makes the backslash an escape. -/
def escapeClause : List Char :=
  [' ', 'E', 'S', 'C', 'A', 'P', 'E', ' ', '\x27', '\\', '\x27']

/-- Texts of statement characters and escape clauses. -/
inductive Written : List Char → Prop
  | nil : Written []
  | char {c : Char} {s : List Char} (hc : isStatementChar c) (rest : Written s) : Written (c :: s)
  | escape {s : List Char} (rest : Written s) : Written (escapeClause ++ s)

theorem Written.append {first second : List Char} (h : Written first) (h' : Written second) :
    Written (first ++ second) := by
  induction h with
  | nil => exact h'
  | char hc _ ih => exact .char hc ih
  | escape _ ih =>
      rw [List.append_assoc]
      exact .escape ih

theorem written_of_all {s : List Char} (h : s.all isStatementChar) : Written s := by
  induction s with
  | nil => exact .nil
  | cons c s ih =>
      rw [List.all_cons, Bool.and_eq_true] at h
      exact .char h.1 (ih h.2)

/-! ## Taking out the escape clauses -/

/-- Takes a pattern out of a text at every place where it occurs, from left to right; the first
`skip` characters are the rest of an occurrence. -/
def removeAll (pattern : List Char) : (skip : Nat) → List Char → List Char
  | _, [] => []
  | skip + 1, _ :: s => removeAll pattern skip s
  | 0, c :: s =>
    if pattern.isPrefixOf (c :: s) then removeAll pattern (pattern.length - 1) s
    else c :: removeAll pattern 0 s

theorem removeAll_skip (pattern : List Char) (skip : Nat) (s : List Char) :
    removeAll pattern skip s = removeAll pattern 0 (s.drop skip) := by
  induction skip generalizing s with
  | zero => rfl
  | succ skip ih =>
      cases s with
      | nil => rfl
      | cons c s => exact ih s

/-- A character that does not start an escape clause stands for itself. -/
theorem Written.tail {c : Char} {s : List Char} (h : Written (c :: s))
    (hc : c ≠ ' ' ∨ s.head? ≠ some 'E') : isStatementChar c ∧ Written s := by
  generalize htext : c :: s = text at h
  cases h with
  | nil => exact nomatch htext
  | char hstatement rest =>
      obtain ⟨rfl, rfl⟩ := List.cons.inj htext
      exact ⟨hstatement, rest⟩
  | escape rest =>
      obtain ⟨rfl, rfl⟩ := List.cons.inj htext
      rcases hc with hc | hc
      · exact absurd rfl hc
      · exact absurd rfl hc

/-- Behind characters that do not start an escape clause a written text is written. -/
theorem Written.of_append {first s : List Char} (h : Written (first ++ s)) (hfirst : ' ' ∉ first) :
    Written s := by
  induction first with
  | nil => exact h
  | cons c first ih =>
      rw [List.mem_cons, not_or] at hfirst
      exact ih (h.tail (.inl (Ne.symm hfirst.1))).2 hfirst.2

/-- What stands behind an escape clause in a written text is written. -/
theorem Written.of_escapeClause_append {s : List Char} (h : Written (escapeClause ++ s)) :
    Written s := by
  generalize htext : escapeClause ++ s = text at h
  cases h with
  | nil => exact nomatch htext
  | escape rest => exact List.append_cancel_left htext ▸ rest
  | char hc rest =>
      -- the letters of the clause would stand for themselves, and then its apostrophe would too
      obtain ⟨-, rfl⟩ := List.cons.inj htext
      have hblank : Written (' ' :: '\x27' :: '\\' :: '\x27' :: s) :=
        @Written.of_append ['E', 'S', 'C', 'A', 'P', 'E'] _ rest (by decide)
      have hquote := (hblank.tail (.inr (by simp))).2
      exact absurd (hquote.tail (.inl (by decide))).1 (by decide)

/-- A written text without its escape clauses is made of statement characters. -/
theorem forall_isStatementChar_removeAll {s : List Char} (h : Written s) :
    ∀ c ∈ removeAll escapeClause 0 s, isStatementChar c := by
  induction hlength : s.length using Nat.strongRecOn generalizing s with
  | ind n ih =>
      subst hlength
      cases s with
      | nil => exact nofun
      | cons c s =>
          rw [removeAll]
          split
          next hclause =>
            obtain ⟨rest, hrest⟩ := List.isPrefixOf_iff_prefix.mp hclause
            have hdrop : (c :: s).drop escapeClause.length = rest := by
              rw [← hrest]
              exact List.drop_left
            -- what is left behind the clause is shorter, and it is written
            rw [removeAll_skip, show s.drop (escapeClause.length - 1) = rest from hdrop]
            refine ih rest.length ?_ (hrest ▸ h).of_escapeClause_append rfl
            rw [← hrest, List.length_append]
            exact Nat.lt_add_of_pos_left (by decide)
          next hclause =>
            have htail : isStatementChar c ∧ Written s := by
              generalize htext : c :: s = text at h
              cases h with
              | nil => exact nomatch htext
              | char hc rest =>
                  obtain ⟨rfl, rfl⟩ := List.cons.inj htext
                  exact ⟨hc, rest⟩
              | escape rest =>
                  rw [htext] at hclause
                  exact absurd (List.isPrefixOf_iff_prefix.mpr (List.prefix_append ..)) hclause
            intro x hx
            rcases List.mem_cons.mp hx with rfl | hx
            · exact htail.1
            · exact ih s.length (Nat.lt_succ_self _) htail.2 rfl x hx

/-! ## Fields and placeholders -/

/-- Whether all characters of a text are statement characters. -/
def isPlain (s : String) : Bool := s.toList.all isStatementChar

theorem isPlain_append (s s' : String) : isPlain (s ++ s') = (isPlain s && isPlain s') := by
  rw [isPlain, String.toList_append, List.all_append, isPlain, isPlain]

theorem isStatementChar_of_isDigit {c : Char} (h : c.isDigit) : isStatementChar c := by
  simp [isStatementChar, Char.isAlphanum, h]

theorem isStatementChar_of_isIdentifierChar {c : Char} (h : isIdentifierChar c) :
    isStatementChar c := by
  simp only [isIdentifierChar, Bool.or_eq_true, beq_iff_eq] at h
  rcases h with (h | rfl) | rfl
  · simp [isStatementChar, h]
  · decide
  · decide

theorem of_mem_placeholder {d : Dialect} {n : Nat} {c : Char}
    (hc : c ∈ (d.placeholder n).toList) : c = '$' ∨ c = '?' ∨ c.isDigit := by
  have hdigits : ∀ c ∈ (toString n).toList, c.isDigit := by
    rw [Nat.toString_eq_repr, Nat.toList_repr]
    exact fun c hc => Nat.isDigit_of_mem_toDigits (by decide) (by decide) hc
  cases d with
  | postgres =>
      rw [Dialect.placeholder, String.toList_append] at hc
      exact (List.mem_append.mp hc).elim (fun h => .inl (List.mem_singleton.mp h))
        fun h => .inr (.inr (hdigits c h))
  | sqlite =>
      rw [Dialect.placeholder, String.toList_append] at hc
      exact (List.mem_append.mp hc).elim (fun h => .inr (.inl (List.mem_singleton.mp h)))
        fun h => .inr (.inr (hdigits c h))

theorem isPlain_placeholder (d : Dialect) (n : Nat) : isPlain (d.placeholder n) := by
  rw [isPlain, List.all_eq_true]
  intro c hc
  rcases of_mem_placeholder hc with rfl | rfl | hdigit
  · decide
  · decide
  · exact isStatementChar_of_isDigit hdigit

/-- Whether a character may occur in a field name as it is written. -/
def isNameChar (c : Char) : Bool := isIdentifierChar c || c == '"'

theorem isStatementChar_of_isNameChar {c : Char} (h : isNameChar c) : isStatementChar c := by
  simp only [isNameChar, Bool.or_eq_true, beq_iff_eq] at h
  rcases h with h | rfl
  · exact isStatementChar_of_isIdentifierChar h
  · decide

/-! ## Harmless outlines -/

/-- Whether all texts of an outline are written. -/
def Harmless (outline : List (Option String)) : Prop := ∀ s, some s ∈ outline → Written s.toList

@[simp] theorem harmless_nil : Harmless [] := fun _ h => nomatch h

@[simp] theorem harmless_none_cons {outline : List (Option String)} :
    Harmless (none :: outline) ↔ Harmless outline := by
  simp [Harmless]

@[simp] theorem harmless_some_cons {s : String} {outline : List (Option String)} :
    Harmless (some s :: outline) ↔ Written s.toList ∧ Harmless outline := by
  simp [Harmless]

@[simp] theorem harmless_append {first second : List (Option String)} :
    Harmless (first ++ second) ↔ Harmless first ∧ Harmless second := by
  simp only [Harmless, List.mem_append]
  exact ⟨fun h => ⟨fun s hs => h s (.inl hs), fun s hs => h s (.inr hs)⟩,
    fun h s hs => hs.elim (h.1 s) (h.2 s)⟩

theorem written_of_isPlain {s : String} (h : isPlain s) : Written s.toList := written_of_all h

/-- The numbered text of pieces with a harmless outline is written. -/
theorem written_numbered (d : Dialect) (n : Nat) {pieces : List Piece}
    (h : Harmless (outlines pieces)) :
    Written (String.join (Piece.numbered d n pieces)).toList := by
  induction pieces generalizing n with
  | nil => exact .nil
  | cons piece pieces ih =>
      cases piece with
      | text s =>
          rw [outlines_text, harmless_some_cons] at h
          rw [Piece.numbered, String.join_cons, String.toList_append]
          exact h.1.append (ih n h.2)
      | value v =>
          rw [outlines_value, harmless_none_cons] at h
          rw [Piece.numbered, String.join_cons, String.toList_append]
          exact (written_of_isPlain (isPlain_placeholder d n)).append (ih (n + 1) h)

theorem harmless_commas (n : Nat) : Harmless (commas n) := by
  fun_induction commas n with
  | case1 => exact harmless_nil
  | case2 => simp
  | case3 n ih =>
      rw [harmless_none_cons, harmless_some_cons]
      exact ⟨written_of_isPlain rfl, ih⟩

section
variable {field : String} (hfield : isPlain field)
include hfield

theorem harmless_sign {sign : String} (hsign : isPlain sign) {outline : List (Option String)}
    (rest : Harmless outline) :
    Harmless (some (field ++ " " ++ sign ++ " ") :: none :: outline) := by
  rw [harmless_some_cons, harmless_none_cons]
  refine ⟨written_of_isPlain ?_, rest⟩
  rw [isPlain_append, isPlain_append, isPlain_append, hfield, hsign]
  decide

theorem harmless_test {s : String} (hs : isPlain s) : Harmless [some (field ++ s)] := by
  rw [harmless_some_cons]
  refine ⟨written_of_isPlain ?_, harmless_nil⟩
  rw [isPlain_append, hfield, hs]
  rfl

theorem harmless_membershipOutline {keyword whenEmpty : String} (hkeyword : isPlain keyword)
    (hempty : isPlain whenEmpty) (size : Nat) :
    Harmless (membershipOutline field keyword whenEmpty size) := by
  unfold membershipOutline
  split
  · simpa using written_of_isPlain hempty
  · rw [List.cons_append, harmless_some_cons, harmless_append, harmless_some_cons]
    refine ⟨written_of_isPlain ?_, harmless_commas size, written_of_isPlain rfl, harmless_nil⟩
    rw [isPlain_append, isPlain_append, isPlain_append, hfield, hkeyword]
    decide

theorem harmless_rangeOutline (openLow openHigh closedLow closedHigh : Bool) :
    Harmless (rangeOutline field openLow openHigh closedLow closedHigh) := by
  have habove : isPlain (if closedLow then ">=" else ">") := by cases closedLow <;> decide
  have hbelow : isPlain (if closedHigh then "<=" else "<") := by cases closedHigh <;> decide
  have hlower := harmless_sign hfield habove harmless_nil
  have hupper := harmless_sign hfield hbelow harmless_nil
  cases openLow with
  | true =>
      cases openHigh with
      | true => exact harmless_test hfield rfl
      | false => exact hupper
  | false =>
      cases openHigh with
      | true => exact hlower
      | false =>
          exact harmless_append.mpr
            ⟨hlower, harmless_some_cons.mpr ⟨written_of_isPlain rfl, hupper⟩⟩

end

namespace Translator

variable (t : Translator)

section
variable {field : String} (hfield : isPlain field)
include hfield

theorem harmless_patternOutline (operator : Operator) :
    Harmless (t.patternOutline field operator) := by
  have hescape : Written t.dialect.likeEscape.toList := by
    cases t.dialect with
    | postgres => exact .nil
    | sqlite => exact .escape .nil
  have hkeyword : isPlain (if operator = .ilike ∧ t.dialect.hasIlike then "ILIKE" else "LIKE") := by
    split <;> decide
  unfold patternOutline
  split
  next glob hglob =>
    have hplain : isPlain glob := by
      cases hdialect : t.dialect with
      | postgres =>
          rw [hdialect] at hglob
          cases hglob
      | sqlite =>
          rw [hdialect] at hglob
          cases hglob
          rfl
    exact harmless_sign hfield hplain harmless_nil
  next => exact harmless_sign hfield hkeyword (harmless_some_cons.mpr ⟨hescape, harmless_nil⟩)

theorem harmless_conditionOutline (operator : Operator) (value : Value) :
    Harmless (t.conditionOutline field operator value) := by
  have hsign : isPlain ((comparisonSign? operator).getD "") := by cases operator <;> decide
  have hregex : isPlain (t.dialect.regexOperator?.getD "") := by cases t.dialect <;> decide
  unfold conditionOutline
  split
  case h_1 => exact harmless_test hfield rfl
  case h_2 => exact harmless_test hfield rfl
  case h_3 => exact harmless_membershipOutline hfield rfl rfl _
  case h_4 => exact harmless_membershipOutline hfield rfl rfl _
  case h_5 => exact harmless_membershipOutline hfield rfl rfl _
  case h_6 => exact harmless_membershipOutline hfield rfl rfl _
  case h_7 => exact harmless_rangeOutline hfield _ _ _ _
  case h_8 => exact harmless_rangeOutline hfield _ _ _ _
  case h_9 => exact t.harmless_patternOutline hfield _
  case h_10 => exact t.harmless_patternOutline hfield _
  case h_11 => exact harmless_sign hfield hregex harmless_nil
  case h_12 => exact harmless_sign hfield hsign harmless_nil

theorem harmless_comparisonOutline (c : Comparison) : Harmless (t.comparisonOutline field c) := by
  unfold comparisonOutline
  split
  · have hsign : isPlain ((comparisonSign? c.operator).getD "") := by
      cases c.operator <;> decide
    rw [harmless_some_cons, harmless_none_cons, harmless_some_cons]
    refine ⟨written_of_isPlain ?_, written_of_isPlain rfl, harmless_nil⟩
    rw [isPlain_append, isPlain_append, isPlain_append, isPlain_append, hfield, hsign]
    decide
  · exact t.harmless_conditionOutline hfield _ _

end

/-- A field name is written with the characters of an identifier, and with quotes. -/
theorem isNameChar_of_mem_fieldText {field : FieldPath} {name : String}
    (h : t.fieldText field = .ok name) : ∀ c ∈ name.toList, isNameChar c := by
  obtain ⟨hsafe, rfl⟩ := t.fieldText_eq_ok_iff.mp h
  have hall : ∀ c ∈ field.text.toList, isNameChar c := by
    intro c hc
    rw [isNameChar, hsafe.isIdentifierChar_of_mem c hc, Bool.true_or]
  unfold FieldPath.statementName
  split
  · have hpoint : ∀ c ∈ ".".toList, isNameChar c := by
      intro c hc
      rw [List.mem_singleton.mp hc]
      decide
    refine forall_mem_intercalate hpoint ?_
    intro part hpart
    simp only [FieldPath.parts, List.map_map, List.mem_map, Function.comp_apply] at hpart
    obtain ⟨segment, hsegment, rfl⟩ := hpart
    intro c hc
    simp only [String.toList_append, String.toList_ofList,
      List.mem_append] at hc
    rcases hc with (hc | hc) | hc
    · rw [List.mem_singleton.mp hc]
      decide
    · exact hall c (Text.mem_of_mem_split hsegment hc)
    · rw [List.mem_singleton.mp hc]
      decide
  · exact hall

/-- A field name is written with statement characters only. -/
theorem isPlain_fieldText {field : FieldPath} {name : String} (h : t.fieldText field = .ok name) :
    isPlain name := by
  rw [isPlain, List.all_eq_true]
  exact fun c hc => isStatementChar_of_isNameChar (t.isNameChar_of_mem_fieldText h c hc)

/-- A tree without raw conditions has a harmless outline wherever it stands. -/
theorem harmless_piecesAt {q : Query} (hraw : q.isRawFree) {ancestors : Nat} {pieces : List Piece}
    (h : t.piecesAt ancestors q = .ok pieces) : Harmless (outlines pieces) := by
  have hjunction (op : Connective) : Written (junction op).toList := by
    cases op <;> exact written_of_isPlain rfl
  induction q generalizing ancestors pieces with
  | comparison c =>
      obtain ⟨name, hname, houtlines⟩ :=
        t.outlines_of_comparison (t.piecesAt_comparison_eq_ok.mp h).2
      rw [houtlines]
      exact t.harmless_comparisonOutline (t.isPlain_fieldText hname) c
  | raw r => cases hraw
  | unary op q ih =>
      obtain ⟨-, -, inner, hinner, rfl⟩ := t.piecesAt_unary_eq_ok.mp h
      simp only [List.cons_append, outlines_text, outlines_append, outlines_nil, harmless_some_cons,
        harmless_append]
      exact ⟨written_of_isPlain rfl, ih hraw hinner, written_of_isPlain rfl,
        harmless_nil⟩
  | binary op l r ihl ihr =>
      obtain ⟨-, -, left, right, hleft, hright, rfl⟩ := t.piecesAt_binary_eq_ok.mp h
      rw [Query.isRawFree, Bool.and_eq_true] at hraw
      simp only [List.cons_append, List.append_assoc, outlines_text, outlines_append, outlines_nil,
        harmless_some_cons, harmless_append]
      exact ⟨written_of_isPlain rfl, ihl hraw.1 hleft, hjunction op, ihr hraw.2 hright,
        written_of_isPlain rfl, harmless_nil⟩

theorem written_sql {q : Query} (hraw : q.isRawFree) {x : Fragment} (h : t.translate q = .ok x) :
    Written x.sql.toList := by
  obtain ⟨pieces, hpieces, rfl⟩ := map_eq_ok.mp h
  rw [pieces_eq] at hpieces
  exact written_numbered t.dialect 1 (t.harmless_piecesAt hraw hpieces)

end Translator

end Sql

end QueryFilter
