import QueryFilter.Proofs.Sql.Alphabet

/-!
# Leaves and their parentheses

The text of a leaf opens with a name and a blank, and what comes behind the blank is no parenthesis.
So it is not taken for the text of a negation, even if the field of the leaf is called `NOT`
(`operandCount_of_opensLeaf`).  And its parentheses match, those of a list and of `lower` included.
Both are properties of the outline of a leaf (`Translator.leafOutline_of_comparison`), since
placeholders have no parentheses.

The end of a text whose parentheses match can be found: the parenthesis that closes behind it is the
first that is not matched inside it (`Balanced.eq_of_append_close`).
-/

namespace QueryFilter

namespace Sql

/-! ## Balanced texts -/

/-- The number of open parentheses behind a character with `depth` of them open in front of it, if
it closes none that is not open. -/
def depthBehind? (depth : Nat) (c : Char) : Option Nat :=
  if c = '(' then some (depth + 1)
  else if c = ')' then if depth = 0 then none else some (depth - 1)
  else some depth

/-- The number of open parentheses behind a text. -/
def depthAfter? (depth : Nat) (s : List Char) : Option Nat := s.foldlM depthBehind? depth

theorem depthAfter?_cons (depth : Nat) (c : Char) (s : List Char) :
    depthAfter? depth (c :: s) = (depthBehind? depth c).bind (depthAfter? · s) := rfl

theorem depthAfter?_append (depth : Nat) (s u : List Char) :
    depthAfter? depth (s ++ u) = (depthAfter? depth s).bind (depthAfter? · u) :=
  List.foldlM_append

/-- Whether a text has no parentheses. -/
def isParenthesisFree (s : String) : Bool := s.toList.all fun c => c != '(' && c != ')'

theorem depthAfter?_of_isParenthesisFree {s : String} (h : isParenthesisFree s) (depth : Nat) :
    depthAfter? depth s.toList = some depth := by
  rw [isParenthesisFree] at h
  generalize s.toList = s at h
  induction s with
  | nil => rfl
  | cons c s ih =>
      rw [List.all_cons, Bool.and_eq_true, Bool.and_eq_true, bne_iff_ne, bne_iff_ne] at h
      rw [depthAfter?_cons, depthBehind?, if_neg h.1.1, if_neg h.1.2]
      exact ih h.2

/-- A text whose parentheses match. -/
def Balanced (s : List Char) : Prop := ∀ depth, depthAfter? depth s = some depth

theorem Balanced.append {s u : List Char} (hs : Balanced s) (hu : Balanced u) :
    Balanced (s ++ u) := by
  intro depth
  rw [depthAfter?_append, hs depth]
  exact hu depth

theorem Balanced.parenthesized {s : List Char} (h : Balanced s) : Balanced ('(' :: s ++ [')']) := by
  intro depth
  rw [List.cons_append, depthAfter?_cons, depthBehind?, if_pos rfl, Option.bind_some,
    depthAfter?_append, h (depth + 1)]
  rfl

/-- A text that goes on with a closing parenthesis is not balanced if it is up to there. -/
theorem Balanced.not_append_close {s : List Char} (h : Balanced s) (u : List Char) :
    ¬ Balanced (s ++ ')' :: u) := by
  intro hlonger
  have hzero := hlonger 0
  rw [depthAfter?_append, h 0] at hzero
  exact nomatch hzero

/-- The parenthesis that closes behind a balanced text can be found in one way. -/
theorem Balanced.eq_of_append_close {s s' u u' : List Char} (h : Balanced s) (h' : Balanced s')
    (htext : s ++ ')' :: u = s' ++ ')' :: u') : s = s' ∧ u = u' := by
  rcases List.append_eq_append_iff.mp htext with ⟨more, rfl, hrest⟩ | ⟨more, rfl, hrest⟩
  · cases more with
    | nil =>
        rw [List.nil_append] at hrest
        exact ⟨(List.append_nil s).symm, (List.cons.inj hrest).2⟩
    | cons c more =>
        obtain ⟨rfl, -⟩ := List.cons.inj hrest
        exact absurd h' (h.not_append_close more)
  · cases more with
    | nil =>
        rw [List.nil_append] at hrest
        exact ⟨List.append_nil s', (List.cons.inj hrest).2.symm⟩
    | cons c more =>
        obtain ⟨rfl, -⟩ := List.cons.inj hrest
        exact absurd h (h'.not_append_close more)

/-! ## How a node opens -/

/-- The number of operands of the node for which a text is written, as its first characters tell. -/
def operandCount (s : List Char) : Nat :=
  if s.head? = some '(' then 2 else if "NOT (".toList.isPrefixOf s then 1 else 0

/-- A text that opens with a name, a blank and something that is no parenthesis. -/
def OpensLeaf (s : List Char) : Prop :=
  ∃ name c rest, s = name ++ ' ' :: c :: rest ∧ ' ' ∉ name ∧ name.head? ≠ some '(' ∧ c ≠ '('

theorem OpensLeaf.append {s : List Char} (h : OpensLeaf s) (u : List Char) :
    OpensLeaf (s ++ u) := by
  obtain ⟨name, c, rest, rfl, hname, hhead, hc⟩ := h
  exact ⟨name, c, rest ++ u, by simp, hname, hhead, hc⟩

/-- Even a leaf whose field is called `NOT` does not open like a negation. -/
theorem operandCount_of_opensLeaf {s : List Char} (h : OpensLeaf s) : operandCount s = 0 := by
  obtain ⟨name, c, rest, rfl, hname, hhead, hc⟩ := h
  have hopen : (name ++ ' ' :: c :: rest).head? ≠ some '(' := by
    cases name with
    | nil => simp
    | cons d name => exact hhead
  have hnot : ¬ "NOT (".toList.isPrefixOf (name ++ ' ' :: c :: rest) := by
    rw [List.isPrefixOf_iff_prefix]
    rintro ⟨follow, hfollow⟩
    -- both texts have their first blank behind the name
    rcases List.append_eq_append_iff.mp
      (show ['N', 'O', 'T'] ++ ' ' :: '(' :: follow = name ++ ' ' :: c :: rest from hfollow)
      with ⟨more, rfl, hrest⟩ | ⟨more, hmore, hrest⟩
    · cases more with
      | nil => exact hc (List.cons.inj (List.cons.inj hrest).2).1.symm
      | cons d more =>
          obtain ⟨rfl, -⟩ := List.cons.inj hrest
          exact hname (List.mem_append_right _ List.mem_cons_self)
    · cases more with
      | nil => exact hc (List.cons.inj (List.cons.inj hrest).2).1
      | cons d more =>
          obtain ⟨rfl, -⟩ := List.cons.inj hrest
          have hblank : ' ' ∈ ['N', 'O', 'T'] :=
            hmore ▸ List.mem_append_right _ List.mem_cons_self
          exact absurd hblank (by decide)
  rw [operandCount, if_neg hopen, if_neg hnot]

/-! ## Outlines of leaves -/

/-- The number of open parentheses behind an outline, a value having none. -/
def outlineDepth? (depth : Nat) (outline : List (Option String)) : Option Nat :=
  outline.foldlM (fun depth text? => text?.elim (some depth) (depthAfter? depth ·.toList)) depth

theorem outlineDepth?_append (depth : Nat) (first second : List (Option String)) :
    outlineDepth? depth (first ++ second) =
      (outlineDepth? depth first).bind (outlineDepth? · second) :=
  List.foldlM_append

theorem outlineDepth?_text (depth : Nat) (s : String) (outline : List (Option String)) :
    outlineDepth? depth (some s :: outline) =
      (depthAfter? depth s.toList).bind (outlineDepth? · outline) := rfl

theorem outlineDepth?_value (depth : Nat) (outline : List (Option String)) :
    outlineDepth? depth (none :: outline) = outlineDepth? depth outline := rfl

theorem outlineDepth?_commas (depth n : Nat) : outlineDepth? depth (commas n) = some depth := by
  fun_induction commas n with
  | case1 => rfl
  | case2 => rfl
  | case3 n ih => exact ih

/-- The parentheses of a numbered text are those of its outline. -/
theorem depthAfter?_numbered (d : Dialect) (n depth : Nat) (pieces : List Piece) :
    depthAfter? depth (String.join (Piece.numbered d n pieces)).toList =
      outlineDepth? depth (outlines pieces) := by
  induction pieces generalizing n depth with
  | nil => rfl
  | cons piece pieces ih =>
      cases piece with
      | text s =>
          rw [Piece.numbered, String.join_cons, String.toList_append, depthAfter?_append,
            outlines_text, outlineDepth?_text]
          exact congrArg _ (funext fun depth => ih n depth)
      | value v =>
          have hfree : isParenthesisFree (d.placeholder n) := by
            rw [isParenthesisFree, List.all_eq_true]
            intro c hc
            rcases of_mem_placeholder hc with rfl | rfl | hdigit
            · decide
            · decide
            · have hopen : c ≠ '(' := by rintro rfl; exact absurd hdigit (by decide)
              have hclose : c ≠ ')' := by rintro rfl; exact absurd hdigit (by decide)
              simp [hopen, hclose]
          rw [Piece.numbered, String.join_cons, String.toList_append, depthAfter?_append,
            depthAfter?_of_isParenthesisFree hfree]
          exact ih (n + 1) depth

/-- The outline of a leaf: it opens like one, and its parentheses match. -/
structure LeafOutline (outline : List (Option String)) : Prop where
  opens : ∃ s rest, outline = some s :: rest ∧ OpensLeaf s.toList
  balanced : ∀ depth, outlineDepth? depth outline = some depth

/-- A name, a blank and a word open a leaf.  The word may be empty, what stands behind it is not. -/
theorem opensLeaf_word {name word ending : String} (hblank : ' ' ∉ name.toList)
    (hhead : name.toList.head? ≠ some '(') (hword : isParenthesisFree word) {rest : List Char}
    (hending : ending.toList = ' ' :: rest) : OpensLeaf (name ++ " " ++ word ++ ending).toList := by
  have htext : (name ++ " " ++ word ++ ending).toList =
      name.toList ++ ' ' :: (word.toList ++ ' ' :: rest) := by
    simp only [String.toList_append, hending, List.append_assoc]
    rfl
  cases hchars : word.toList with
  | nil =>
      rw [hchars] at htext
      exact ⟨name.toList, ' ', rest, htext, hblank, hhead, by decide⟩
  | cons c chars =>
      have hfirst := List.all_eq_true.mp hword c (hchars ▸ List.mem_cons_self)
      rw [hchars] at htext
      exact ⟨name.toList, c, chars ++ ' ' :: rest, htext, hblank, hhead, by simp_all⟩

section
variable {field : String} (hfield : ∀ c ∈ field.toList, isNameChar c)
include hfield

theorem isParenthesisFree_field : isParenthesisFree field := by
  rw [isParenthesisFree, List.all_eq_true]
  intro c hc
  have hname := hfield c hc
  have hopen : c ≠ '(' := by rintro rfl; exact absurd hname (by decide)
  have hclose : c ≠ ')' := by rintro rfl; exact absurd hname (by decide)
  simp [hopen, hclose]

theorem blank_not_mem_field : ' ' ∉ field.toList := fun hblank =>
  absurd (hfield _ hblank) (by decide)

theorem opensLeaf_field {word ending : String} (hword : isParenthesisFree word)
    {rest : List Char} (hending : ending.toList = ' ' :: rest) :
    OpensLeaf (field ++ " " ++ word ++ ending).toList := by
  refine opensLeaf_word (blank_not_mem_field hfield) (fun hhead => ?_) hword hending
  exact absurd (hfield _ (List.mem_of_mem_head? hhead)) (by decide)

theorem depthAfter?_field {word ending : String} (hword : isParenthesisFree word) (depth : Nat) :
    depthAfter? depth (field ++ " " ++ word ++ ending).toList = depthAfter? depth ending.toList := by
  simp only [String.toList_append, depthAfter?_append,
    depthAfter?_of_isParenthesisFree (isParenthesisFree_field hfield),
    depthAfter?_of_isParenthesisFree hword, Option.bind_some,
    show ∀ depth, depthAfter? depth " ".toList = some depth from fun _ => rfl]

theorem leafOutline_test {word ending : String} (hword : isParenthesisFree word)
    {rest : List Char} (hending : ending.toList = ' ' :: rest) (hfree : isParenthesisFree ending) :
    LeafOutline [some (field ++ " " ++ word ++ ending)] where
  opens := ⟨_, _, rfl, opensLeaf_field hfield hword hending⟩
  balanced depth := by
    rw [outlineDepth?_text, depthAfter?_field hfield hword, depthAfter?_of_isParenthesisFree hfree]
    rfl

theorem leafOutline_isNull : LeafOutline [some (field ++ " IS NULL")] := by
  have htest := leafOutline_test hfield (show isParenthesisFree "IS" from rfl)
    (show " NULL".toList = _ from rfl) rfl
  rwa [String.append_assoc, String.append_assoc] at htest

theorem leafOutline_isNotNull : LeafOutline [some (field ++ " IS NOT NULL")] := by
  have htest := leafOutline_test hfield (show isParenthesisFree "IS" from rfl)
    (show " NOT NULL".toList = _ from rfl) rfl
  rwa [String.append_assoc, String.append_assoc] at htest

theorem leafOutline_sign {sign : String} (hsign : isParenthesisFree sign)
    {outline : List (Option String)}
    (rest : ∀ depth, outlineDepth? depth outline = some depth) :
    LeafOutline (some (field ++ " " ++ sign ++ " ") :: none :: outline) where
  opens := ⟨_, _, rfl, opensLeaf_field hfield hsign rfl⟩
  balanced depth := by
    rw [outlineDepth?_text, depthAfter?_field hfield hsign]
    exact rest depth

theorem leafOutline_membership {keyword : String} (hkeyword : isParenthesisFree keyword)
    {whenEmpty : String} (hempty : LeafOutline [some whenEmpty]) (size : Nat) :
    LeafOutline (membershipOutline field keyword whenEmpty size) := by
  unfold membershipOutline
  split
  · exact hempty
  · refine ⟨⟨_, _, rfl, opensLeaf_field hfield hkeyword rfl⟩, fun depth => ?_⟩
    rw [List.cons_append, outlineDepth?_text, depthAfter?_field hfield hkeyword]
    -- the parenthesis of the list is closed behind its values
    calc (depthAfter? depth " (".toList).bind
          (outlineDepth? · (commas size ++ [some ")"]))
        = outlineDepth? (depth + 1) (commas size ++ [some ")"]) := rfl
      _ = outlineDepth? (depth + 1) [some ")"] := by
          rw [outlineDepth?_append, outlineDepth?_commas, Option.bind_some]
      _ = some depth := rfl

theorem leafOutline_range (openLow openHigh closedLow closedHigh : Bool) :
    LeafOutline (rangeOutline field openLow openHigh closedLow closedHigh) := by
  have habove : isParenthesisFree (if closedLow then ">=" else ">") := by
    cases closedLow <;> decide
  have hbelow : isParenthesisFree (if closedHigh then "<=" else "<") := by
    cases closedHigh <;> decide
  have hnil : ∀ depth, outlineDepth? depth [] = some depth := fun _ => rfl
  have hupper := leafOutline_sign hfield hbelow hnil
  cases openLow with
  | true =>
      cases openHigh with
      | true => exact leafOutline_isNotNull hfield
      | false => exact hupper
  | false =>
      cases openHigh with
      | true => exact leafOutline_sign hfield habove hnil
      | false => exact leafOutline_sign hfield habove hupper.balanced

end

/-- Membership in an empty list is written as a comparison of two numbers. -/
theorem leafOutline_constant {s : String} (hs : s = "1 = 0" ∨ s = "1 = 1") :
    LeafOutline [some s] := by
  have hopens : OpensLeaf s.toList := by
    rcases hs with rfl | rfl
    · exact ⟨['1'], '=', [' ', '0'], rfl, by decide, by decide, by decide⟩
    · exact ⟨['1'], '=', [' ', '1'], rfl, by decide, by decide, by decide⟩
  have hfree : isParenthesisFree s := by rcases hs with rfl | rfl <;> rfl
  refine ⟨⟨s, [], rfl, hopens⟩, fun depth => ?_⟩
  rw [outlineDepth?_text, depthAfter?_of_isParenthesisFree hfree]
  rfl

namespace Translator

variable (t : Translator)

section
variable {field : String} (hfield : ∀ c ∈ field.toList, isNameChar c)
include hfield

theorem leafOutline_pattern (operator : Operator) :
    LeafOutline (t.patternOutline field operator) := by
  have hnil : ∀ depth, outlineDepth? depth [] = some depth := fun _ => rfl
  have hescape : isParenthesisFree t.dialect.likeEscape := by cases t.dialect <;> rfl
  have hkeyword : isParenthesisFree
      (if operator = .ilike ∧ t.dialect.hasIlike then "ILIKE" else "LIKE") := by
    split <;> decide
  unfold patternOutline
  split
  next glob hglob =>
    have hfree : isParenthesisFree glob := by
      cases hdialect : t.dialect with
      | postgres =>
          rw [hdialect] at hglob
          cases hglob
      | sqlite =>
          rw [hdialect] at hglob
          cases hglob
          rfl
    exact leafOutline_sign hfield hfree hnil
  next =>
    refine leafOutline_sign hfield hkeyword fun depth => ?_
    rw [outlineDepth?_text, depthAfter?_of_isParenthesisFree hescape]
    rfl

theorem leafOutline_condition (operator : Operator) (value : Value) :
    LeafOutline (t.conditionOutline field operator value) := by
  have hnil : ∀ depth, outlineDepth? depth [] = some depth := fun _ => rfl
  have hsign : isParenthesisFree ((comparisonSign? operator).getD "") := by
    cases operator <;> decide
  have hregex : isParenthesisFree (t.dialect.regexOperator?.getD "") := by
    cases t.dialect <;> decide
  have hin : ∀ size, LeafOutline (membershipOutline field "IN" "1 = 0" size) :=
    leafOutline_membership hfield rfl (leafOutline_constant (.inl rfl))
  have hnotIn : ∀ size, LeafOutline (membershipOutline field "NOT IN" "1 = 1" size) :=
    leafOutline_membership hfield rfl (leafOutline_constant (.inr rfl))
  unfold conditionOutline
  split
  case h_1 => exact leafOutline_isNull hfield
  case h_2 => exact leafOutline_isNotNull hfield
  case h_3 => exact hin _
  case h_4 => exact hin _
  case h_5 => exact hnotIn _
  case h_6 => exact hnotIn _
  case h_7 => exact leafOutline_range hfield _ _ _ _
  case h_8 => exact leafOutline_range hfield _ _ _ _
  case h_9 => exact t.leafOutline_pattern hfield _
  case h_10 => exact t.leafOutline_pattern hfield _
  case h_11 => exact leafOutline_sign hfield hregex hnil
  case h_12 => exact leafOutline_sign hfield hsign hnil

/-- The two calls of `lower` open and close a parenthesis each, even around a field called
`lower`. -/
theorem leafOutline_comparison (c : Comparison) : LeafOutline (t.comparisonOutline field c) := by
  unfold comparisonOutline
  split
  · have hsign : isParenthesisFree ((comparisonSign? c.operator).getD "") := by
      cases c.operator <;> decide
    have hfree := isParenthesisFree_field hfield
    have hblank : ' ' ∉ ("lower(" ++ field ++ ")").toList := by
      simpa using blank_not_mem_field hfield
    have hclause : ∀ s, "lower(" ++ field ++ ") " ++ s = "lower(" ++ field ++ ")" ++ " " ++ s := by
      intro s
      simp only [String.append_assoc]
      rfl
    constructor
    · refine ⟨_, _, rfl, ?_⟩
      rw [hclause]
      exact opensLeaf_word hblank (by simp) hsign rfl
    · intro depth
      simp only [outlineDepth?_text, outlineDepth?_value, String.toList_append,
        depthAfter?_append, depthAfter?_of_isParenthesisFree hfree,
        depthAfter?_of_isParenthesisFree hsign]
      rfl
  · exact t.leafOutline_condition hfield _ _

end

/-- The text of a comparison opens like a leaf, and its parentheses match. -/
theorem leafOutline_of_comparison {c : Comparison} {pieces : List Piece}
    (h : t.comparison c = .ok pieces) : LeafOutline (outlines pieces) := by
  obtain ⟨name, hname, houtlines⟩ := t.outlines_of_comparison h
  rw [houtlines]
  exact t.leafOutline_comparison (t.isNameChar_of_mem_fieldText hname) c

end Translator

end Sql
end QueryFilter
