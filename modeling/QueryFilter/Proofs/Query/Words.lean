import QueryFilter.Query.Term
import QueryFilter.Proofs.Number.Decimal

/-!
# Words read back

What the writer makes of a text reads as that text again, whatever stands behind it: a quoted text
(`readQuoted_quoted`), a regular expression (`readRegex_delimitedRegex`), and a bare term
(`Term.read_spell`), behind which the term has to end.

A bare term is its characters with a backslash in front of some of them (`Term.spell`).  The bare
words, bare patterns and numbers of the writer are all of this form, and are told apart by which of
their characters are escaped.
-/

namespace QueryFilter

open Text (isBlank skipBlanks)

theorem escapeWhere_cons (escaped : Char → Bool) (c : Char) (s : List Char) :
    escapeWhere escaped (c :: s) =
      (if escaped c then ['\\', c] else [c]) ++ escapeWhere escaped s := rfl

/-! ## Delimited texts -/

theorem readQuoted?_escape (s rest : List Char) :
    readQuoted? (escapeWhere (fun c => c == '"' || c == '\\') s ++ '"' :: rest) =
      some (s, rest) := by
  induction s with
  | nil => rfl
  | cons c s ih =>
      rw [escapeWhere_cons, List.append_assoc]
      split
      next hescaped =>
        simp [readQuoted?, ih]
      next hplain =>
        simp only [Bool.or_eq_true, beq_iff_eq, not_or] at hplain
        simp [readQuoted?, ih, hplain]

theorem readQuoted_quoted (s : String) (rest : List Char) :
    readQuoted (escapeWhere (fun c => c == '"' || c == '\\') s.toList ++ '"' :: rest) =
      .ok (.text s, rest) := by
  rw [readQuoted, readQuoted?_escape]
  exact congrArg (fun t => Except.ok (Value.text t, rest)) String.ofList_toList

/-- Every backslash stands in front of a character other than a slash, which it takes with it. -/
def BackslashesPair : List Char → Prop
  | [] => True
  | ['\\'] => False
  | '\\' :: c :: s => c ≠ '/' ∧ BackslashesPair s
  | _ :: s => BackslashesPair s

theorem readRegex?_escape {s : List Char} (hpair : BackslashesPair s) (rest : List Char) :
    readRegex? (escapeWhere (· == '/') s ++ '/' :: rest) = some (s, rest) := by
  fun_induction BackslashesPair s with
  | case1 => rfl
  | case2 => exact hpair.elim
  | case3 c s ih =>
      simp [escapeWhere_cons, readRegex?, ih hpair.2, hpair.1]
  | case4 c s hlast hescape ih =>
      have hc : c ≠ '\\' := by
        intro heq
        cases s with
        | nil => exact hlast heq rfl
        | cons d s => exact hescape d s heq rfl
      by_cases hslash : c = '/'
      · simp [escapeWhere_cons, readRegex?, ih hpair, hslash]
      · simp [escapeWhere_cons, readRegex?, ih hpair, hslash, hc]

theorem readRegex_delimited {s : String} (hne : s ≠ "") (hpair : BackslashesPair s.toList)
    (rest : List Char) :
    readRegex (escapeWhere (· == '/') s.toList ++ '/' :: rest) = .ok (.text s, rest) := by
  have hlist : s.toList ≠ [] := fun hnil => hne (String.toList_eq_nil_iff.mp hnil)
  rw [readRegex, readRegex?_escape hpair]
  split
  next heq => exact absurd (congrArg Prod.fst (Option.some.inj heq)) hlist
  next heq =>
    cases heq
    rw [String.ofList_toList]
  next heq => cases heq

/-! ## Bare terms -/

/-- A text behind which a bare term ends. -/
def EndsTerm (rest : List Char) : Prop :=
  ∀ c, rest.head? = some c → Term.endsAt c

namespace Term

/-- The text of a term, a backslash in front of its escaped characters. -/
def spell (t : Term) : List Char :=
  t.flatMap fun c => if c.escaped then ['\\', c.char] else [c.char]

/-- The characters of a text, those that `escaped` selects being escaped. -/
def ofText (escaped : Char → Bool) (s : List Char) : Term :=
  s.map fun c => ⟨c, escaped c⟩

theorem spell_ofText (escaped : Char → Bool) (s : List Char) :
    spell (ofText escaped s) = escapeWhere escaped s := by
  rw [spell, ofText, List.flatMap_map]
  rfl

theorem text_ofText (escaped : Char → Bool) (s : List Char) : (ofText escaped s).text = s := by
  rw [text, ofText, List.map_map]
  exact List.map_id s

theorem read_cons {c : Char} (hc : c ≠ '\\') (s : List Char) :
    read (c :: s) =
      if endsAt c then .ok ([], c :: s)
      else match read s with
        | .error fault => .error fault
        | .ok (t, rest) => .ok (⟨c, false⟩ :: t, rest) := by
  rw [read.eq_def]
  exact if_neg hc

/-- A bare term reads back. -/
theorem read_spell {t : Term} (ht : ∀ c ∈ t, c.escaped = false → c.char ≠ '\\' ∧ ¬ endsAt c.char)
    {rest : List Char} (hrest : EndsTerm rest) : read (spell t ++ rest) = .ok (t, rest) := by
  induction t with
  | nil =>
      cases rest with
      | nil => rfl
      | cons c rest =>
          have hends := hrest c rfl
          have hc : c ≠ '\\' := fun heq => absurd (heq ▸ hends) (by decide)
          change read (c :: rest) = _
          rw [read_cons hc, if_pos hends]
  | cons c t ih =>
      have hread := ih fun d hd => ht d (List.mem_cons_of_mem _ hd)
      obtain ⟨c, escaped⟩ := c
      cases escaped with
      | true =>
          change read ('\\' :: c :: (spell t ++ rest)) = _
          rw [read.eq_def]
          dsimp only
          rw [if_pos rfl, hread]
      | false =>
          obtain ⟨hc, hends⟩ := ht _ List.mem_cons_self rfl
          change read (c :: (spell t ++ rest)) = _
          rw [read_cons hc, if_neg hends, hread]

theorem hasEscape_ofText (escaped : Char → Bool) (s : List Char) :
    (ofText escaped s).hasEscape = s.any escaped := by
  rw [hasEscape, ofText, List.any_map]
  rfl

theorem hasWildcard_ofText (escaped : Char → Bool) (s : List Char) :
    (ofText escaped s).hasWildcard = s.any fun c => isWildcard c && !escaped c := by
  rw [hasWildcard, ofText, List.any_map]
  rfl

/-! ## Words without escapes -/

/-- A text without backslashes reads as it stands up to where a term ends. -/
theorem read_plain {s : List Char} (hs : ∀ c ∈ s, c ≠ '\\' ∧ ¬ endsAt c) {rest : List Char}
    (hrest : EndsTerm rest) : read (s ++ rest) = .ok (ofText (fun _ => false) s, rest) := by
  have hspell : spell (ofText (fun _ => false) s) = s := by
    rw [spell_ofText]
    exact List.flatMap_singleton' s
  have hplain : ∀ c ∈ ofText (fun _ => false) s, c.escaped = false →
      c.char ≠ '\\' ∧ ¬ endsAt c.char := by
    intro c hc _
    obtain ⟨d, hd, rfl⟩ := List.mem_map.mp hc
    exact hs d hd
  have hread := read_spell hplain hrest
  rwa [hspell] at hread

theorem hasEscape_plain (s : List Char) : (ofText (fun _ => false) s).hasEscape = false := by
  rw [hasEscape_ofText, List.any_eq_false]
  intro _ _
  exact Bool.false_ne_true

theorem hasWildcard_plain {s : List Char} (hs : ∀ c ∈ s, isWildcard c = false) :
    (ofText (fun _ => false) s).hasWildcard = false := by
  rw [hasWildcard_ofText, List.any_eq_false]
  intro c hc
  rw [hs c hc]
  exact Bool.false_ne_true

/-- Whether a character occurs in numbers and reserved words. -/
def isWordChar (c : Char) : Bool := c.isDigit || c.isLower || c == '-' || c == '.'

/-- The characters of words are printable ASCII. -/
theorem toNat_of_isWordChar {c : Char} (hc : isWordChar c) : 0x20 < c.toNat ∧ c.toNat < 0x7F := by
  unfold isWordChar at hc
  simp only [Bool.or_eq_true, beq_iff_eq] at hc
  rcases hc with ((hc | hc) | rfl) | rfl
  · obtain ⟨hlow, hhigh⟩ := Char.isDigit_iff_toNat.mp hc
    exact ⟨Nat.lt_of_lt_of_le (by decide) hlow, Nat.lt_of_le_of_lt hhigh (by decide)⟩
  · obtain ⟨hlow, hhigh⟩ := Bool.and_eq_true_iff.mp hc
    exact ⟨Nat.lt_of_lt_of_le (by decide) (UInt32.le_iff_toNat_le.mp (of_decide_eq_true hlow)),
      Nat.lt_of_le_of_lt (UInt32.le_iff_toNat_le.mp (of_decide_eq_true hhigh)) (by decide)⟩
  · decide
  · decide

/-- A character of a word is not a blank. -/
theorem isBlank_of_isWordChar {c : Char} (hc : isWordChar c) : isBlank c = false := by
  obtain ⟨hlow, hhigh⟩ := toNat_of_isWordChar hc
  unfold isBlank
  simp
  omega

/-- A character of a word has no meaning of its own. -/
theorem ne_of_isWordChar {c d : Char} (hc : isWordChar c) (hd : !isWordChar d) : c ≠ d := by
  intro heq
  rw [← heq, hc] at hd
  cases hd

theorem endsAt_of_isWordChar {c : Char} (hc : isWordChar c) : endsAt c = false := by
  have hspecial : ∀ d ∈ ['(', ')', '[', ']', '\x7b', '\x7d', '"', ':'], !isWordChar d :=
    List.all_eq_true.mp rfl
  rw [endsAt, isBlank_of_isWordChar hc, Bool.false_or, ← Bool.not_eq_true, List.contains_iff_mem]
  intro hmem
  exact ne_of_isWordChar hc (hspecial c hmem) rfl

theorem isWildcard_of_isWordChar {c : Char} (hc : isWordChar c) : isWildcard c = false :=
  Bool.or_eq_false_iff.mpr ⟨beq_eq_false_iff_ne.mpr (ne_of_isWordChar hc rfl),
    beq_eq_false_iff_ne.mpr (ne_of_isWordChar hc rfl)⟩

/-! ### Numbers -/

theorem isWordChar_of_isDecimalChar {c : Char} (hc : Number.isDecimalChar c) : isWordChar c := by
  simp only [Number.isDecimalChar, Bool.or_eq_true, beq_iff_eq] at hc
  rcases hc with ((hc | rfl) | rfl) | rfl
  · rw [isWordChar, hc]
    rfl
  · rfl
  · rfl
  · rfl

theorem isWordChar_of_isNumeral {s : List Char} (hs : Number.IsNumeral s) :
    ∀ c ∈ s, isWordChar c := by
  obtain ⟨sign, first, rest, rfl, hsign, hfirst, hrest⟩ := hs
  intro c hc
  apply isWordChar_of_isDecimalChar
  rcases List.mem_append.mp hc with hc | hc
  · rcases hsign with rfl | rfl
    · cases hc
    · rw [List.mem_singleton.mp hc]
      rfl
  · rcases List.mem_cons.mp hc with rfl | hc
    · exact Number.isDecimalChar_of_isDigit hfirst
    · exact hrest c hc

theorem looksNumeric_of_isNumeral {s : List Char} (hs : Number.IsNumeral s) : looksNumeric s := by
  obtain ⟨sign, first, rest, rfl, hsign, hfirst, hrest⟩ := hs
  have hdigit : ∀ {c : Char}, c.isDigit → startsNumber c := by
    intro c hc
    rw [startsNumber, hc]
    rfl
  have hall : rest.all fun c => startsNumber c || c == 'e' || c == 'E' := by
    rw [List.all_eq_true]
    intro c hc
    have hc := hrest c hc
    simp only [Number.isDecimalChar, Bool.or_eq_true, beq_iff_eq] at hc
    rcases hc with ((hc | rfl) | rfl) | rfl
    · rw [hdigit hc]
      rfl
    · rfl
    · rfl
    · rfl
  have hminus : startsNumber '-' := rfl
  unfold looksNumeric
  rcases hsign with rfl | rfl
  · simp only [List.nil_append, List.any_cons, List.all_cons, List.head?_cons, Option.any_some,
      hfirst, hdigit hfirst, hall, Bool.true_or, Bool.true_and]
  · simp only [List.singleton_append, List.any_cons, List.all_cons, List.head?_cons,
      Option.any_some, hfirst, hdigit hfirst, hall, hminus, Bool.true_or, Bool.or_true,
      Bool.true_and]

/-- What is spelled like a number is not a reserved word. -/
theorem typed_of_looksNumeric {s : List Char} (hs : looksNumeric s) :
    typed s = match Number.readInt64? s with
      | some n => .int n
      | none => match Number.readFloat? s with
        | some x => .float x
        | none => .text (String.ofList s) := by
  unfold typed
  rw [if_pos hs]
  split
  next heq => exact absurd (heq ▸ hs) (by decide)
  next =>
    split
    next heq => exact absurd (heq ▸ hs) (by decide)
    next =>
      split
      next heq => exact absurd (heq ▸ hs) (by decide)
      next => rfl

end Term

/-! ## Scalars -/

namespace Value

/-- A scalar other than an infinity or NaN. -/
def IsFiniteScalar : Value → Prop
  | float x => Number.isFinite x
  | list _ | range .. => False
  | _ => True

/-- A scalar that is not a text is written as a word that has its type. -/
theorem exists_word {v : Value} (hv : v.IsFiniteScalar) (htext : v.text? = none) :
    ∃ s, s ≠ [] ∧ (∀ c ∈ s, Term.isWordChar c) ∧ Term.typed s = v ∧
      ∀ rest, v.write rest = s ++ rest := by
  cases v with
  | null => exact ⟨"null".toList, by decide, List.all_eq_true.mp rfl, rfl, fun _ => rfl⟩
  | bool b =>
      cases b with
      | true => exact ⟨"true".toList, by decide, List.all_eq_true.mp rfl, rfl, fun _ => rfl⟩
      | false => exact ⟨"false".toList, by decide, List.all_eq_true.mp rfl, rfl, fun _ => rfl⟩
  | int n =>
      have hnumeral := Number.isNumeral_integerText n.toInt
      refine ⟨Number.integerText n.toInt, hnumeral.ne_nil,
        Term.isWordChar_of_isNumeral hnumeral, ?_, fun _ => rfl⟩
      rw [Term.typed_of_looksNumeric (Term.looksNumeric_of_isNumeral hnumeral),
        Number.readInt64?_integerText]
  | float x =>
      have hnumeral := Number.isNumeral_floatText hv
      refine ⟨Number.floatText x, hnumeral.ne_nil, Term.isWordChar_of_isNumeral hnumeral, ?_,
        fun _ => rfl⟩
      rw [Term.typed_of_looksNumeric (Term.looksNumeric_of_isNumeral hnumeral),
        Number.readInt64?_floatText hv, Number.readFloat?_floatText hv]
  | text s => cases htext
  | list items => exact hv.elim
  | range low high closedLow closedHigh => exact hv.elim

end Value

end QueryFilter
