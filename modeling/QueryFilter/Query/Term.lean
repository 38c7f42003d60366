import QueryFilter.Number.Decimal
import QueryFilter.ParseError
import QueryFilter.Query.Render

/-!
# The words of a query text

A query text is read from left to right, and the text that remains is the only state of a reader.
A fault is therefore told by the number of characters that remain at its place.

Words come in three forms: bare terms, in which a backslash takes the meaning from the next
character, quoted texts, and regular expressions between slashes.
-/

namespace QueryFilter

open Text (isBlank skipBlanks)

/-- A cause and the number of characters that remain at its place. -/
structure Fault where
  cause : ParseError.Cause
  left : Nat

namespace Fault

/-- A fault at the head of the remaining text. -/
def here (c : ParseError.TextCause) (s : List Char) : Fault := ⟨.text c, s.length⟩

/-- A fault at the head of the remaining text, which is one thing at its end and another in front
of a character. -/
def atEndOr (atEnd : ParseError.TextCause) (other : Char → ParseError.TextCause) :
    List Char → Fault
  | [] => here atEnd []
  | c :: s => here (other c) (c :: s)

/-- Something other than the next character has to come here. -/
def unexpectedHere : List Char → Fault := atEndOr .unexpectedEnd .unexpected

end Fault

/-! ## Symbols and keywords -/

/-- The text behind a symbol, if the text starts with it. -/
def symbol? (symbol : String) (s : List Char) : Option (List Char) :=
  symbol.toList.isPrefixOf? s

/-- The text behind a keyword, if the text starts with it.  A blank, an opening parenthesis or the
end of the text follows a keyword. -/
def keyword? (keyword : String) (s : List Char) : Option (List Char) :=
  (symbol? keyword s).filter fun rest =>
    match rest with
    | [] => true
    | c :: _ => isBlank c || c == '('

/-- Whether the text starts with a keyword. -/
def atKeyword (keyword : String) (s : List Char) : Bool := (keyword? keyword s).isSome

/-- The text behind a sign of disjunction. -/
def orSign? (s : List Char) : Option (List Char) :=
  (keyword? "OR" s).or (symbol? "||" s)

/-- The text behind a sign of conjunction. -/
def andSign? (s : List Char) : Option (List Char) :=
  (keyword? "AND" s).or (symbol? "&&" s)

/-- Whether a one-character sign in front of this text is attached to its operand. -/
def attached : List Char → Bool
  | [] => false
  | c :: _ => !isBlank c && c != '='

theorem eq_append_of_isPrefixOf? {p s rest : List Char} (h : p.isPrefixOf? s = some rest) :
    s = p ++ rest := by
  induction p generalizing s with
  | nil => exact Option.some.inj h
  | cons c p ih =>
    cases s with
    | nil => cases h
    | cons d s =>
      change (if c == d then p.isPrefixOf? s else none) = some rest at h
      split at h
      next hcd => rw [beq_iff_eq.1 hcd, ih h, List.cons_append]
      · cases h

theorem eq_append_of_symbol? {symbol : String} {s rest : List Char}
    (h : symbol? symbol s = some rest) : s = symbol.toList ++ rest :=
  eq_append_of_isPrefixOf? h

theorem length_of_symbol? {symbol : String} {s rest : List Char} (h : symbol? symbol s = some rest) :
    rest.length + symbol.toList.length = s.length := by
  rw [eq_append_of_symbol? h, List.length_append, Nat.add_comm]

theorem length_of_keyword? {keyword : String} {s rest : List Char}
    (h : keyword? keyword s = some rest) : rest.length + keyword.toList.length = s.length :=
  length_of_symbol? (Option.filter_eq_some_iff.mp h).1

theorem length_of_orSign? {s rest : List Char} (h : orSign? s = some rest) :
    rest.length < s.length := by
  rcases Option.or_eq_some_iff.mp h with h | ⟨-, h⟩
  · have := length_of_keyword? h
    simp at this
    omega
  · have := length_of_symbol? h
    simp at this
    omega

theorem length_of_andSign? {s rest : List Char} (h : andSign? s = some rest) :
    rest.length < s.length := by
  rcases Option.or_eq_some_iff.mp h with h | ⟨-, h⟩
  · have := length_of_keyword? h
    simp at this
    omega
  · have := length_of_symbol? h
    simp at this
    omega

/-! ## Bare terms -/

/-- A character of a bare term, and whether a backslash stood in front of it. -/
structure TermChar where
  char : Char
  escaped : Bool
  deriving DecidableEq

/-- A bare term. -/
abbrev Term := List TermChar

namespace Term

/-- Whether a character that is not escaped ends a bare term. -/
def endsAt (c : Char) : Bool :=
  isBlank c || ['(', ')', '[', ']', '\x7b', '\x7d', '"', ':'].contains c

/-- The characters of a term. -/
def text (t : Term) : List Char := t.map TermChar.char

/-- Whether a character of a term is escaped. -/
def hasEscape (t : Term) : Bool := t.any TermChar.escaped

/-- Whether a term has a wildcard that is not escaped. -/
def hasWildcard (t : Term) : Bool := t.any fun c => isWildcard c.char && !c.escaped

/-- Whether a term has a wildcard that is escaped. -/
def hasEscapedWildcard (t : Term) : Bool := t.any fun c => isWildcard c.char && c.escaped

/-- Reads a bare term up to the character that ends it.  The term may be empty. -/
def read : List Char → Except Fault (Term × List Char)
  | [] => .ok ([], [])
  | c :: s =>
    if c = '\\' then
      match s with
      | [] => .error (.here .danglingEscape [])
      | e :: s =>
        match read s with
        | .error fault => .error fault
        | .ok (t, rest) => .ok (⟨e, true⟩ :: t, rest)
    else if endsAt c then .ok ([], c :: s)
    else
      match read s with
      | .error fault => .error fault
      | .ok (t, rest) => .ok (⟨c, false⟩ :: t, rest)

theorem length_of_read {s rest : List Char} {t : Term} (h : read s = .ok (t, rest)) :
    rest.length + t.length ≤ s.length := by
  fun_induction read s generalizing t <;> grind

/-- Whether a text is spelled like a number: it has a digit, begins like a number and holds digits,
signs, points and exponent marks only. -/
def looksNumeric (s : List Char) : Bool :=
  s.any Char.isDigit && s.head?.any startsNumber &&
    s.all fun c => startsNumber c || c == 'e' || c == 'E'

/-- The scalar that a text without escapes stands for. -/
def typed (s : List Char) : Value :=
  if s = ['t', 'r', 'u', 'e'] then .bool true
  else if s = ['f', 'a', 'l', 's', 'e'] then .bool false
  else if s = ['n', 'u', 'l', 'l'] then .null
  else if looksNumeric s then
    match Number.readInt64? s with
    | some n => .int n
    | none =>
      match Number.readFloat? s with
      | some x => .float x
      | none => .text (String.ofList s)
  else .text (String.ofList s)

/-- The scalar that a term stands for.  A term with an escape is a text. -/
def scalar (t : Term) : Value :=
  if t.hasEscape then .text (String.ofList t.text) else typed t.text

end Term

/-! ## Delimited texts -/

/-- Reads up to the closing quote.  A backslash takes the meaning from the next character. -/
def readQuoted? : List Char → Option (List Char × List Char)
  | [] => none
  | '"' :: rest => some ([], rest)
  | '\\' :: c :: s => (readQuoted? s).map fun (t, rest) => (c :: t, rest)
  | c :: s => (readQuoted? s).map fun (t, rest) => (c :: t, rest)

/-- Reads up to the closing slash.  A backslash in front of a slash is dropped, and one in front of
another character stays. -/
def readRegex? : List Char → Option (List Char × List Char)
  | [] => none
  | '/' :: rest => some ([], rest)
  | '\\' :: '/' :: s => (readRegex? s).map fun (t, rest) => ('/' :: t, rest)
  | '\\' :: c :: s => (readRegex? s).map fun (t, rest) => ('\\' :: c :: t, rest)
  | c :: s => (readRegex? s).map fun (t, rest) => (c :: t, rest)

theorem length_of_readQuoted? {s t rest : List Char} (h : readQuoted? s = some (t, rest)) :
    rest.length < s.length := by
  fun_induction readQuoted? s generalizing t <;> grind [Option.map_eq_some_iff]

theorem length_of_readRegex? {s t rest : List Char} (h : readRegex? s = some (t, rest)) :
    rest.length < s.length := by
  fun_induction readRegex? s generalizing t <;> grind [Option.map_eq_some_iff]

/-- Reads a quoted text that starts behind its opening quote. -/
def readQuoted (s : List Char) : Except Fault (Value × List Char) :=
  match readQuoted? s with
  | some (t, rest) => .ok (.text (String.ofList t), rest)
  | none => .error ⟨.text .unterminatedString, s.length + 1⟩

/-- Reads a regular expression that starts behind its opening slash. -/
def readRegex (s : List Char) : Except Fault (Value × List Char) :=
  match readRegex? s with
  | some ([], _) => .error ⟨.text .emptyRegex, s.length + 1⟩
  | some (t, rest) => .ok (.text (String.ofList t), rest)
  | none => .error ⟨.text .unterminatedRegex, s.length + 1⟩

theorem length_of_readQuoted {s rest : List Char} {v : Value} (h : readQuoted s = .ok (v, rest)) :
    rest.length < s.length := by
  unfold readQuoted at h
  split at h
  case h_1 t rest' ht =>
    obtain ⟨-, rfl⟩ := Prod.mk.inj (Except.ok.inj h)
    exact length_of_readQuoted? ht
  case h_2 => simp at h

theorem length_of_readRegex {s rest : List Char} {v : Value} (h : readRegex s = .ok (v, rest)) :
    rest.length < s.length := by
  unfold readRegex at h
  split at h
  case h_2 t rest' _ ht =>
    obtain ⟨-, rfl⟩ := Prod.mk.inj (Except.ok.inj h)
    exact length_of_readRegex? ht
  all_goals simp at h

end QueryFilter
