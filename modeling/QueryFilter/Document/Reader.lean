import QueryFilter.Document.Number

/-!
# Reading a document

A text is cut into tokens, and a machine takes the tokens one by one.  Its state holds the arrays
and objects that are still open, so documents may be nested to any depth.
-/

namespace QueryFilter.Document

/-! ## Strings -/

/-- The value of a hexadecimal digit. -/
def hexDigit? (c : Char) : Option Nat :=
  if c.isDigit then some (c.toNat - '0'.toNat)
  else if 'a' ≤ c ∧ c ≤ 'f' then some (c.toNat - 'a'.toNat + 10)
  else if 'A' ≤ c ∧ c ≤ 'F' then some (c.toNat - 'A'.toNat + 10)
  else none

/-- The value of four hexadecimal digits. -/
def hexUnit? (a b c d : Char) : Option Nat := do
  return (((← hexDigit? a) * 16 + (← hexDigit? b)) * 16 + (← hexDigit? c)) * 16 + (← hexDigit? d)

/-- Whether a unit is the first of a pair. -/
def isHighSurrogate (n : Nat) : Bool := 0xD800 ≤ n && n ≤ 0xDBFF

/-- Whether a unit is the second of a pair. -/
def isLowSurrogate (n : Nat) : Bool := 0xDC00 ≤ n && n ≤ 0xDFFF

/-- The character of a pair of units. -/
def surrogatePair (high low : Nat) : Char :=
  Char.ofNat (0x10000 + (high - 0xD800) * 0x400 + (low - 0xDC00))

/-- The character of an escape by a single letter. -/
def simpleEscape? : Char → Option Char
  | '"' => some '"'
  | '\\' => some '\\'
  | '/' => some '/'
  | 'b' => some '\x08'
  | 'f' => some '\x0c'
  | 'n' => some '\n'
  | 'r' => some '\r'
  | 't' => some '\t'
  | _ => none

/-- Reads a string behind its opening quote.  Control characters have to be escaped, and the units
of a pair have to stand together. -/
def readString? : List Char → Option (List Char × List Char)
  | [] => none
  | '"' :: rest => some ([], rest)
  | '\\' :: 'u' :: a :: b :: c :: d :: s =>
    match hexUnit? a b c d with
    | none => none
    | some high =>
      if isHighSurrogate high then
        match s with
        | '\\' :: 'u' :: a :: b :: c :: d :: s =>
          match hexUnit? a b c d with
          | none => none
          | some low =>
            if isLowSurrogate low then
              (readString? s).map fun (t, rest) => (surrogatePair high low :: t, rest)
            else none
        | _ => none
      else if isLowSurrogate high then none
      else (readString? s).map fun (t, rest) => (Char.ofNat high :: t, rest)
  | '\\' :: c :: s =>
    match simpleEscape? c with
    | none => none
    | some image => (readString? s).map fun (t, rest) => (image :: t, rest)
  | c :: s =>
    if c.toNat < 0x20 then none
    else (readString? s).map fun (t, rest) => (c :: t, rest)

theorem length_of_readString? {s : List Char} {r : List Char × List Char}
    (h : readString? s = some r) : r.2.length < s.length := by
  fun_induction readString? s generalizing r with
  | case1 | case3 | case4 | case6 | case7 | case8 | case10 | case12 => simp at h
  | case2 => grind
  | case5 _ _ _ _ _ _ _ _ _ _ _ _ _ _ _ ih =>
    obtain ⟨x, hx, rfl⟩ := Option.map_eq_some_iff.mp h
    have := ih hx
    simp only [List.length_cons]
    omega
  | case9 _ _ _ _ _ _ _ _ _ ih | case11 _ _ _ _ _ ih | case13 _ _ _ _ _ _ ih =>
    obtain ⟨x, hx, rfl⟩ := Option.map_eq_some_iff.mp h
    have := ih hx
    simp only [List.length_cons]
    omega

/-! ## Tokens -/

/-- A mark of the notation, a string, or another scalar. -/
inductive Token where
  | openArray | closeArray | openObject | closeObject | comma | colon
  | string (s : String)
  | scalar (d : Document)

/-- Whether a character may stand between tokens. -/
def isSpace (c : Char) : Bool := c == ' ' || c == '\n' || c == '\t' || c == '\r'

/-- Reads the token at the head of a text. -/
def Token.read? : List Char → Option (Token × List Char)
  | '[' :: s => some (openArray, s)
  | ']' :: s => some (closeArray, s)
  | '\x7b' :: s => some (openObject, s)
  | '\x7d' :: s => some (closeObject, s)
  | ',' :: s => some (comma, s)
  | ':' :: s => some (colon, s)
  | '"' :: s => (readString? s).map fun (t, rest) => (string (String.ofList t), rest)
  | 'n' :: 'u' :: 'l' :: 'l' :: s => some (scalar null, s)
  | 't' :: 'r' :: 'u' :: 'e' :: s => some (scalar (bool true), s)
  | 'f' :: 'a' :: 'l' :: 's' :: 'e' :: s => some (scalar (bool false), s)
  | s => (readNumber? s).map fun (d, rest) => (scalar d, rest)

theorem Token.length_of_read? {s rest : List Char} {t : Token} (h : Token.read? s = some (t, rest)) :
    rest.length < s.length := by
  unfold Token.read? at h
  split at h
  case h_7 =>
    obtain ⟨x, hx, heq⟩ := Option.map_eq_some_iff.mp h
    have := length_of_readString? hx
    grind
  case h_11 =>
    obtain ⟨x, hx, heq⟩ := Option.map_eq_some_iff.mp h
    have := length_of_readNumber? hx
    grind
  all_goals grind

/-- The tokens of a text. -/
def tokens? (s : List Char) : Option (List Token) :=
  match _hs : s.dropWhile isSpace with
  | [] => some []
  | c :: s' =>
    match _h : Token.read? (c :: s') with
    | none => none
    | some (token, rest) => (tokens? rest).map (token :: ·)
termination_by s.length
decreasing_by
  have hread := Token.length_of_read? _h
  have hdrop := (List.dropWhile_sublist isSpace (l := s)).length_le
  rw [_hs] at hdrop
  omega

/-! ## Nesting -/

/-- An array or object that is still open: the items before the current one, last first, or the
members before the current one and its key. -/
inductive Frame where
  | array (items : List Document)
  | object (members : List (String × Document)) (key : String)

/-- What the machine waits for, inside the open frames, innermost first. -/
inductive State where
  /-- A document. -/
  | value (frames : List Frame)
  /-- The first item of an array, or its end. -/
  | firstItem (frames : List Frame)
  /-- The first key of an object, or its end. -/
  | firstKey (frames : List Frame)
  /-- A further key of an object. -/
  | key (members : List (String × Document)) (frames : List Frame)
  /-- The colon behind a key. -/
  | colon (members : List (String × Document)) (key : String) (frames : List Frame)
  /-- What follows a document. -/
  | complete (d : Document) (frames : List Frame)

namespace State

/-- The state after a token where a document has to begin. -/
def beginDocument (frames : List Frame) : Token → Option State
  | .scalar d => some (complete d frames)
  | .string s => some (complete (.string s) frames)
  | .openArray => some (firstItem frames)
  | .openObject => some (firstKey frames)
  | _ => none

/-- The state after a token behind a document. -/
def afterDocument (d : Document) : List Frame → Token → Option State
  | .array items :: frames, .comma => some (value (.array (d :: items) :: frames))
  | .array items :: frames, .closeArray => some (complete (.array (d :: items).reverse) frames)
  | .object members k :: frames, .comma => some (key (insertMember k d members) frames)
  | .object members k :: frames, .closeObject =>
    some (complete (.object (insertMember k d members)) frames)
  | _, _ => none

/-- The state after a token. -/
def step : State → Token → Option State
  | value frames, token => beginDocument frames token
  | firstItem frames, .closeArray => some (complete (.array []) frames)
  | firstItem frames, token => beginDocument (.array [] :: frames) token
  | firstKey frames, .closeObject => some (complete (.object []) frames)
  | firstKey frames, .string k => some (colon [] k frames)
  | key members frames, .string k => some (colon members k frames)
  | colon members k frames, .colon => some (value (.object members k :: frames))
  | complete d frames, token => afterDocument d frames token
  | _, _ => none

end State

/-- Reads a document that is the whole text. -/
def read? (text : String) : Option Document := do
  match ← (← tokens? text.toList).foldlM State.step (.value []) with
  | .complete d [] => some d
  | _ => none

end QueryFilter.Document
