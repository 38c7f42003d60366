/-!
# Wildcard patterns

In a pattern `*` stands for any text and `?` for any character; every other character stands for
itself.  Patterns that some engines match slowly are refused: the number of wildcards is bounded,
and so is the number of changes from a wildcard to a literal character.

The databases have pattern languages of their own, into which a pattern is rewritten: `LIKE`, with
`%` and `_` for the wildcards and a backslash in front of literal ones, and `GLOB`, with the same
wildcards and with classes in brackets.
-/

namespace QueryFilter

/-- Whether a character is one of the two wildcards. -/
def isWildcard (c : Char) : Bool := c == '*' || c == '?'

namespace Pattern

/-! ## Bounds -/

/-- The greatest number of wildcards in a pattern. -/
def maxWildcards : Nat := 10

/-- The greatest number of changes from a wildcard to a literal character in a pattern. -/
def maxAlternations : Nat := 4

/-- The greatest length of a pattern in a statement. -/
def maxLength : Nat := 100

/-- The number of wildcards. -/
def wildcardCount (p : List Char) : Nat := p.countP isWildcard

/-- The number of runs of wildcards that end at a literal character, where `inRun` tells whether the
text is preceded by a wildcard. -/
def alternationsAfter (inRun : Bool) : List Char → Nat
  | [] => 0
  | c :: p =>
    if isWildcard c then alternationsAfter true p
    else (if inRun then 1 else 0) + alternationsAfter false p

/-- The number of runs of wildcards that end at a literal character. -/
def alternationCount (p : List Char) : Nat := alternationsAfter false p

/-- A bound that a pattern exceeds, with the number that exceeds it. -/
inductive Excess where
  | wildcards (n : Nat)
  | alternations (n : Nat)
  deriving DecidableEq

/-- The first bound that a pattern exceeds, alternations before wildcards. -/
def excess? (p : List Char) : Option Excess :=
  if maxAlternations < alternationCount p then some (.alternations (alternationCount p))
  else if maxWildcards < wildcardCount p then some (.wildcards (wildcardCount p))
  else none

/-! ## Collapsing -/

/-- Leaves out the wildcards that repeat the character in front of them, which is `previous` at the
start. -/
def collapseAfter (previous : Option Char) : List Char → List Char
  | [] => []
  | c :: p =>
    if isWildcard c && previous == some c then collapseAfter previous p
    else c :: collapseAfter (some c) p

/-- Leaves out every wildcard that repeats the one in front of it. -/
def collapse (p : List Char) : List Char := collapseAfter none p

/-! ## Other pattern languages -/

/-- The `LIKE` pattern of a character. -/
def likeOf (c : Char) : List Char :=
  if c = '*' then ['%']
  else if c = '?' then ['_']
  else if c = '\\' ∨ c = '%' ∨ c = '_' then ['\\', c]
  else [c]

/-- The `LIKE` pattern of a pattern. -/
def toLike (p : List Char) : List Char := p.flatMap likeOf

/-- The `GLOB` pattern of a character.  A bracket stands in a class of its own. -/
def globOf (c : Char) : List Char := if c = '[' then ['[', '[', ']'] else [c]

/-- The `GLOB` pattern of a pattern. -/
def toGlob (p : List Char) : List Char := p.flatMap globOf

/-! ## Safety -/

/-- Why a pattern may not stand in a statement. -/
inductive Fault where
  | tooLong (n : Nat)
  | excess (e : Excess)
  deriving DecidableEq

/-- The reason why a pattern may not stand in a statement, if there is one. -/
def fault? (p : List Char) : Option Fault :=
  if maxLength < p.length then some (.tooLong p.length) else (excess? p).map .excess

/-- The wording of a fault. -/
def Fault.message : Fault → String
  | tooLong n => s!"pattern has {n} characters, the maximum is {maxLength}"
  | excess (.wildcards n) => s!"pattern has {n} wildcards"
  | excess (.alternations n) => s!"pattern has {n} wildcard alternations"

end Pattern

end QueryFilter
