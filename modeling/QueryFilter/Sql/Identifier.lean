import QueryFilter.Field

/-!
# Identifiers

A field name is written into a statement as it is, so it has to be harmless: one or two segments of
ASCII letters, digits and underscores that begin with a letter and hold no double underscore.
-/

namespace QueryFilter.Sql

/-- The greatest length of a segment of an identifier. -/
def maxSegmentLength : Nat := 64

/-- Why a text is not an identifier. -/
inductive IdentifierFault where
  | empty
  | badStart
  | badCharacter
  | tooManySegments
  | emptySegment
  | segmentTooLong
  | doubleUnderscore
  deriving DecidableEq

/-- The wording of a fault. -/
def IdentifierFault.message : IdentifierFault → String
  | empty => "empty"
  | badStart => "must start with a letter"
  | badCharacter => "only ASCII letters, digits, '_' and '.' are allowed"
  | tooManySegments => "too many segments"
  | emptySegment => "empty segment"
  | segmentTooLong => "segment too long"
  | doubleUnderscore => "segment contains '__'"

/-- Whether a character may occur in an identifier. -/
def isIdentifierChar (c : Char) : Bool := c.isAlphanum || c == '_' || c == '.'

/-- Whether two underscores stand side by side. -/
def hasDoubleUnderscore : List Char → Bool
  | '_' :: '_' :: _ => true
  | _ :: s => hasDoubleUnderscore s
  | [] => false

/-- The fault of a segment, if it has one. -/
def segmentFault? (segment : List Char) : Option IdentifierFault :=
  if segment = [] then some .emptySegment
  else if maxSegmentLength < segment.length then some .segmentTooLong
  else if hasDoubleUnderscore segment then some .doubleUnderscore
  else none

/-- The first fault of the segments of a text, when `room` more of them are allowed. -/
def segmentsFault? : (room : Nat) → List (List Char) → Option IdentifierFault
  | _, [] => none
  | 0, _ :: _ => some .tooManySegments
  | room + 1, segment :: others => (segmentFault? segment).or (segmentsFault? room others)

/-- The fault of a text as an identifier, if it has one. -/
def identifierFault? (s : List Char) : Option IdentifierFault :=
  match s with
  | [] => some .empty
  | c :: _ =>
    if !c.isAlpha then some .badStart
    else if !s.all isIdentifierChar then some .badCharacter
    else segmentsFault? maxSegments (segments s)

end QueryFilter.Sql
