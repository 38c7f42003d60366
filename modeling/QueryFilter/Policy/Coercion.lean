import QueryFilter.Number.Decimal
import QueryFilter.Text.Blank
import QueryFilter.Text.Lowercase
import QueryFilter.Value

/-!
# Loose equality of values

A denied value is recognised in other guises: a number and a text that spells it are the same, and
where case is disregarded texts are compared in lower case.
-/

namespace QueryFilter.Value

/-- The number that a value is, or that its text spells between blanks. -/
def number? : Value → Option Float
  | int n => some n.toFloat
  | float x => some x
  | text s => Number.readFloat? (Text.trimBlanks s.toList)
  | _ => none

/-- Whether two texts have the same lower-case form. -/
def sameLowercase : Value → Value → Bool
  | text s, text t => Text.lowercase s == Text.lowercase t
  | _, _ => false

/-- Whether two values are the same number. -/
def sameNumber (v w : Value) : Bool :=
  match v.number?, w.number? with
  | some x, some y => x.beq y
  | _, _ => false

/-- Whether two values are the same, the same number, or where case is disregarded the same text in
lower case. -/
def looselyEqual (ignoreCase : Bool) (v w : Value) : Bool :=
  v.same w || (ignoreCase && sameLowercase v w) || sameNumber v w

end QueryFilter.Value
