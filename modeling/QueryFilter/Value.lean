/-!
# Values

The right-hand side of a comparison: a scalar, a list, or a range whose bounds may be open.  The
readers of queries build lists and bounds from scalars only; trees built by hand may nest them.
-/

namespace QueryFilter

/-- A value to compare a field with. -/
inductive Value where
  | null
  | bool (b : Bool)
  | int (n : Int64)
  | float (x : Float)
  | text (s : String)
  | list (items : List Value)
  /-- A range.  A bound that is absent is open; the flags say whether the bounds belong to it. -/
  | range (low high : Option Value) (closedLow closedHigh : Bool)

namespace Value

/-- Whether a value is neither a list nor a range. -/
def isScalar : Value → Bool
  | list _ => false
  | range .. => false
  | _ => true

/-- Whether a value is the null scalar. -/
def isNull : Value → Bool
  | null => true
  | _ => false

/-- The string of a text value. -/
def text? : Value → Option String
  | text s => some s
  | _ => none

/-- The bounds of a range that are present, the lower one first. -/
def bounds (low high : Option Value) : List Value :=
  low.toList ++ high.toList

mutual

/-- Whether two values have the same shape and the same scalars.  Floats are compared as numbers,
so that the two zeros are the same and NaN is not the same as itself. -/
def same : Value → Value → Bool
  | null, null => true
  | bool a, bool b => a == b
  | int a, int b => a == b
  | float a, float b => a.beq b
  | text a, text b => a == b
  | list as, list bs => sameItems as bs
  | range low high closedLow closedHigh, range low' high' closedLow' closedHigh' =>
    sameBound low low' && sameBound high high' && closedLow == closedLow' &&
      closedHigh == closedHigh'
  | _, _ => false

/-- Whether two lists hold the same values in the same order. -/
def sameItems : List Value → List Value → Bool
  | [], [] => true
  | a :: as, b :: bs => same a b && sameItems as bs
  | _, _ => false

/-- Whether two bounds are both open or hold the same value. -/
def sameBound : Option Value → Option Value → Bool
  | none, none => true
  | some a, some b => same a b
  | _, _ => false

end

end Value

end QueryFilter
