import QueryFilter.Number.Binary64

/-!
# The shortest decimal of a double

A double stands for all reals that round to it: an interval around its value that reaches half way
to its neighbours, its ends included when the word is even.  The decimal chosen for a double lies
on the coarsest grid `{c * 10 ^ k}` that has a point in this interval, and is the point of that
grid nearest to the value; a value half way between two points takes the larger.

All comparisons are made in quarters of a unit, that is in multiples of `2 ^ -1076`, so that every
end of an interval is a natural number.
-/

namespace QueryFilter.Number

/-- The value of a word in quarter units. -/
def quarters (w : Nat) : Nat := 4 * significand w * Nat.pow 2 (scale w)

/-- The lower end of the interval of reals that round to a word, in quarter units.  Below a power
of two the doubles are twice as dense. -/
def lowerEnd (w : Nat) : Nat :=
  if significand w = leadingBit ∧ 0 < scale w then quarters w - Nat.pow 2 (scale w)
  else quarters w - 2 * Nat.pow 2 (scale w)

/-- The upper end of the interval of reals that round to a word, in quarter units. -/
def upperEnd (w : Nat) : Nat := quarters w + 2 * Nat.pow 2 (scale w)

/-- Whether the fraction `num / den` of quarter units rounds to a word. -/
def roundsTo (w num den : Nat) : Bool :=
  if w % 2 = 0 then lowerEnd w * den ≤ num && num ≤ upperEnd w * den
  else lowerEnd w * den < num && num < upperEnd w * den

/-- The multiple of `spacing / den` quarter units that stands for a word, if there is one in the
word's interval: the nearer of the value's two neighbours, the upper one on a tie. -/
def multiple? (w spacing den : Nat) : Option Nat :=
  let below := quarters w * den / spacing
  let beyond := quarters w * den % spacing
  match roundsTo w (below * spacing) den, roundsTo w ((below + 1) * spacing) den with
  | true, true => some (if spacing ≤ 2 * beyond then below + 1 else below)
  | true, false => some below
  | false, true => some (below + 1)
  | false, false => none

/-- The point of the grid of multiples of `10 ^ k` that stands for a word. -/
def gridPoint? (w : Nat) (k : Int) : Option Nat :=
  multiple? w (4 * unitsPerOne * Nat.pow 10 k.toNat) (Nat.pow 10 (-k).toNat)

/-- The grids that can hold the decimal of a finite double, the coarsest first. -/
def grids : List Int := (List.range 633).map fun (i : Nat) => 308 - (i : Int)

/-- The digits `c` and the exponent `k` of the decimal `c * 10 ^ k` chosen for a word. -/
def shortest (w : Nat) : Nat × Int :=
  (grids.findSome? fun k => (gridPoint? w k).map (·, k)).getD (0, 0)

end QueryFilter.Number
