/-!
# Binary64 numbers as exact fractions

Every finite double is a whole number of units of `2 ^ -1074`, the smallest positive double, with
a sign in front.  The lower 63 bits of a double are its *word*: words count the non-negative
doubles upwards from zero, so the word after the largest finite one is infinity.

`significand w * 2 ^ scale w` is the value of the word `w` in units, and `nearestWord` is the way
back: the word whose value is closest to a fraction, the even word of two that are equally close.
-/

namespace QueryFilter.Number

/-- The bit in front of a word. -/
def signBit : Nat := 0x8000000000000000

/-- The leading bit of a significand, which words leave out. -/
def leadingBit : Nat := 0x10000000000000

/-- The word of infinity. -/
def infinityWord : Nat := 0x7FF * leadingBit

/-- The word of a double. -/
def word (x : Float) : Nat := x.toBits.toNat % signBit

/-- Whether the sign bit of a double is set. -/
def isNegative (x : Float) : Bool := signBit ≤ x.toBits.toNat

/-- Whether a double is a number, neither infinite nor NaN. -/
def isFinite (x : Float) : Bool := word x < infinityWord

/-- The double with a given sign and word. -/
def ofWord (negative : Bool) (w : Nat) : Float :=
  Float.ofBits (UInt64.ofNat (w + if negative then signBit else 0))

/-- The number of units in one. -/
def unitsPerOne : Nat := Nat.pow 2 1074

/-- The integer in front of the power of two in the value of a word. -/
def significand (w : Nat) : Nat := if w < leadingBit then w else leadingBit + w % leadingBit

/-- The power of two in the value of a word, in units of `2 ^ -1074`. -/
def scale (w : Nat) : Nat := w / leadingBit - 1

/-- The word nearest to `num / den`, and the even one of two equally near.  Fractions beyond the
range of doubles give a word that is not below `infinityWord`. -/
def nearestWord (num den : Nat) : Nat :=
  let units := num * unitsPerOne
  let e := (units / den).log2 - 52
  let step := den * Nat.pow 2 e
  let m := units / step
  let twice := 2 * (units % step)
  e * leadingBit + if step < twice || (step == twice && m % 2 == 1) then m + 1 else m

end QueryFilter.Number
