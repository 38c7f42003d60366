import QueryFilter.Number.Shortest

/-!
# Numbers as decimal text

Integers are an optional sign and digits.  Doubles are written with the digits of their shortest
decimal: positionally from `1e-4` up to but not including `1e16`, and with an exponent outside.
A positional number always has a fraction, so that it does not read as an integer.

Reading accepts a sign, digits with at most one point among them, and an exponent, and rounds to
the nearest double.
-/

namespace QueryFilter.Number

/-! ## Integers -/

/-- The digits of a natural number. -/
def naturalText (n : Nat) : List Char := Nat.toDigits 10 n

/-- An integer, with a minus sign if it is negative. -/
def integerText (n : Int) : List Char :=
  if n < 0 then '-' :: naturalText n.natAbs else naturalText n.natAbs

/-- The value of a text of digits, of which there is at least one. -/
def readDigits? (s : List Char) : Option Nat :=
  if s ≠ [] ∧ s.all Char.isDigit then some (Nat.ofDigitChars 10 s 0) else none

/-- Digits that may have a plus sign in front. -/
def readNatural? : List Char → Option Nat
  | '+' :: s => readDigits? s
  | s => readDigits? s

/-- Digits that may have a sign in front. -/
def readInteger? : List Char → Option Int
  | '-' :: s => (readDigits? s).map fun n => -(n : Int)
  | s => (readNatural? s).map fun n => (n : Int)

/-- An integer of 64 bits. -/
def readInt64? (s : List Char) : Option Int64 :=
  (readInteger? s).bind fun n =>
    if Int64.minValue.toInt ≤ n ∧ n ≤ Int64.maxValue.toInt then some (Int64.ofInt n) else none

/-- A count of 64 bits. -/
def readCount? (s : List Char) : Option Nat :=
  (readNatural? s).filter (· < UInt64.size)

/-! ## Writing a double -/

/-- The digits `ds` with the decimal point behind the first `point` of them, zeros filled in. -/
def positional (ds : List Char) (point : Int) : List Char :=
  let whole := ds.take point.toNat ++ List.replicate (point.toNat - ds.length) '0'
  let fraction := List.replicate (-point).toNat '0' ++ ds.drop point.toNat
  (if whole = [] then ['0'] else whole) ++ '.' :: (if fraction = [] then ['0'] else fraction)

/-- The digits `ds` with the decimal point behind the first, and the exponent that makes up for
the place where the point was. -/
def scientific (ds : List Char) (point : Int) : List Char :=
  let fraction := ds.drop 1
  ds.take 1 ++ (if fraction = [] then [] else '.' :: fraction) ++ 'e' :: integerText (point - 1)

/-- The text of the decimal `c * 10 ^ k`. -/
def decimalText (c : Nat) (k : Int) : List Char :=
  let ds := naturalText c
  let point := ds.length + k
  if -3 ≤ point ∧ point ≤ 16 then positional ds point else scientific ds point

/-- The text of a double. -/
def floatText (x : Float) : List Char :=
  let w := word x
  if infinityWord < w then "NaN".toList
  else
    let magnitude :=
      if w = infinityWord then "inf".toList
      else if w = 0 then "0.0".toList
      else decimalText (shortest w).1 (shortest w).2
    if isNegative x then '-' :: magnitude else magnitude

/-! ## Reading a double -/

/-- A decimal number as read: its digits without the point, how many they are, and the power of
ten that they are multiplied by. -/
structure Decimal where
  negative : Bool
  digits : Nat
  width : Nat
  exponent : Int

/-- The exponent at the end of a decimal: nothing, or `e` and an integer. -/
def readExponent? : List Char → Option Int
  | [] => some 0
  | c :: s => if c = 'e' ∨ c = 'E' then readInteger? s else none

/-- A decimal without its sign. -/
def readUnsigned? (negative : Bool) (s : List Char) : Option Decimal :=
  let whole := s.takeWhile Char.isDigit
  let (fraction, tail) : List Char × List Char :=
    match s.dropWhile Char.isDigit with
    | '.' :: t => (t.takeWhile Char.isDigit, t.dropWhile Char.isDigit)
    | t => ([], t)
  let ds := whole ++ fraction
  if ds = [] then none
  else (readExponent? tail).map fun e =>
    ⟨negative, Nat.ofDigitChars 10 ds 0, ds.length, e - fraction.length⟩

/-- A decimal number. -/
def readDecimal? : List Char → Option Decimal
  | '-' :: s => readUnsigned? true s
  | '+' :: s => readUnsigned? false s
  | s => readUnsigned? false s

/-- The word nearest to a decimal.  Exponents that put every value of that many digits out of
the range of doubles are settled without computing the power. -/
def Decimal.word (d : Decimal) : Nat :=
  if d.digits = 0 then 0
  else if 310 < d.exponent then infinityWord
  else if d.exponent < -(330 + d.width : Int) then 0
  else nearestWord (d.digits * Nat.pow 10 d.exponent.toNat) (Nat.pow 10 (-d.exponent).toNat)

/-- The finite double nearest to a decimal, if there is one. -/
def Decimal.toFloat? (d : Decimal) : Option Float :=
  if d.word < infinityWord then some (ofWord d.negative d.word) else none

/-- A text that spells a finite double. -/
def readFloat? (s : List Char) : Option Float :=
  (readDecimal? s).bind Decimal.toFloat?

end QueryFilter.Number
