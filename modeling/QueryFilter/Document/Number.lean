import QueryFilter.Document
import QueryFilter.Number.Binary64

/-!
# Numbers of a document

A number without fraction and exponent is an integer as long as it fits 64 bits, unsigned or
signed.  All others are doubles, made from a significand of 64 bits and a power of ten.  The
significand takes the leading digits of the number while they fit.  It is rounded to a double, and
that is multiplied or divided by the double nearest to the power of ten: two or more roundings, so
the result can differ from the nearest double of the number as written.
-/

namespace QueryFilter.Document

/-! ## Significand and exponent -/

/-- The leading digits of a number, and the power of ten that they are multiplied by. -/
structure Scaled where
  significand : Nat
  exponent : Int

/-- The number that a digit appends to a significand, if it fits 64 bits. -/
def appendDigit? (significand : Nat) (digit : Char) : Option Nat :=
  let n := 10 * significand + (digit.toNat - '0'.toNat)
  if n < UInt64.size then some n else none

/-- Takes integer digits.  From the first that does not fit, each multiplies by ten. -/
def Scaled.takeInteger (x : Scaled) : List Char → Scaled
  | [] => x
  | digit :: digits =>
    match appendDigit? x.significand digit with
    | some n => Scaled.takeInteger { x with significand := n } digits
    | none => { x with exponent := x.exponent + (digits.length + 1) }

/-- Takes fraction digits.  From the first that does not fit, they are dropped. -/
def Scaled.takeFraction (x : Scaled) : List Char → Scaled
  | [] => x
  | digit :: digits =>
    match appendDigit? x.significand digit with
    | some n => Scaled.takeFraction ⟨n, x.exponent - 1⟩ digits
    | none => x

/-! ## Doubles -/

/-- The double nearest to a power of ten. -/
def powerOfTen (n : Nat) : Float := Number.ofWord false (Number.nearestWord (Nat.pow 10 n) 1)

/-- The greatest power of ten that is a finite double. -/
def maxPower : Nat := 308

/-- Divides by a power of ten, in steps of at most `maxPower`. -/
def divideByPower (x : Float) (n : Nat) : Float :=
  if n ≤ maxPower then x / powerOfTen n
  else if x.beq 0.0 then x
  else divideByPower (x / powerOfTen maxPower) (n - maxPower)
termination_by n
decreasing_by simp only [maxPower] at *; omega

/-- The double of a significand and an exponent, if it is finite. -/
def Scaled.toFloat? (negative : Bool) (x : Scaled) : Option Float :=
  let f := (UInt64.ofNat x.significand).toFloat
  let magnitude? :=
    if x.exponent < 0 then some (divideByPower f (-x.exponent).toNat)
    else if x.exponent ≤ maxPower then
      some (f * powerOfTen x.exponent.toNat) |>.filter Number.isFinite
    else if f.beq 0.0 then some f
    else none
  magnitude?.map fun f => if negative then -f else f

/-- The integer between the ends of the signed 32-bit integers that is nearest to an integer. -/
def saturate (n : Int) : Int := max Int32.minValue.toInt (min n Int32.maxValue.toInt)

/-- Applies a written exponent.  One that does not fit 32 bits gives zero, except that a number
other than zero cannot grow beyond every bound. -/
def Scaled.withExponent? (negative negativeExponent : Bool) (digits : List Char) (x : Scaled) :
    Option Float :=
  let n := Nat.ofDigitChars 10 digits 0
  if n ≤ Int32.maxValue.toInt then
    let shift : Int := if negativeExponent then -n else n
    Scaled.toFloat? negative { x with exponent := saturate (x.exponent + shift) }
  else if x.significand ≠ 0 ∧ !negativeExponent then none
  else some (if negative then -0.0 else 0.0)

/-! ## Reading -/

/-- The integer or double of a number without fraction and exponent. -/
def ofDigits? (negative : Bool) (digits : List Char) : Option Document :=
  let n := Nat.ofDigitChars 10 digits 0
  if UInt64.size ≤ n then ((Scaled.takeInteger ⟨0, 0⟩ digits).toFloat? negative).map float
  else if negative && decide (-n < Int64.minValue.toInt) then some (float (-(UInt64.ofNat n).toFloat))
  else some (integer (if negative then -n else n))

/-- The digits at the head of a text, of which there is at least one, and the text behind them. -/
def readDigits? (s : List Char) : Option (List Char × List Char) :=
  match s.takeWhile Char.isDigit with
  | [] => none
  | digits => some (digits, s.dropWhile Char.isDigit)

/-- The integer digits at the head of a text.  A zero stands alone. -/
def readWhole? : List Char → Option (List Char × List Char)
  | '0' :: s => some (['0'], s)
  | s => readDigits? s

/-- The fraction digits behind a point, or none if there is no point. -/
def readFraction? : List Char → Option (List Char × List Char)
  | '.' :: s => readDigits? s
  | s => some ([], s)

/-- A written exponent: whether it is negative, and its digits.  There are none if there is no
exponent. -/
def readExponent? : List Char → Option ((Bool × List Char) × List Char)
  | c :: s =>
    if c = 'e' ∨ c = 'E' then
      match s with
      | '-' :: s => (readDigits? s).map fun (digits, rest) => ((true, digits), rest)
      | '+' :: s => (readDigits? s).map fun (digits, rest) => ((false, digits), rest)
      | s => (readDigits? s).map fun (digits, rest) => ((false, digits), rest)
    else some ((false, []), c :: s)
  | [] => some ((false, []), [])

/-- The value of a number with these integer digits, fraction digits and exponent. -/
def numberValue? (negative : Bool) (whole fraction : List Char) (exponent : Bool × List Char) :
    Option Document :=
  let x := (Scaled.takeInteger ⟨0, 0⟩ whole).takeFraction fraction
  if exponent.2 ≠ [] then (x.withExponent? negative exponent.1 exponent.2).map float
  else if fraction ≠ [] then (x.toFloat? negative).map float
  else ofDigits? negative whole

/-- Reads a number without its sign. -/
def readMagnitude? (negative : Bool) (s : List Char) : Option (Document × List Char) := do
  let (whole, s) ← readWhole? s
  let (fraction, s) ← readFraction? s
  let (exponent, s) ← readExponent? s
  (numberValue? negative whole fraction exponent).map (·, s)

/-- Reads the number at the head of a text. -/
def readNumber? : List Char → Option (Document × List Char)
  | '-' :: s => readMagnitude? true s
  | s => readMagnitude? false s

/-! ## Progress -/

theorem length_of_readDigits? {s digits rest : List Char} (h : readDigits? s = some (digits, rest)) :
    rest.length < s.length := by
  unfold readDigits? at h
  split at h
  · simp at h
  next hne =>
    obtain ⟨rfl, rfl⟩ := Prod.mk.inj (Option.some.inj h)
    have hsplit := congrArg List.length (List.takeWhile_append_dropWhile (p := Char.isDigit) (l := s))
    have := List.length_pos_iff.mpr hne
    rw [List.length_append] at hsplit
    omega

theorem length_of_readWhole? {s digits rest : List Char} (h : readWhole? s = some (digits, rest)) :
    rest.length < s.length := by
  unfold readWhole? at h
  split at h
  · grind
  · exact length_of_readDigits? h

theorem length_of_readFraction? {s digits rest : List Char}
    (h : readFraction? s = some (digits, rest)) : rest.length ≤ s.length := by
  unfold readFraction? at h
  split at h
  · have := length_of_readDigits? h
    simp only [List.length_cons]
    omega
  · grind

theorem length_of_readExponent? {s rest : List Char} {e : Bool × List Char}
    (h : readExponent? s = some (e, rest)) : rest.length ≤ s.length := by
  unfold readExponent? at h
  split at h
  · split at h
    · split at h <;>
      · obtain ⟨x, hx, heq⟩ := Option.map_eq_some_iff.mp h
        have := length_of_readDigits? hx
        grind
    · grind
  · grind

theorem length_of_readNumber? {s rest : List Char} {d : Document}
    (h : readNumber? s = some (d, rest)) : rest.length < s.length := by
  have hmag {negative : Bool} {s : List Char} (h : readMagnitude? negative s = some (d, rest)) :
      rest.length < s.length := by
    simp only [readMagnitude?, bind, Option.bind_eq_some_iff] at h
    obtain ⟨whole, hwhole, fraction, hfraction, exponent, hexponent, h⟩ := h
    have := length_of_readWhole? hwhole
    have := length_of_readFraction? hfraction
    have := length_of_readExponent? hexponent
    obtain ⟨_, -, heq⟩ := Option.map_eq_some_iff.mp h
    obtain ⟨-, rfl⟩ := Prod.mk.inj heq
    omega
  unfold readNumber? at h
  split at h
  · have := hmag h
    simp only [List.length_cons]
    omega
  · exact hmag h

end QueryFilter.Document
