import Mathlib
import QueryFilter.Number.Decimal
import QueryFilter.Proofs.Number.Rounding

/-!
# Numbers read back from their text

The text of an integer reads as that integer (`readInt64?_integerText`), and the text of a finite
double reads as that double (`readFloat?_floatText`) and not as an integer.  Whatever text is read
as a double, the double is finite (`isFinite_of_readFloat?`), and the text has only characters that
occur in numbers (`isNumberChar_of_readFloat?`).

## Strategy

What is read from the text of the decimal `c * 10 ^ k` need not have the digits `c`, since zeros are
filled in around them, but it has the same value (`Decimal.Denotes`).  Its nearest word depends on
the value only, and the shortest decimal of a word was chosen to round to the word.
-/

namespace QueryFilter.Number

/-! ## Integers -/

theorem isDigit_of_mem_naturalText {n : Nat} {c : Char} (hc : c ∈ naturalText n) : c.isDigit :=
  Nat.isDigit_of_mem_toDigits (by decide) (by decide) hc

theorem naturalText_ne_nil (n : Nat) : naturalText n ≠ [] := Nat.toDigits_ne_nil

theorem readDigits?_naturalText (n : Nat) : readDigits? (naturalText n) = some n := by
  have hdigits : (naturalText n).all Char.isDigit :=
    List.all_eq_true.mpr fun _ hc => isDigit_of_mem_naturalText hc
  rw [readDigits?, if_pos ⟨naturalText_ne_nil n, hdigits⟩]
  exact congrArg some Nat.ofDigitChars_ten_toDigits

/-- What starts with a digit has no sign. -/
theorem readInteger?_of_isDigit {first : Char} (hfirst : first.isDigit) (rest : List Char) :
    readInteger? (first :: rest) = (readDigits? (first :: rest)).map Int.ofNat := by
  unfold readInteger?
  split
  next heq =>
    cases heq
    exact absurd hfirst (by decide)
  next =>
    unfold readNatural?
    split
    next heq =>
      cases heq
      exact absurd hfirst (by decide)
    next => cases readDigits? (first :: rest) <;> rfl

theorem readInteger?_integerText (n : Int) : readInteger? (integerText n) = some n := by
  have hread := readDigits?_naturalText n.natAbs
  unfold integerText
  split
  next hneg =>
    rw [readInteger?, hread]
    exact congrArg some (show -(n.natAbs : Int) = n by omega)
  next hnonneg =>
    obtain ⟨first, rest, htext⟩ := List.exists_cons_of_ne_nil (naturalText_ne_nil n.natAbs)
    have hfirst : first.isDigit := isDigit_of_mem_naturalText (htext ▸ List.mem_cons_self)
    rw [htext] at hread ⊢
    rw [readInteger?_of_isDigit hfirst, hread]
    exact congrArg some (show (n.natAbs : Int) = n by omega)

/-- An integer reads back. -/
theorem readInt64?_integerText (n : Int64) : readInt64? (integerText n.toInt) = some n := by
  rw [readInt64?, readInteger?_integerText, Option.bind_some,
    if_pos ⟨n.le_toInt, Int.le_of_lt_add_one n.toInt_lt⟩, Int64.ofInt_toInt]

/-! ## The value of a decimal -/

/-- A decimal has the value `c * 10 ^ k`. -/
def Decimal.Denotes (d : Decimal) (c : Nat) (k : Int) : Prop :=
  d.digits * 10 ^ d.exponent.toNat * 10 ^ (-k).toNat =
    c * 10 ^ k.toNat * 10 ^ (-d.exponent).toNat

/-- A decimal with the value of a point that stands for a word has the word as its nearest. -/
theorem Decimal.word_eq_of_denotes {d : Decimal} {w c : Nat} {k : Int} (hw : 0 < w)
    (hpoint : gridPoint? w k = some c) (hvalue : d.Denotes c k) (hlow : -330 - d.width ≤ d.exponent)
    (hhigh : d.exponent ≤ 310) : d.word = w := by
  have hten : ∀ n : Nat, 0 < 10 ^ n := fun n => Nat.pow_pos (by decide)
  have hdigits : d.digits ≠ 0 := by
    intro hzero
    have hc := pos_of_gridPoint? hw hpoint
    rw [Denotes, hzero, Nat.zero_mul, Nat.zero_mul] at hvalue
    exact absurd hvalue (Nat.ne_of_lt (Nat.mul_pos (Nat.mul_pos hc (hten _)) (hten _)))
  rw [word, if_neg hdigits, if_neg (by omega), if_neg (by omega)]
  apply nearestWord_eq_of_roundsTo (hten _)
  rw [← roundsTo_of_gridPoint? hpoint]
  apply roundsTo_congr w (hten _) (hten _)
  unfold Denotes at hvalue
  generalize 4 * unitsPerOne = unit
  calc d.digits * 10 ^ d.exponent.toNat * unit * 10 ^ (-k).toNat
      = d.digits * 10 ^ d.exponent.toNat * 10 ^ (-k).toNat * unit := Nat.mul_right_comm _ _ _
    _ = c * 10 ^ k.toNat * 10 ^ (-d.exponent).toNat * unit := by rw [hvalue]
    _ = c * 10 ^ k.toNat * unit * 10 ^ (-d.exponent).toNat := Nat.mul_right_comm _ _ _
    _ = c * (unit * 10 ^ k.toNat) * 10 ^ (-d.exponent).toNat := by
      rw [Nat.mul_assoc c, Nat.mul_comm unit]

/-! ## Reading a decimal -/

/-- The digits at the start of a text end where a tail starts with none. -/
theorem takeWhile_isDigit_append {s tail : List Char} (hs : ∀ c ∈ s, c.isDigit)
    (htail : ∀ c, tail.head? = some c → c.isDigit = false) :
    (s ++ tail).takeWhile Char.isDigit = s ∧ (s ++ tail).dropWhile Char.isDigit = tail := by
  rw [List.takeWhile_append_of_pos hs, List.dropWhile_append_of_pos hs]
  cases tail with
  | nil => simp
  | cons c tail => simp [htail c rfl]

/-- Digits and a tail that does not go on with a digit or a point. -/
theorem readUnsigned?_whole {negative : Bool} {whole tail : List Char}
    (hwhole : ∀ c ∈ whole, c.isDigit) (hne : whole ≠ [])
    (htail : ∀ c, tail.head? = some c → c.isDigit = false ∧ c ≠ '.') :
    readUnsigned? negative (whole ++ tail) = (readExponent? tail).map fun e =>
      ⟨negative, Nat.ofDigitChars 10 whole 0, whole.length, e⟩ := by
  obtain ⟨htake, hdrop⟩ := takeWhile_isDigit_append hwhole fun c hc => (htail c hc).1
  unfold readUnsigned?
  simp only [htake, hdrop]
  split
  next t => exact absurd rfl (htail '.' rfl).2
  next => simp [hne]

/-- Digits, a point, digits and a tail that does not go on with a digit. -/
theorem readUnsigned?_point {negative : Bool} {whole fraction tail : List Char}
    (hwhole : ∀ c ∈ whole, c.isDigit) (hne : whole ≠ []) (hfraction : ∀ c ∈ fraction, c.isDigit)
    (htail : ∀ c, tail.head? = some c → c.isDigit = false) :
    readUnsigned? negative (whole ++ '.' :: (fraction ++ tail)) = (readExponent? tail).map fun e =>
      ⟨negative, Nat.ofDigitChars 10 (whole ++ fraction) 0, (whole ++ fraction).length,
        e - fraction.length⟩ := by
  have hpoint : ∀ c, ('.' :: (fraction ++ tail)).head? = some c → c.isDigit = false := by
    intro c hc
    cases hc
    rfl
  obtain ⟨htake, hdrop⟩ := takeWhile_isDigit_append hwhole hpoint
  obtain ⟨htake', hdrop'⟩ := takeWhile_isDigit_append hfraction htail
  unfold readUnsigned?
  simp only [htake, hdrop, htake', hdrop']
  simp [hne]

/-! ## Texts of decimals -/

/-- A text spells the decimal `c * 10 ^ k`, and its exponent does not settle the nearest word. -/
def Spells (s : List Char) (c : Nat) (k : Int) : Prop :=
  ∀ negative, ∃ d, readUnsigned? negative s = some d ∧ d.negative = negative ∧ d.Denotes c k ∧
    -330 - d.width ≤ d.exponent ∧ d.exponent ≤ 310

theorem ofDigitChars_zeros_append (n : Nat) (ds : List Char) :
    Nat.ofDigitChars 10 (List.replicate n '0' ++ ds) 0 = Nat.ofDigitChars 10 ds 0 := by
  rw [Nat.ofDigitChars_append, Nat.ofDigitChars_replicate_zero, Nat.mul_zero]

theorem ofDigitChars_append_zeros (n : Nat) (ds : List Char) :
    Nat.ofDigitChars 10 (ds ++ List.replicate n '0') 0 = Nat.ofDigitChars 10 ds 0 * 10 ^ n := by
  rw [Nat.ofDigitChars_append, Nat.ofDigitChars_replicate_zero, Nat.mul_comm]

/-- Digits with a point between them spell their value, scaled down by the digits behind the
point. -/
theorem spells_point {whole fraction : List Char} {c : Nat} {k : Int}
    (hwhole : ∀ c ∈ whole, c.isDigit) (hne : whole ≠ []) (hfraction : ∀ c ∈ fraction, c.isDigit)
    (hvalue : Nat.ofDigitChars 10 (whole ++ fraction) 0 * 10 ^ (-k).toNat =
      c * 10 ^ k.toNat * 10 ^ fraction.length) :
    Spells (whole ++ '.' :: fraction) c k := by
  intro negative
  have hread := @readUnsigned?_point negative whole fraction [] hwhole hne hfraction nofun
  rw [List.append_nil, readExponent?, Option.map_some] at hread
  refine ⟨_, hread, rfl, ?_, ?_, ?_⟩
  · unfold Decimal.Denotes
    dsimp only
    rw [show (0 - (fraction.length : Int)).toNat = 0 by omega,
      show (-(0 - (fraction.length : Int))).toNat = fraction.length by omega, Nat.pow_zero,
      Nat.mul_one, hvalue]
  · simp only [List.length_append]
    omega
  · dsimp only
    omega

/-! ### Positional texts -/

theorem isDigit_of_mem_zeros {n : Nat} {c : Char} (hc : c ∈ List.replicate n '0') : c.isDigit := by
  rw [List.eq_of_mem_replicate hc]
  rfl

/-- The point stands in front of all digits, and zeros behind it. -/
theorem positional_of_le_zero {ds : List Char} (hne : ds ≠ []) {point : Int} (hpoint : point ≤ 0) :
    positional ds point = ['0'] ++ '.' :: (List.replicate (-point).toNat '0' ++ ds) := by
  have hzero : point.toNat = 0 := by omega
  simp [positional, hzero, hne]

/-- The point stands between digits. -/
theorem positional_of_lt_length {ds : List Char} {point : Nat} (hpos : 0 < point)
    (hpoint : point < ds.length) : positional ds point = ds.take point ++ '.' :: ds.drop point := by
  have htake : ds.take point ≠ [] := by
    rw [← List.length_pos_iff, List.length_take]
    omega
  have hdrop : ds.drop point ≠ [] := by
    rw [← List.length_pos_iff, List.length_drop]
    omega
  simp [positional, htake, hdrop, Nat.sub_eq_zero_of_le (Nat.le_of_lt hpoint)]

/-- The point stands behind all digits, and zeros in front of it. -/
theorem positional_of_length_le {ds : List Char} (hne : ds ≠ []) {point : Nat}
    (hpoint : ds.length ≤ point) :
    positional ds point = ds ++ List.replicate (point - ds.length) '0' ++ '.' :: ['0'] := by
  have htake : ds.take point = ds := List.take_of_length_le hpoint
  have hdrop : ds.drop point = [] := List.drop_of_length_le hpoint
  simp [positional, htake, hdrop, hne]

/-- A positional text is digits with a point between them, and these digits have the value of the
digits from which it was made. -/
theorem exists_positional_eq {ds : List Char} (hds : ∀ c ∈ ds, c.isDigit) (hne : ds ≠ [])
    (point : Int) : ∃ whole fraction, positional ds point = whole ++ '.' :: fraction ∧
      whole ≠ [] ∧ (∀ c ∈ whole, c.isDigit) ∧ (∀ c ∈ fraction, c.isDigit) ∧
      Nat.ofDigitChars 10 (whole ++ fraction) 0 * 10 ^ (-(point - ds.length)).toNat =
        Nat.ofDigitChars 10 ds 0 * 10 ^ (point - ds.length).toNat * 10 ^ fraction.length := by
  by_cases hpoint : point ≤ 0
  · refine ⟨_, _, positional_of_le_zero hne hpoint, List.cons_ne_nil _ _, ?_, ?_, ?_⟩
    · intro c hc
      exact isDigit_of_mem_zeros (n := 1) hc
    · intro c hc
      exact (List.mem_append.mp hc).elim isDigit_of_mem_zeros (hds c)
    · rw [← List.append_assoc, List.singleton_append, ← List.replicate_succ,
        ofDigitChars_zeros_append, List.length_append, List.length_replicate,
        show (point - (ds.length : Int)).toNat = 0 by omega, Nat.pow_zero, Nat.mul_one,
        show (-(point - (ds.length : Int))).toNat = (-point).toNat + ds.length by omega]
  · obtain ⟨n, rfl⟩ := Int.eq_ofNat_of_zero_le (Int.le_of_lt (Int.not_le.mp hpoint))
    rcases Nat.lt_or_ge n ds.length with hn | hn
    · refine ⟨_, _, positional_of_lt_length (by omega) hn, ?_, ?_, ?_, ?_⟩
      · rw [← List.length_pos_iff, List.length_take]
        omega
      · intro c hc
        exact hds c (List.mem_of_mem_take hc)
      · intro c hc
        exact hds c (List.mem_of_mem_drop hc)
      · rw [List.take_append_drop, List.length_drop,
          show ((n : Int) - (ds.length : Int)).toNat = 0 by omega, Nat.pow_zero, Nat.mul_one,
          show (-((n : Int) - (ds.length : Int))).toNat = ds.length - n by omega]
    · refine ⟨_, _, positional_of_length_le hne hn, List.append_ne_nil_of_left_ne_nil hne _,
        ?_, ?_, ?_⟩
      · intro c hc
        exact (List.mem_append.mp hc).elim (hds c) isDigit_of_mem_zeros
      · intro c hc
        exact isDigit_of_mem_zeros (n := 1) hc
      · rw [List.append_assoc, show ['0'] = List.replicate 1 '0' from rfl,
          List.replicate_append_replicate, ofDigitChars_append_zeros, List.length_replicate,
          show (-((n : Int) - (ds.length : Int))).toNat = 0 by omega, Nat.pow_zero, Nat.mul_one,
          show ((n : Int) - (ds.length : Int)).toNat = n - ds.length by omega, Nat.pow_add,
          Nat.mul_assoc]

theorem spells_positional {ds : List Char} (hds : ∀ c ∈ ds, c.isDigit) (hne : ds ≠ [])
    (point : Int) :
    Spells (positional ds point) (Nat.ofDigitChars 10 ds 0) (point - ds.length) := by
  obtain ⟨whole, fraction, htext, hwhole, hdigits, hfraction, hvalue⟩ :=
    exists_positional_eq hds hne point
  rw [htext]
  exact spells_point hdigits hwhole hfraction hvalue

/-! ### Texts with an exponent -/

theorem readExponent?_integerText (n : Int) : readExponent? ('e' :: integerText n) = some n := by
  rw [readExponent?, if_pos (.inl rfl), readInteger?_integerText]

theorem scientific_cons (first : Char) (fraction : List Char) (point : Int) :
    scientific (first :: fraction) point =
      if fraction = [] then [first] ++ 'e' :: integerText (point - 1)
      else [first] ++ '.' :: (fraction ++ 'e' :: integerText (point - 1)) := by
  unfold scientific
  dsimp only [List.take_succ_cons, List.take_zero]
  rw [List.drop_one, List.tail_cons]
  split
  · rw [List.append_nil]
  · rw [List.append_assoc]
    rfl

theorem spells_scientific {ds : List Char} (hds : ∀ c ∈ ds, c.isDigit) (hne : ds ≠ []) {k : Int}
    (hlow : -324 ≤ k) (hhigh : k ≤ 308) :
    Spells (scientific ds (ds.length + k)) (Nat.ofDigitChars 10 ds 0) k := by
  obtain ⟨first, fraction, rfl⟩ := List.exists_cons_of_ne_nil hne
  have hfirst : ∀ c ∈ [first], c.isDigit :=
    fun c hc => hds c (List.mem_singleton.mp hc ▸ List.mem_cons_self)
  have hfraction : ∀ c ∈ fraction, c.isDigit := fun c hc => hds c (List.mem_cons_of_mem _ hc)
  have htail : ∀ c, ('e' :: integerText ((first :: fraction).length + k - 1)).head? = some c →
      c.isDigit = false ∧ c ≠ '.' := by
    intro c hc
    cases hc
    decide
  intro negative
  have hread :
      readUnsigned? negative (scientific (first :: fraction) ((first :: fraction).length + k)) =
        some ⟨negative, Nat.ofDigitChars 10 (first :: fraction) 0, (first :: fraction).length,
          k⟩ := by
    rw [scientific_cons]
    split
    next hnone =>
      subst hnone
      rw [readUnsigned?_whole hfirst (List.cons_ne_nil _ _) htail, readExponent?_integerText,
        Option.map_some, List.length_singleton]
      congr 2
      omega
    next hsome =>
      rw [readUnsigned?_point hfirst (List.cons_ne_nil _ _) hfraction fun c hc => (htail c hc).1,
        readExponent?_integerText, Option.map_some, List.length_cons]
      congr 2
      omega
  refine ⟨_, hread, rfl, rfl, ?_, ?_⟩
  · dsimp only
    omega
  · dsimp only
    omega

theorem spells_decimalText (c : Nat) {k : Int} (hlow : -324 ≤ k) (hhigh : k ≤ 308) :
    Spells (decimalText c k) c k := by
  have hds : ∀ d ∈ naturalText c, d.isDigit := fun _ hd => isDigit_of_mem_naturalText hd
  have hvalue : Nat.ofDigitChars 10 (naturalText c) 0 = c := Nat.ofDigitChars_ten_toDigits
  unfold decimalText
  dsimp only
  split
  · have hspells := spells_positional hds (naturalText_ne_nil c) ((naturalText c).length + k)
    rwa [hvalue, show ((naturalText c).length + k - (naturalText c).length : Int) = k by omega]
      at hspells
  · have hspells := spells_scientific hds (naturalText_ne_nil c) hlow hhigh
    rwa [hvalue] at hspells

/-! ## Texts of doubles -/

/-- A double is given by its sign and its word. -/
theorem ofWord_word (x : Float) : ofWord (isNegative x) (word x) = x := by
  have hbits : x.toBits.toNat < 2 ^ 64 := x.toBits.toNat_lt
  have hnat : word x + (if isNegative x then signBit else 0) = x.toBits.toNat := by
    unfold word isNegative signBit
    simp only [decide_eq_true_eq]
    split <;> omega
  rw [ofWord, hnat, UInt64.ofNat_toNat, Float.ofBits_toBits]

/-- The bits of a double come back if they are neither those of an infinity nor those of NaN. -/
theorem toBits_ofBits {bits : UInt64} (hexponent : bits.toNat / leadingBit % 2048 ≠ 2047) :
    (Float.ofBits bits).toBits = bits := by
  have hnan : @Float.Model.UnpackedFloat.isNaNBits .binary64 bits.toBitVec = false := by
    rw [Float.Model.UnpackedFloat.isNaNBits, decide_eq_false_iff_not]
    rintro ⟨hones, -⟩
    apply hexponent
    have hnat := congrArg BitVec.toNat hones
    rw [Float.Model.UnpackedFloat.unpackExponent_def, BitVec.extractLsb'_toNat,
      Nat.shiftRight_eq_div_pow] at hnat
    exact hnat
  have hpack := @Float.Model.UnpackedFloat.pack_unpack .binary64 bits.toBitVec (by decide)
  rw [hnan, if_neg Bool.false_ne_true] at hpack
  exact UInt64.toBitVec_inj.mp hpack

/-- The word of a finite double comes back, whatever its sign is. -/
theorem word_ofWord {w : Nat} (hw : w < infinityWord) (negative : Bool) :
    word (ofWord negative w) = w := by
  unfold infinityWord leadingBit at hw
  have hbits : (UInt64.ofNat (w + if negative then signBit else 0)).toNat =
      w + if negative then signBit else 0 := by
    apply UInt64.toNat_ofNat_of_lt'
    unfold signBit UInt64.size
    split <;> omega
  rw [word, ofWord, toBits_ofBits, hbits]
  · unfold signBit
    split <;> omega
  · rw [hbits]
    unfold leadingBit signBit
    split <;> omega

/-- What is read as a double is finite. -/
theorem isFinite_of_readFloat? {s : List Char} {x : Float} (h : readFloat? s = some x) :
    isFinite x := by
  obtain ⟨d, -, hd⟩ := Option.bind_eq_some_iff.mp h
  unfold Decimal.toFloat? at hd
  split at hd
  next hfinite =>
    cases hd
    rw [isFinite, word_ofWord hfinite]
    exact decide_eq_true hfinite
  next => cases hd

/-- What a double is read from if it is neither zero nor an infinity nor NaN. -/
theorem toFloat?_of_spells {s : List Char} {w c : Nat} {k : Int} (hspells : Spells s c k)
    (hw : 0 < w) (hfinite : w < infinityWord) (hpoint : gridPoint? w k = some c) (negative : Bool) :
    (readUnsigned? negative s).bind Decimal.toFloat? = some (ofWord negative w) := by
  obtain ⟨d, hread, hsign, hvalue, hlow, hhigh⟩ := hspells negative
  have hword := Decimal.word_eq_of_denotes hw hpoint hvalue hlow hhigh
  rw [hread, Option.bind_some, Decimal.toFloat?, hword, if_pos hfinite, hsign]

/-- The text of the absolute value of a finite double. -/
def magnitudeText (w : Nat) : List Char :=
  if w = 0 then "0.0".toList else decimalText (shortest w).1 (shortest w).2

theorem floatText_eq {x : Float} (hfinite : isFinite x) :
    floatText x =
      if isNegative x then '-' :: magnitudeText (word x) else magnitudeText (word x) := by
  have hlt : word x < infinityWord := of_decide_eq_true hfinite
  unfold floatText
  dsimp only
  rw [if_neg (Nat.not_lt_of_le (Nat.le_of_lt hlt)), if_neg (Nat.ne_of_lt hlt)]
  rfl

theorem toFloat?_magnitudeText {w : Nat} (hfinite : w < infinityWord) (negative : Bool) :
    (readUnsigned? negative (magnitudeText w)).bind Decimal.toFloat? =
      some (ofWord negative w) := by
  unfold magnitudeText
  split
  next hzero =>
    subst hzero
    rfl
  next hne =>
    obtain ⟨c, k, hshortest, hpoint, hlow, hhigh⟩ := shortest_eq w
    rw [hshortest]
    exact toFloat?_of_spells (spells_decimalText c hlow hhigh) (Nat.pos_of_ne_zero hne) hfinite
      hpoint negative

/-! ### The characters of a text -/

/-- Whether a character occurs in the text of a decimal. -/
def isDecimalChar (c : Char) : Bool := c.isDigit || c == '-' || c == '.' || c == 'e'

theorem isDecimalChar_of_isDigit {c : Char} (hc : c.isDigit) : isDecimalChar c := by
  rw [isDecimalChar, hc]
  rfl

/-- A text starts with a digit and goes on with characters of decimals, of which one is not a
digit. -/
def IsFraction (s : List Char) : Prop :=
  ∃ first rest, s = first :: rest ∧ first.isDigit ∧ (∀ c ∈ rest, isDecimalChar c) ∧
    ¬ rest.all Char.isDigit

theorem isFraction_append {whole rest : List Char} {mark : Char} (hne : whole ≠ [])
    (hwhole : ∀ c ∈ whole, c.isDigit) (hmark : mark = '.' ∨ mark = 'e')
    (hrest : ∀ c ∈ rest, isDecimalChar c) : IsFraction (whole ++ mark :: rest) := by
  obtain ⟨first, others, rfl⟩ := List.exists_cons_of_ne_nil hne
  refine ⟨first, others ++ mark :: rest, rfl, hwhole _ List.mem_cons_self, fun c hc => ?_, ?_⟩
  · rcases List.mem_append.mp hc with hc | hc
    · exact isDecimalChar_of_isDigit (hwhole c (List.mem_cons_of_mem _ hc))
    · rcases List.mem_cons.mp hc with rfl | hc
      · rcases hmark with rfl | rfl <;> rfl
      · exact hrest c hc
  · intro hall
    have hdigit := List.all_eq_true.mp hall mark
      (List.mem_append_right _ List.mem_cons_self)
    rcases hmark with rfl | rfl <;> exact absurd hdigit (by decide)

theorem isFraction_positional {ds : List Char} (hds : ∀ c ∈ ds, c.isDigit) (hne : ds ≠ [])
    (point : Int) : IsFraction (positional ds point) := by
  obtain ⟨whole, fraction, htext, hwhole, hdigits, hfraction, -⟩ :=
    exists_positional_eq hds hne point
  rw [htext]
  refine isFraction_append hwhole hdigits (.inl rfl) ?_
  intro c hc
  exact isDecimalChar_of_isDigit (hfraction c hc)

theorem isDecimalChar_of_mem_integerText {n : Int} {c : Char} (hc : c ∈ integerText n) :
    isDecimalChar c := by
  unfold integerText at hc
  split at hc
  · rcases List.mem_cons.mp hc with rfl | hc
    · rfl
    · exact isDecimalChar_of_isDigit (isDigit_of_mem_naturalText hc)
  · exact isDecimalChar_of_isDigit (isDigit_of_mem_naturalText hc)

theorem isFraction_scientific {ds : List Char} (hds : ∀ c ∈ ds, c.isDigit) (hne : ds ≠ [])
    (point : Int) : IsFraction (scientific ds point) := by
  obtain ⟨first, fraction, rfl⟩ := List.exists_cons_of_ne_nil hne
  have hfirst : ∀ c ∈ [first], c.isDigit :=
    fun c hc => hds c (List.mem_singleton.mp hc ▸ List.mem_cons_self)
  have hexponent : ∀ c ∈ integerText (point - 1), isDecimalChar c :=
    fun c hc => isDecimalChar_of_mem_integerText hc
  rw [scientific_cons]
  split
  · exact isFraction_append (List.cons_ne_nil _ _) hfirst (.inr rfl) hexponent
  · refine isFraction_append (List.cons_ne_nil _ _) hfirst (.inl rfl) ?_
    intro c hc
    rcases List.mem_append.mp hc with hc | hc
    · exact isDecimalChar_of_isDigit (hds c (List.mem_cons_of_mem _ hc))
    · rcases List.mem_cons.mp hc with rfl | hc
      · rfl
      · exact hexponent c hc

theorem isFraction_magnitudeText (w : Nat) : IsFraction (magnitudeText w) := by
  have hds : ∀ d ∈ naturalText (shortest w).1, d.isDigit :=
    fun _ hd => isDigit_of_mem_naturalText hd
  unfold magnitudeText
  split
  · exact ⟨'0', ['.', '0'], rfl, rfl, List.all_eq_true.mp rfl, Bool.false_ne_true⟩
  · unfold decimalText
    dsimp only
    split
    · exact isFraction_positional hds (naturalText_ne_nil _) _
    · exact isFraction_scientific hds (naturalText_ne_nil _) _

theorem readDecimal?_of_isDigit {first : Char} (hfirst : first.isDigit) (rest : List Char) :
    readDecimal? (first :: rest) = readUnsigned? false (first :: rest) := by
  unfold readDecimal?
  split
  next heq =>
    cases heq
    exact absurd hfirst (by decide)
  next heq =>
    cases heq
    exact absurd hfirst (by decide)
  next => rfl

/-- A finite double reads back. -/
theorem readFloat?_floatText {x : Float} (hfinite : isFinite x) :
    readFloat? (floatText x) = some x := by
  have hlt : word x < infinityWord := of_decide_eq_true hfinite
  have hread : readDecimal? (floatText x) =
      readUnsigned? (isNegative x) (magnitudeText (word x)) := by
    rw [floatText_eq hfinite]
    cases isNegative x with
    | true => rfl
    | false =>
        obtain ⟨first, rest, htext, hfirst, -⟩ := isFraction_magnitudeText (word x)
        rw [htext]
        exact readDecimal?_of_isDigit hfirst rest
  rw [readFloat?, hread, toFloat?_magnitudeText hlt, ofWord_word]

theorem readDigits?_of_isFraction {s : List Char} (hs : IsFraction s) : readDigits? s = none := by
  obtain ⟨first, rest, rfl, -, -, hrest⟩ := hs
  rw [readDigits?, if_neg]
  rintro ⟨-, hall⟩
  rw [List.all_cons, Bool.and_eq_true] at hall
  exact hrest hall.2

/-- The text of a double is not one of an integer. -/
theorem readInt64?_floatText {x : Float} (hfinite : isFinite x) :
    readInt64? (floatText x) = none := by
  have hmagnitude := isFraction_magnitudeText (word x)
  have hnone := readDigits?_of_isFraction hmagnitude
  have hread : readInteger? (floatText x) = none := by
    rw [floatText_eq hfinite]
    cases isNegative x with
    | true =>
        rw [if_pos rfl, readInteger?, hnone]
        rfl
    | false =>
        obtain ⟨first, rest, htext, hfirst, -⟩ := hmagnitude
        rw [if_neg Bool.false_ne_true, htext, readInteger?_of_isDigit hfirst, ← htext, hnone]
        rfl
  rw [readInt64?, hread, Option.bind_none]

/-! ### Numerals -/

/-- A text is a digit with a minus sign in front of it or without, and goes on with characters of
decimals. -/
def IsNumeral (s : List Char) : Prop :=
  ∃ sign first rest, s = sign ++ first :: rest ∧ (sign = [] ∨ sign = ['-']) ∧ first.isDigit ∧
    ∀ c ∈ rest, isDecimalChar c

theorem IsNumeral.ne_nil {s : List Char} (hs : IsNumeral s) : s ≠ [] := by
  obtain ⟨sign, first, rest, rfl, -⟩ := hs
  exact List.append_ne_nil_of_right_ne_nil _ (List.cons_ne_nil _ _)

theorem isNumeral_integerText (n : Int) : IsNumeral (integerText n) := by
  obtain ⟨first, rest, htext⟩ := List.exists_cons_of_ne_nil (naturalText_ne_nil n.natAbs)
  have hdigits : ∀ c ∈ first :: rest, c.isDigit :=
    fun c hc => isDigit_of_mem_naturalText (htext ▸ hc)
  have hrest : ∀ c ∈ rest, isDecimalChar c :=
    fun c hc => isDecimalChar_of_isDigit (hdigits c (List.mem_cons_of_mem _ hc))
  unfold integerText
  rw [htext]
  split
  · exact ⟨['-'], first, rest, rfl, .inr rfl, hdigits _ List.mem_cons_self, hrest⟩
  · exact ⟨[], first, rest, rfl, .inl rfl, hdigits _ List.mem_cons_self, hrest⟩

theorem isNumeral_floatText {x : Float} (hfinite : isFinite x) : IsNumeral (floatText x) := by
  obtain ⟨first, rest, htext, hfirst, hrest, -⟩ := isFraction_magnitudeText (word x)
  rw [floatText_eq hfinite, htext]
  split
  · exact ⟨['-'], first, rest, rfl, .inr rfl, hfirst, hrest⟩
  · exact ⟨[], first, rest, rfl, .inl rfl, hfirst, hrest⟩

/-! ## What reads as a number -/

/-- Whether a character occurs in texts that are read as numbers. -/
def isNumberChar (c : Char) : Bool := c.isDigit || ['-', '+', '.', 'e', 'E'].contains c

theorem isNumberChar_of_isDigit {c : Char} (hc : c.isDigit) : isNumberChar c := by
  rw [isNumberChar, hc]
  rfl

theorem forall_isNumberChar_cons {c : Char} {s : List Char} (hc : isNumberChar c)
    (hs : ∀ d ∈ s, isNumberChar d) : ∀ d ∈ c :: s, isNumberChar d :=
  List.forall_mem_cons.mpr ⟨hc, hs⟩

theorem isNumberChar_of_readDigits? {s : List Char} {n : Nat} (h : readDigits? s = some n) :
    ∀ c ∈ s, isNumberChar c := by
  unfold readDigits? at h
  split at h
  next hdigits =>
    intro c hc
    exact isNumberChar_of_isDigit (List.all_eq_true.mp hdigits.2 c hc)
  next => cases h

theorem isNumberChar_of_readInteger? {s : List Char} {n : Int} (h : readInteger? s = some n) :
    ∀ c ∈ s, isNumberChar c := by
  unfold readInteger? at h
  split at h
  · obtain ⟨m, hm, -⟩ := Option.map_eq_some_iff.mp h
    obtain ⟨k, hk, -⟩ := Option.bind_eq_some_iff.mp hm
    exact forall_isNumberChar_cons rfl (isNumberChar_of_readDigits? hk)
  · obtain ⟨m, hm, -⟩ := Option.map_eq_some_iff.mp h
    obtain ⟨k, hk, -⟩ := Option.bind_eq_some_iff.mp hm
    unfold readNatural? at hk
    split at hk
    · exact forall_isNumberChar_cons rfl (isNumberChar_of_readDigits? hk)
    · exact isNumberChar_of_readDigits? hk

theorem isNumberChar_of_readExponent? {s : List Char} {n : Int} (h : readExponent? s = some n) :
    ∀ c ∈ s, isNumberChar c := by
  unfold readExponent? at h
  split at h
  · exact nofun
  · split at h
    next hmark =>
      refine forall_isNumberChar_cons ?_ (isNumberChar_of_readInteger? h)
      rcases hmark with rfl | rfl <;> rfl
    next => cases h

theorem isNumberChar_of_readUnsigned? {negative : Bool} {s : List Char} {d : Decimal}
    (h : readUnsigned? negative s = some d) : ∀ c ∈ s, isNumberChar c := by
  -- digits in front of something that has been taken care of
  have hdigits : ∀ {s : List Char}, (∀ c ∈ s.dropWhile Char.isDigit, isNumberChar c) →
      ∀ c ∈ s, isNumberChar c := by
    intro s htail c hc
    rw [← List.takeWhile_append_dropWhile (p := Char.isDigit) (l := s)] at hc
    rcases List.mem_append.mp hc with hc | hc
    · exact isNumberChar_of_isDigit (List.mem_takeWhile_imp hc)
    · exact htail c hc
  apply hdigits
  unfold readUnsigned? at h
  dsimp only at h
  split at h
  next t hpoint =>
    split at h
    · cases h
    obtain ⟨e, he, -⟩ := Option.map_eq_some_iff.mp h
    rw [hpoint]
    exact forall_isNumberChar_cons rfl (hdigits (isNumberChar_of_readExponent? he))
  next =>
    split at h
    · cases h
    obtain ⟨e, he, -⟩ := Option.map_eq_some_iff.mp h
    exact isNumberChar_of_readExponent? he

/-- What is read as a double has only such characters. -/
theorem isNumberChar_of_readFloat? {s : List Char} {x : Float} (h : readFloat? s = some x) :
    ∀ c ∈ s, isNumberChar c := by
  obtain ⟨d, hd, -⟩ := Option.bind_eq_some_iff.mp h
  unfold readDecimal? at hd
  split at hd
  · exact forall_isNumberChar_cons rfl (isNumberChar_of_readUnsigned? hd)
  · exact forall_isNumberChar_cons rfl (isNumberChar_of_readUnsigned? hd)
  · exact isNumberChar_of_readUnsigned? hd
end QueryFilter.Number
