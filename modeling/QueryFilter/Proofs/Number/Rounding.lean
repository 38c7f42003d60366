import Mathlib.Algebra.Group.Nat.Defs
import QueryFilter.Number.Shortest

/-!
# Rounding to a double and back

The interval of a word holds exactly what rounds to it: a fraction in the interval has the word as
its nearest word (`nearestWord_eq_of_roundsTo`).  The shortest decimal of a word lies in its
interval (`shortest_eq`), and so it rounds to the word from which it was made.

## Strategy

`Near` collects what the interval says about a fraction, in terms of the spacing `2 ^ scale w` of
the doubles around the word.  Where the fraction lies in the same power of two as the word, rounding
it is rounding to a multiple of this spacing.  It can lie in the power of two below only if the word
is the first of its own, and is then so close to it that rounding goes up to it.
-/

namespace QueryFilter.Number

/-! ## Words -/

theorem leadingBit_eq : leadingBit = 2 ^ 52 := rfl

theorem word_eq (w : Nat) : scale w * leadingBit + significand w = w := by
  unfold scale significand leadingBit
  split <;> omega

theorem significand_lt (w : Nat) : significand w < 2 * leadingBit := by
  unfold significand leadingBit
  split <;> omega

theorem le_significand {w : Nat} (hscale : 0 < scale w) : leadingBit ≤ significand w := by
  unfold scale leadingBit at hscale
  unfold significand leadingBit
  split <;> omega

theorem significand_pos {w : Nat} (hw : 0 < w) : 0 < significand w := by
  unfold significand leadingBit
  split <;> omega

/-! ## The interval of a word -/

/-- A number of units over `den` lies in the interval of a word. -/
structure Near (w units den : Nat) : Prop where
  low : 4 * (significand w * (2 ^ scale w * den)) ≤ 4 * units + 2 * (2 ^ scale w * den)
  high : 4 * units ≤ 4 * (significand w * (2 ^ scale w * den)) + 2 * (2 ^ scale w * den)
  odd : significand w % 2 = 1 →
    4 * (significand w * (2 ^ scale w * den)) < 4 * units + 2 * (2 ^ scale w * den) ∧
      4 * units < 4 * (significand w * (2 ^ scale w * den)) + 2 * (2 ^ scale w * den)
  first : significand w = leadingBit → 0 < scale w →
    4 * (significand w * (2 ^ scale w * den)) ≤ 4 * units + 2 ^ scale w * den

theorem quarters_eq (w : Nat) : quarters w = 4 * significand w * 2 ^ scale w := rfl

theorem upperEnd_eq (w : Nat) : upperEnd w = quarters w + 2 * 2 ^ scale w := rfl

theorem lowerEnd_eq (w : Nat) : lowerEnd w =
    if significand w = leadingBit ∧ 0 < scale w then quarters w - 2 ^ scale w
    else quarters w - 2 * 2 ^ scale w := rfl

theorem quarters_mul (w den : Nat) :
    quarters w * den = 4 * (significand w * (2 ^ scale w * den)) := by
  rw [quarters_eq, Nat.mul_assoc, Nat.mul_assoc]

theorem upperEnd_mul (w den : Nat) :
    upperEnd w * den = 4 * (significand w * (2 ^ scale w * den)) + 2 * (2 ^ scale w * den) := by
  rw [upperEnd_eq, Nat.add_mul, quarters_mul, Nat.mul_assoc]

theorem quarters_mul_le (w den : Nat) :
    4 * (significand w * (2 ^ scale w * den)) ≤ lowerEnd w * den + 2 * (2 ^ scale w * den) := by
  rw [← quarters_mul, ← Nat.mul_assoc 2, ← Nat.add_mul]
  apply Nat.mul_le_mul_right
  rw [lowerEnd_eq]
  split <;> omega

theorem quarters_mul_le_of_first {w : Nat} (hsignificand : significand w = leadingBit)
    (hscale : 0 < scale w) (den : Nat) :
    4 * (significand w * (2 ^ scale w * den)) ≤ lowerEnd w * den + 2 ^ scale w * den := by
  rw [← quarters_mul, ← Nat.add_mul]
  apply Nat.mul_le_mul_right
  rw [lowerEnd_eq, if_pos ⟨hsignificand, hscale⟩]
  omega

theorem near_of_roundsTo {w units den : Nat} (hround : roundsTo w (4 * units) den) :
    Near w units den := by
  have hparity : w % 2 = significand w % 2 := by
    have := word_eq w
    unfold leadingBit at this
    omega
  have hlow := quarters_mul_le w den
  have hupper := upperEnd_mul w den
  unfold roundsTo at hround
  rw [hparity] at hround
  split at hround
  next heven =>
    simp only [Bool.and_eq_true, decide_eq_true_eq] at hround
    refine ⟨by omega, by omega, fun hodd => absurd hodd (by omega), fun hsig hscale => ?_⟩
    have := quarters_mul_le_of_first hsig hscale den
    omega
  next hodd =>
    simp only [Bool.and_eq_true, decide_eq_true_eq] at hround
    refine ⟨by omega, by omega, fun _ => ⟨by omega, by omega⟩, fun hsig => ?_⟩
    exact absurd hsig (fun heq => hodd (heq ▸ rfl))

/-- Whether a fraction rounds to a word depends on its value only. -/
theorem roundsTo_congr {num den num' den' : Nat} (w : Nat) (hden : 0 < den) (hden' : 0 < den')
    (hvalue : num * den' = num' * den) : roundsTo w num den = roundsTo w num' den' := by
  have hlow : ∀ a, a * den ≤ num ↔ a * den' ≤ num' := by
    intro a
    rw [← Nat.mul_le_mul_right_iff hden', hvalue, Nat.mul_right_comm,
      Nat.mul_le_mul_right_iff hden]
  have hhigh : ∀ a, num ≤ a * den ↔ num' ≤ a * den' := by
    intro a
    rw [← Nat.mul_le_mul_right_iff hden', hvalue, Nat.mul_right_comm,
      Nat.mul_le_mul_right_iff hden]
  simp only [roundsTo, ← Nat.not_le, hlow, hhigh]

/-! ## Rounding to a multiple -/

/-- The multiple of `step` nearest to a number, and the even one of two equally near. -/
def roundEven (n step : Nat) : Nat :=
  if step < 2 * (n % step) || (step == 2 * (n % step) && n / step % 2 == 1) then n / step + 1
  else n / step

theorem nearestWord_eq (num den : Nat) :
    let units := num * unitsPerOne
    let e := (units / den).log2 - 52
    nearestWord num den = e * leadingBit + roundEven units (den * 2 ^ e) := rfl

/-- A number within half a step of a multiple rounds to it, if ties only go to even multiples. -/
theorem roundEven_eq {n step m : Nat} (hlow : 2 * (m * step) ≤ 2 * n + step)
    (hhigh : 2 * n ≤ 2 * (m * step) + step)
    (hodd : m % 2 = 1 → 2 * (m * step) < 2 * n + step ∧ 2 * n < 2 * (m * step) + step)
    (hstep : 0 < step) : roundEven n step = m := by
  have hn := Nat.mod_add_div' n step
  have hr := Nat.mod_lt n hstep
  unfold roundEven
  generalize n / step = q at hn ⊢
  generalize n % step = r at hn hr ⊢
  -- the quotient is `m` or the number below it
  have hle : q ≤ m := by
    refine Nat.le_of_not_lt fun hlt => ?_
    have := Nat.mul_le_mul_right step (Nat.succ_le_of_lt hlt)
    rw [Nat.succ_mul] at this
    omega
  have hge : m ≤ q + 1 := by
    refine Nat.le_of_not_lt fun hlt => ?_
    have := Nat.mul_le_mul_right step (Nat.succ_le_of_lt hlt)
    rw [Nat.succ_mul, Nat.add_mul] at this
    omega
  rcases Nat.lt_or_eq_of_le hle with hlt | rfl
  · obtain rfl : m = q + 1 := Nat.le_antisymm hge hlt
    rw [Nat.add_mul] at hlow hodd
    rw [if_pos]
    simp only [Bool.or_eq_true, Bool.and_eq_true, decide_eq_true_eq, beq_iff_eq]
    omega
  · rw [if_neg]
    simp only [Bool.or_eq_true, Bool.and_eq_true, decide_eq_true_eq, beq_iff_eq]
    omega

/-! ## The nearest word -/

theorem nearestWord_of_scale {w num den : Nat} (hden : 0 < den)
    (hnear : Near w (num * unitsPerOne) den)
    (hscale : (num * unitsPerOne / den).log2 - 52 = scale w) : nearestWord num den = w := by
  have hround : roundEven (num * unitsPerOne) (den * 2 ^ scale w) = significand w := by
    rw [Nat.mul_comm den]
    have := hnear.low
    have := hnear.high
    exact roundEven_eq (by omega) (by omega) (fun hodd => by have := hnear.odd hodd; omega)
      (Nat.mul_pos (Nat.two_pow_pos _) hden)
  rw [nearestWord_eq, hscale, hround, word_eq]

theorem log2_sub_le_scale {w units den : Nat} (hden : 0 < den) (hnear : Near w units den) :
    (units / den).log2 - 52 ≤ scale w := by
  refine Nat.le_of_not_lt fun hlt => ?_
  have hpow : 2 ^ (53 + scale w) ≤ units / den := by
    have hne : units / den ≠ 0 := by
      intro hzero
      rw [hzero, Nat.log2_zero] at hlt
      omega
    exact (Nat.le_log2 hne).mp (by omega)
  have hunits := (Nat.le_div_iff_mul_le hden).mp hpow
  rw [Nat.pow_add, Nat.mul_assoc] at hunits
  have hhigh := hnear.high
  have hsignificand := Nat.mul_le_mul_right (2 ^ scale w * den)
    (Nat.le_sub_one_of_lt (significand_lt w))
  unfold leadingBit at hsignificand
  have hpos : 0 < 2 ^ scale w * den := Nat.mul_pos (Nat.two_pow_pos _) hden
  omega

/-- A number in the interval of a word that lies in a power of two below the word lies at its upper
end, and the word is the first of its power of two. -/
theorem first_of_log2_lt {w units den : Nat} (hden : 0 < den) (hnear : Near w units den)
    (hlt : (units / den).log2 - 52 < scale w) :
    significand w = leadingBit ∧ (units / den).log2 - 52 = scale w - 1 ∧
      units < leadingBit * (2 ^ scale w * den) := by
  have hpos : 0 < 2 ^ scale w * den := Nat.mul_pos (Nat.two_pow_pos _) hden
  have hscale : 0 < scale w := Nat.lt_of_le_of_lt (Nat.zero_le _) hlt
  have hbelow : units < leadingBit * (2 ^ scale w * den) := by
    rw [leadingBit_eq, ← Nat.mul_assoc, ← Nat.pow_add, ← Nat.div_lt_iff_lt_mul hden]
    exact Nat.lt_of_lt_of_le Nat.lt_log2_self (Nat.pow_le_pow_right Nat.two_pos (by omega))
  have hlow := hnear.low
  have hsignificand : significand w = leadingBit := by
    refine Nat.le_antisymm (Nat.le_of_not_lt fun hgt => ?_) (le_significand hscale)
    have := Nat.mul_le_mul_right (2 ^ scale w * den) (Nat.succ_le_of_lt hgt)
    unfold leadingBit at this hbelow
    omega
  have hfirst := hnear.first hsignificand hscale
  rw [hsignificand] at hfirst
  have habove : 2 ^ (51 + scale w) ≤ units / den := by
    rw [Nat.le_div_iff_mul_le hden, Nat.pow_add, Nat.mul_assoc]
    unfold leadingBit at hfirst
    omega
  have hne : units / den ≠ 0 := Nat.ne_of_gt (Nat.lt_of_lt_of_le (Nat.two_pow_pos _) habove)
  have := (Nat.le_log2 hne).mpr habove
  exact ⟨hsignificand, by omega, hbelow⟩

theorem nearestWord_of_first {w num den : Nat} (hden : 0 < den)
    (hnear : Near w (num * unitsPerOne) den)
    (hlt : (num * unitsPerOne / den).log2 - 52 < scale w) : nearestWord num den = w := by
  obtain ⟨hsignificand, hlog, hbelow⟩ := first_of_log2_lt hden hnear hlt
  have hscale : 0 < scale w := Nat.lt_of_le_of_lt (Nat.zero_le _) hlt
  have hfirst := hnear.first hsignificand hscale
  rw [hsignificand] at hfirst
  have hdouble : 2 ^ scale w * den = 2 * (den * 2 ^ (scale w - 1)) := by
    rw [Nat.mul_comm den, ← Nat.mul_assoc, ← Nat.pow_succ', Nat.succ_eq_add_one,
      Nat.sub_add_cancel hscale]
  rw [hdouble] at hfirst hbelow
  have hround : roundEven (num * unitsPerOne) (den * 2 ^ (scale w - 1)) = 2 * leadingBit := by
    unfold leadingBit at hfirst hbelow ⊢
    refine roundEven_eq (by omega) (by omega) (fun hodd => absurd hodd (by decide)) ?_
    exact Nat.mul_pos hden (Nat.two_pow_pos _)
  have hcarry : ∀ s, 0 < s → (s - 1) * leadingBit + 2 * leadingBit =
      s * leadingBit + leadingBit := by
    intro s hs
    unfold leadingBit
    omega
  calc nearestWord num den = (scale w - 1) * leadingBit + 2 * leadingBit := by
        rw [nearestWord_eq, hlog, hround]
    _ = scale w * leadingBit + significand w := by rw [hcarry _ hscale, hsignificand]
    _ = w := word_eq w

theorem nearestWord_eq_of_roundsTo {w num den : Nat} (hden : 0 < den)
    (hround : roundsTo w (num * (4 * unitsPerOne)) den) : nearestWord num den = w := by
  have hnear : Near w (num * unitsPerOne) den := by
    rw [Nat.mul_left_comm] at hround
    exact near_of_roundsTo hround
  rcases Nat.lt_or_eq_of_le (log2_sub_le_scale hden hnear) with hlt | heq
  · exact nearestWord_of_first hden hnear hlt
  · exact nearestWord_of_scale hden hnear heq

/-! ## The shortest decimal -/

theorem lowerEnd_pos {w : Nat} (hw : 0 < w) : 0 < lowerEnd w := by
  have := quarters_mul_le w 1
  have := Nat.mul_le_mul_right (2 ^ scale w * 1) (significand_pos hw)
  have := Nat.two_pow_pos (scale w)
  omega

/-- A multiple that stands for a word lies in its interval. -/
theorem roundsTo_of_multiple? {w c spacing den : Nat}
    (hmultiple : multiple? w spacing den = some c) : roundsTo w (c * spacing) den := by
  unfold multiple? at hmultiple
  dsimp only at hmultiple
  split at hmultiple
  next hbelow habove =>
    cases hmultiple
    split
    · exact habove
    · exact hbelow
  next hbelow _ =>
    cases hmultiple
    exact hbelow
  next _ habove =>
    cases hmultiple
    exact habove
  · cases hmultiple

theorem roundsTo_of_gridPoint? {w c : Nat} {k : Int} (hpoint : gridPoint? w k = some c) :
    roundsTo w (c * (4 * unitsPerOne * 10 ^ k.toNat)) (10 ^ (-k).toNat) :=
  roundsTo_of_multiple? hpoint

/-- A number that is more than the value of a word by less than two quarters rounds to the word. -/
theorem roundsTo_above {w num den : Nat} (hlow : quarters w * den < num)
    (hhigh : num < quarters w * den + 2 * den) : roundsTo w num den := by
  have hlower : lowerEnd w * den ≤ quarters w * den := by
    apply Nat.mul_le_mul_right
    unfold lowerEnd
    split <;> exact Nat.sub_le _ _
  have hupper : quarters w * den + 2 * den ≤ upperEnd w * den := by
    rw [← Nat.add_mul]
    apply Nat.mul_le_mul_right
    have := Nat.two_pow_pos (scale w)
    rw [upperEnd_eq]
    omega
  unfold roundsTo
  split <;> simp only [Bool.and_eq_true, decide_eq_true_eq] <;> omega

/-- Of multiples that are less than two quarters apart one is in the interval of every word: the one
above its value. -/
theorem isSome_multiple? (w : Nat) {spacing den : Nat} (hpos : 0 < spacing)
    (hspacing : spacing < 2 * den) : (multiple? w spacing den).isSome := by
  have hmod := Nat.mod_add_div' (quarters w * den) spacing
  have hlt := Nat.mod_lt (quarters w * den) hpos
  have habove : roundsTo w ((quarters w * den / spacing + 1) * spacing) den := by
    rw [Nat.succ_mul]
    exact roundsTo_above (by omega) (by omega)
  unfold multiple?
  dsimp only
  rw [habove]
  split
  · rfl
  · rfl
  · rfl
  next hfalse => cases hfalse

/-- The finest grid has a point in the interval of every word. -/
theorem isSome_gridPoint?_finest (w : Nat) : (gridPoint? w (-324)).isSome :=
  isSome_multiple? w (by decide +kernel) (by decide +kernel)

/-- The shortest decimal of a word is a point that stands for it on a grid that is not too fine and
not too coarse. -/
theorem shortest_eq (w : Nat) :
    ∃ c k, shortest w = (c, k) ∧ gridPoint? w k = some c ∧ -324 ≤ k ∧ k ≤ 308 := by
  have hfinest : -324 ∈ grids :=
    List.mem_map.mpr ⟨632, List.mem_range.mpr (by decide), rfl⟩
  have hsome : (grids.findSome? fun k => (gridPoint? w k).map (·, k)).isSome := by
    rw [List.findSome?_isSome_iff]
    exact ⟨_, hfinest, by rw [Option.isSome_map]; exact isSome_gridPoint?_finest w⟩
  obtain ⟨⟨c, k⟩, hck⟩ := Option.isSome_iff_exists.mp hsome
  obtain ⟨k', hk', hpoint⟩ := List.exists_of_findSome?_eq_some hck
  obtain ⟨c', hc', heq⟩ := Option.map_eq_some_iff.mp hpoint
  obtain ⟨rfl, rfl⟩ := Prod.mk.inj heq
  obtain ⟨i, hi, rfl⟩ := List.mem_map.mp hk'
  have := List.mem_range.mp hi
  exact ⟨c', _, by rw [shortest, hck]; rfl, hc', by omega, by omega⟩

theorem pos_of_gridPoint? {w c : Nat} {k : Int} (hw : 0 < w)
    (hpoint : gridPoint? w k = some c) : 0 < c := by
  have hround := roundsTo_of_gridPoint? hpoint
  refine Nat.pos_of_ne_zero fun hzero => ?_
  have hlower : 0 < lowerEnd w * 10 ^ (-k).toNat :=
    Nat.mul_pos (lowerEnd_pos hw) (Nat.pow_pos (by decide))
  rw [hzero, Nat.zero_mul] at hround
  unfold roundsTo at hround
  split at hround <;> simp only [Bool.and_eq_true, decide_eq_true_eq] at hround <;> omega

end QueryFilter.Number
