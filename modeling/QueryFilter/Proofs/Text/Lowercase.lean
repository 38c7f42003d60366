import Mathlib
import QueryFilter.Text.Lowercase

/-!
# Lower-case forms and ASCII letters

Lower-casing goes through a text with regard to the neighbours of each letter, since the final form
of a capital sigma depends on them.  None of what it asks for tells an ASCII letter from its
lower-case form, and so texts that differ in the case of such letters only have one lower-case form
(`lowercase_congr`).
-/

namespace QueryFilter.Text

/-! ## ASCII letters -/

/-- What does not tell a letter from its lower-case form does so for no character. -/
theorem eq_toLower {α : Type} (f : Char → α)
    (hletter : ∀ c : Char, c.isAlpha → c.toLower.isAlpha → f c.toLower = f c) (c : Char) :
    f c.toLower = f c := by
  by_cases hupper : c.isUpper
  · have halpha : c.isAlpha := by rw [Char.isAlpha, hupper, Bool.true_or]
    exact hletter c halpha (c.isAlpha_toLower_eq_isAlpha.trans halpha)
  · rw [Char.toLower_eq_of_not_isUpper hupper]

/-- A character that is no letter is the lower-case form of itself only. -/
theorem toLower_eq_iff {d : Char} (hd : ¬ d.isAlpha) (c : Char) : c.toLower = d ↔ c = d := by
  have hne {c : Char} (hc : c.isAlpha) : ¬ c = d := fun heq => hd (heq ▸ hc)
  rw [← eq_iff_iff]
  refine eq_toLower (· = d) (fun c hc hlower => ?_) c
  rw [eq_iff_iff, iff_false_intro (hne hc), iff_false_intro (hne hlower)]

theorem toNat_lt_of_isAlpha {c : Char} (h : c.isAlpha) : c.toNat < 128 := by
  simp only [Char.isAlpha, Char.isUpper, Char.isLower, Bool.or_eq_true, decide_eq_true_eq,
    Bool.and_eq_true, UInt32.le_iff_toNat_le, ge_iff_le] at h
  rcases h with ⟨-, h⟩ | ⟨-, h⟩
  · exact Nat.lt_of_le_of_lt h (by decide)
  · exact Nat.lt_of_le_of_lt h (by decide)

/-! ## What lower-casing asks for -/

theorem lowerChar_toLower (c : Char) : lowerChar c.toLower = lowerChar c := by
  refine eq_toLower lowerChar (fun c hc hlower => ?_) c
  rw [lowerChar, if_pos (toNat_lt_of_isAlpha hlower), lowerChar, if_pos (toNat_lt_of_isAlpha hc),
    Char.toLower_toLower_eq_toLower]

theorem isCased_toLower (c : Char) : isCased c.toLower = isCased c := by
  refine eq_toLower isCased (fun c hc hlower => ?_) c
  rw [isCased, if_pos (toNat_lt_of_isAlpha hlower), isCased, if_pos (toNat_lt_of_isAlpha hc), hc,
    hlower]

theorem isCaseIgnorable_of_isAlpha {c : Char} (h : c.isAlpha) : isCaseIgnorable c = false := by
  have hne {d : Char} (hd : ¬ d.isAlpha) : (c == d) = false :=
    beq_eq_false_iff_ne.mpr fun heq => hd (heq ▸ h)
  rw [isCaseIgnorable, if_pos (toNat_lt_of_isAlpha h), hne (by decide), hne (by decide),
    hne (by decide), hne (by decide), hne (by decide)]
  rfl

theorem isCaseIgnorable_toLower (c : Char) : isCaseIgnorable c.toLower = isCaseIgnorable c := by
  refine eq_toLower isCaseIgnorable (fun c hc hlower => ?_) c
  rw [isCaseIgnorable_of_isAlpha hlower, isCaseIgnorable_of_isAlpha hc]

theorem startsCased_cons (c : Char) (s : List Char) :
    startsCased (c :: s) = if isCaseIgnorable c then startsCased s else isCased c := by
  cases hc : isCaseIgnorable c with
  | true => rw [startsCased, List.dropWhile_cons_of_pos hc, if_pos rfl, startsCased]
  | false =>
      rw [startsCased, List.dropWhile_cons_of_neg (Bool.not_eq_true _ ▸ hc), if_neg Bool.false_ne_true]

theorem startsCased_map_toLower (s : List Char) :
    startsCased (s.map Char.toLower) = startsCased s := by
  induction s with
  | nil => rfl
  | cons c s ih =>
      rw [List.map_cons, startsCased_cons, startsCased_cons, ih, isCaseIgnorable_toLower,
        isCased_toLower]

/-! ## Texts -/

/-- The lower-case form of a text does not tell whether ASCII letters of it, or in front of it, were
lower-case before. -/
theorem lowerAfter_map_toLower (before s : List Char) :
    lowerAfter (before.map Char.toLower) (s.map Char.toLower) = lowerAfter before s := by
  induction s generalizing before with
  | nil => rfl
  | cons c s ih =>
      have hrest := ih (c :: before)
      have hsigma : c.toLower = 'Σ' ↔ c = 'Σ' := toLower_eq_iff (by decide) c
      have hdotted : c.toLower = 'İ' ↔ c = 'İ' := toLower_eq_iff (by decide) c
      rw [List.map_cons] at hrest
      simp only [List.map_cons, lowerAfter, hrest, startsCased_map_toLower, hsigma, hdotted,
        lowerChar_toLower]

/-- Texts that differ in the case of ASCII letters only have one lower-case form. -/
theorem lowercase_congr {s t : String}
    (h : s.toList.map Char.toLower = t.toList.map Char.toLower) : lowercase s = lowercase t := by
  have hlower (u : String) : lowerAfter [] (u.toList.map Char.toLower) = lowerAfter [] u.toList :=
    lowerAfter_map_toLower [] u.toList
  rw [lowercase, lowercase, ← hlower s, ← hlower t, h]

end QueryFilter.Text
