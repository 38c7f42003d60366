/-!
# Splitting a text

The pieces of a text between the occurrences of a separator.
-/

namespace QueryFilter.Text

/-- The pieces of a text between the occurrences of a character.  There is one more of them than
there are occurrences. -/
def split (separator : Char) : List Char → List (List Char)
  | [] => [[]]
  | c :: s =>
    if c = separator then [] :: split separator s
    else match split separator s with
      | [] => [[c]]
      | first :: others => (c :: first) :: others

@[simp] theorem split_nil (separator : Char) : split separator [] = [[]] := rfl

theorem split_ne_nil (separator : Char) (s : List Char) : split separator s ≠ [] := by
  cases s with
  | nil => simp
  | cons c s =>
    simp only [split]
    split
    · simp
    · split <;> simp

/-- A text without the separator is one piece. -/
theorem split_of_not_mem {separator : Char} {s : List Char} (h : separator ∉ s) :
    split separator s = [s] := by
  induction s with
  | nil => rfl
  | cons c s ih =>
    rw [List.mem_cons, not_or] at h
    rw [split, if_neg (Ne.symm h.1), ih h.2]

/-- The pieces of a text have no characters of their own. -/
theorem mem_of_mem_split {separator c : Char} {s piece : List Char}
    (hpiece : piece ∈ split separator s) (hc : c ∈ piece) : c ∈ s := by
  induction s generalizing piece with
  | nil =>
    rw [split_nil, List.mem_singleton] at hpiece
    exact hpiece ▸ hc
  | cons d s ih =>
    simp only [split] at hpiece
    split at hpiece
    · rcases List.mem_cons.mp hpiece with rfl | hpiece
      · exact absurd hc List.not_mem_nil
      · exact List.mem_cons_of_mem _ (ih hpiece hc)
    · split at hpiece
      next heq => exact absurd heq (split_ne_nil separator s)
      next first others heq =>
        rcases List.mem_cons.mp hpiece with rfl | hpiece
        · rcases List.mem_cons.mp hc with rfl | hc
          · exact List.mem_cons_self
          · exact List.mem_cons_of_mem _ (ih (heq ▸ List.mem_cons_self) hc)
        · exact List.mem_cons_of_mem _ (ih (heq ▸ List.mem_cons_of_mem _ hpiece) hc)

theorem length_split (separator : Char) (s : List Char) :
    (split separator s).length = s.count separator + 1 := by
  induction s with
  | nil => rfl
  | cons c s ih =>
    simp only [split]
    split
    next h => simp [h, ih]
    next h =>
      have hne : ¬ (c == separator) = true := by simpa using h
      split
      next heq => exact absurd heq (split_ne_nil separator s)
      next heq =>
        rw [heq, List.length_cons] at ih
        rw [List.length_cons, List.count_cons, if_neg hne, ih]

end QueryFilter.Text
