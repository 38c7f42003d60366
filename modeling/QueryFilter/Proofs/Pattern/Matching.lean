import Mathlib.Data.List.Infix
import QueryFilter.Pattern

/-!
# What a pattern matches

A pattern asks for something at each of its places: for any number of characters, or for one
character out of some.  A text matches if it can be cut into what the places ask for, one behind the
other (`Item.Matches`).  The three languages of patterns differ only in how they are read as such
items:

* In a pattern of a query, `*` is any text and `?` any character, and every other character is
  itself.
* In a `LIKE` pattern these are `%` and `_`, and a backslash makes the character behind it stand for
  itself (`Like.items?`).
* A `GLOB` pattern has the wildcards of a query, and classes of characters in brackets
  (`Glob.items?`).

A pattern that is rewritten in one of the two languages of databases is read there as the items that
it had before, so it matches the same texts (`matches_translated`).  It is rewritten character by
character, which for `LIKE` comes to the same as to write the escapes first and then one wildcard
after the other (`toLike_eq_replace`).
-/

namespace QueryFilter.Pattern

/-! ## Items -/

/-- What a pattern asks for at one of its places. -/
inductive Item where
  /-- Any characters, as many as there are. -/
  | anything
  /-- One character, if it is accepted. -/
  | one (accepts : Char → Bool)

namespace Item

/-- Any one character. -/
def anyOne : Item := one fun _ => true

/-- A character itself. -/
def literal (c : Char) : Item := one fun d => d == c

/-- A text can be cut into what some items ask for. -/
def Matches : List Item → List Char → Prop
  | [], s => s = []
  | anything :: items, s => ∃ rest ∈ s.tails, Matches items rest
  | one _ :: _, [] => False
  | one accepts :: items, c :: s => accepts c ∧ Matches items s

instance decidableMatches : (items : List Item) → (s : List Char) → Decidable (Matches items s)
  | [], s => inferInstanceAs (Decidable (s = []))
  | anything :: items, s =>
    have : DecidablePred (Matches items) := decidableMatches items
    inferInstanceAs (Decidable (∃ rest ∈ s.tails, Matches items rest))
  | one _ :: _, [] => .isFalse id
  | one accepts :: items, c :: s =>
    have := decidableMatches items s
    inferInstanceAs (Decidable (accepts c ∧ Matches items s))

end Item

/-! ## Patterns of queries -/

/-- What a character of a pattern asks for. -/
def itemOf (c : Char) : Item :=
  if c = '*' then .anything else if c = '?' then .anyOne else .literal c

/-- What a pattern asks for. -/
def items (p : List Char) : List Item := p.map itemOf

/-- A text matches a pattern. -/
def Matches (p s : List Char) : Prop := Item.Matches (items p) s

instance (p s : List Char) : Decidable (Matches p s) := Item.decidableMatches (items p) s

/-! ## `LIKE` patterns -/

namespace Like

/-- What a character of a `LIKE` pattern asks for, if there is no backslash in front of it. -/
def itemOf (c : Char) : Item :=
  if c = '%' then .anything else if c = '_' then .anyOne else .literal c

/-- What a `LIKE` pattern asks for.  A backslash at the end has nothing to escape, and such a
pattern asks for nothing that could be matched. -/
def items? : List Char → Option (List Item)
  | [] => some []
  | ['\\'] => none
  | '\\' :: c :: p => (items? p).map (.literal c :: ·)
  | c :: p => (items? p).map (itemOf c :: ·)

/-- A text matches a `LIKE` pattern. -/
def Matches (p s : List Char) : Prop := ∃ items ∈ items? p, Item.Matches items s

instance (p s : List Char) : Decidable (Matches p s) :=
  inferInstanceAs (Decidable (∃ items ∈ items? p, Item.Matches items s))

/-- Whether the last character of a `LIKE` pattern is a backslash that has nothing to escape. -/
def endsInEscape : List Char → Bool
  | [] => false
  | ['\\'] => true
  | '\\' :: _ :: p => endsInEscape p
  | _ :: p => endsInEscape p

/-- Nothing but a backslash at the end keeps a `LIKE` pattern from being read. -/
theorem isSome_items? (p : List Char) : (items? p).isSome = !endsInEscape p := by
  fun_induction items? p with
  | case1 => rfl
  | case2 => rfl
  | case3 c p ih => rw [Option.isSome_map, ih, endsInEscape]
  | case4 c p hlast hescape ih =>
      rw [Option.isSome_map, ih, endsInEscape]
      · exact hlast
      · exact hescape

end Like

/-! ## `GLOB` patterns -/

namespace Glob

/-- A class of characters: those in some ranges, or all others. -/
structure Class where
  negated : Bool
  ranges : List (Char × Char)

namespace Class

/-- The class with one more range.  The character that begins it belongs to it in any case. -/
def add (k : Class) (low high : Char) : Class :=
  { k with ranges := (low, low) :: (low, high) :: k.ranges }

/-- Whether a character belongs to a class. -/
def contains (k : Class) (c : Char) : Bool :=
  k.negated != k.ranges.any fun (low, high) => low ≤ c && c ≤ high

end Class

mutual

/-- What a `GLOB` pattern asks for.  A class that is not closed asks for nothing that could be
matched. -/
def items? : List Char → Option (List Item)
  | [] => some []
  | '[' :: '^' :: ']' :: p => classItems? (Class.add ⟨true, []⟩ ']' ']') p
  | '[' :: '^' :: p => classItems? ⟨true, []⟩ p
  | '[' :: ']' :: p => classItems? (Class.add ⟨false, []⟩ ']' ']') p
  | '[' :: p => classItems? ⟨false, []⟩ p
  | c :: p => (items? p).map (itemOf c :: ·)

/-- What a `GLOB` pattern asks for behind the beginning of a class. -/
def classItems? (k : Class) : List Char → Option (List Item)
  | [] => none
  | ']' :: p => (items? p).map (.one k.contains :: ·)
  | c :: '-' :: ']' :: p => (items? p).map (.one ((k.add c c).add '-' '-').contains :: ·)
  | low :: '-' :: high :: p => classItems? (k.add low high) p
  | c :: p => classItems? (k.add c c) p

end

/-- A text matches a `GLOB` pattern. -/
def Matches (p s : List Char) : Prop := ∃ items ∈ items? p, Item.Matches items s

instance (p s : List Char) : Decidable (Matches p s) :=
  inferInstanceAs (Decidable (∃ items ∈ items? p, Item.Matches items s))

end Glob

/-! ## Rewriting a pattern -/

/-- A pattern that is written character by character is read as what it was, if that goes for each
character in front of whatever stands behind it. -/
theorem items_of_flatMap {read : List Char → Option (List Item)} {write : Char → List Char}
    (hnil : read [] = some [])
    (hcons : ∀ c p, read (write c ++ p) = (read p).map (itemOf c :: ·)) (p : List Char) :
    read (p.flatMap write) = some (items p) := by
  induction p with
  | nil => exact hnil
  | cons c p ih =>
      calc read ((c :: p).flatMap write)
          = read (write c ++ p.flatMap write) := rfl
        _ = (read (p.flatMap write)).map (itemOf c :: ·) := hcons c _
        _ = some (items (c :: p)) := by rw [ih]; rfl

/-- A text with a backslash in front of each character that means something in a `LIKE` pattern. -/
def escaped (p : List Char) : List Char :=
  p.flatMap fun c => if c = '\\' ∨ c = '%' ∨ c = '_' then ['\\', c] else [c]

/-- A text with another character in place of a character. -/
def replace (old new : Char) (p : List Char) : List Char :=
  p.map fun c => if c = old then new else c

/-- A `LIKE` pattern can also be written in three steps, the escapes first and then one wildcard
after the other: no step takes up what an earlier one has written. -/
theorem toLike_eq_replace (p : List Char) :
    toLike p = replace '?' '_' (replace '*' '%' (escaped p)) := by
  have hchar : ∀ c, likeOf c = replace '?' '_' (replace '*' '%'
      (if c = '\\' ∨ c = '%' ∨ c = '_' then ['\\', c] else [c])) := by
    intro c
    unfold likeOf
    by_cases hescape : c = '\\' ∨ c = '%' ∨ c = '_'
    · rw [if_pos hescape]
      rcases hescape with rfl | rfl | rfl <;> rfl
    · rw [if_neg hescape]
      by_cases hany : c = '*'
      · rw [if_pos hany, hany]
        rfl
      · by_cases hone : c = '?' <;> simp [replace, hany, hone]
  rw [toLike, escaped, replace, replace, List.map_flatMap, List.map_flatMap]
  exact congrArg (fun f => p.flatMap f) (funext hchar)

namespace Like

theorem items?_cons {c : Char} (hc : c ≠ '\\') (p : List Char) :
    items? (c :: p) = (items? p).map (itemOf c :: ·) := by
  rw [items?]
  · intro heq _
    exact hc heq
  · intro d q heq _
    exact hc heq

/-- What is written for a character is read as the character, whatever stands behind it. -/
theorem items?_likeOf_append (c : Char) (p : List Char) :
    items? (likeOf c ++ p) = (items? p).map (Pattern.itemOf c :: ·) := by
  unfold likeOf Pattern.itemOf
  by_cases hany : c = '*'
  · rw [if_pos hany, if_pos hany]
    exact items?_cons (by decide) p
  · rw [if_neg hany, if_neg hany]
    by_cases hone : c = '?'
    · rw [if_pos hone, if_pos hone]
      exact items?_cons (by decide) p
    · rw [if_neg hone, if_neg hone]
      by_cases hescape : c = '\\' ∨ c = '%' ∨ c = '_'
      · rw [if_pos hescape]
        rfl
      · rw [if_neg hescape]
        obtain ⟨hbackslash, hpercent, hunderscore⟩ := by simpa only [not_or] using hescape
        refine (items?_cons hbackslash p).trans ?_
        rw [itemOf, if_neg hpercent, if_neg hunderscore]

/-- The `LIKE` pattern of a pattern asks for what the pattern asks for. -/
theorem items?_toLike (p : List Char) : items? (toLike p) = some (items p) :=
  items_of_flatMap rfl items?_likeOf_append p

end Like

namespace Glob

/-- A class of one character contains that character only. -/
theorem contains_add_self (c : Char) : (Class.add ⟨false, []⟩ c c).contains = fun d => d == c := by
  funext d
  have hrange : (decide (c ≤ d) && decide (d ≤ c)) = (d == c) := by
    rw [Bool.eq_iff_iff, Bool.and_eq_true, decide_eq_true_iff, decide_eq_true_iff, beq_iff_eq]
    exact ⟨fun h => Char.le_antisymm h.2 h.1, fun h => h ▸ ⟨Char.le_refl d, Char.le_refl d⟩⟩
  simp [Class.contains, Class.add, hrange]

/-- What is written for a character is read as the character, whatever stands behind it. -/
theorem items?_globOf_append (c : Char) (p : List Char) :
    items? (globOf c ++ p) = (items? p).map (Pattern.itemOf c :: ·) := by
  unfold globOf
  by_cases hbracket : c = '['
  · subst hbracket
    calc items? ('[' :: '[' :: ']' :: p)
        = (items? p).map (.one (Class.add ⟨false, []⟩ '[' '[').contains :: ·) := by
          simp [items?, classItems?]
      _ = (items? p).map (Pattern.itemOf '[' :: ·) := by
          rw [contains_add_self]
          rfl
  · rw [if_neg hbracket]
    simp [items?, hbracket]

/-- The `GLOB` pattern of a pattern asks for what the pattern asks for. -/
theorem items?_toGlob (p : List Char) : items? (toGlob p) = some (items p) :=
  items_of_flatMap (by rw [items?]) items?_globOf_append p

end Glob

/-- **A pattern matches the same texts in all three languages.**  Its `LIKE` pattern, which comes
out the same if the escapes are written first and then one wildcard after the other, does not end in
a backslash that has nothing to escape. -/
theorem matches_translated (p s : List Char) :
    toLike p = replace '?' '_' (replace '*' '%' (escaped p)) ∧
      (Like.Matches (toLike p) s ↔ Matches p s) ∧ (Matches p s ↔ Glob.Matches (toGlob p) s) ∧
        Like.endsInEscape (toLike p) = false := by
  refine ⟨toLike_eq_replace p, ?_, ?_, ?_⟩
  · simp [Like.Matches, Like.items?_toLike, Matches]
  · simp [Glob.Matches, Glob.items?_toGlob, Matches]
  · have hread := Like.isSome_items? (toLike p)
    rw [Like.items?_toLike] at hread
    simpa using hread

/-- A class with a bracket, an escaped wildcard and a backslash, each next to a wildcard. -/
example :
    let p := "[*]_?\\%".toList
    toLike p = "[%]\\__\\\\\\%".toList ∧ toGlob p = "[[]*]_?\\%".toList ∧
      Like.Matches (toLike p) "[]]_x\\%".toList ∧ ¬ Glob.Matches (toGlob p) "[]]xx\\%".toList := by
  decide +kernel

end QueryFilter.Pattern
