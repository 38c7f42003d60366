import QueryFilter.Proofs.Pattern.Matching
import QueryFilter.Proofs.Query.Collapse

/-!
# What a collapsed pattern matches

A run of `*` asks for what one `*` asks for, so collapsing it does not change what a pattern
matches.  A run of `?` asks for as many characters as it is long, and it is shortened all the same.
So a collapsed pattern matches the same texts exactly if no two `?` stood side by side
(`matches_collapse_iff`).

## Strategy

Two sequences of items are alike if the same texts match them, and they stay alike with more items
in front of both (`Item.Alike.append`).  That is what collapsing does to a pattern, character by
character, with the character in front of what is left as the only thing to remember
(`alike_collapseAfter`).

For the other direction each pattern is tried on the shortest text that matches it, its characters
without the `*` (`matches_shortest`, `length_of_matches`).  The text of the collapsed pattern is too
short for the pattern itself, since a `?` is missing (`count_collapseAfter_lt`).
-/

namespace QueryFilter.Pattern

/-! ## Items that match the same texts -/

namespace Item

/-- The same texts match. -/
def Alike (first second : List Item) : Prop := ∀ s, Matches first s ↔ Matches second s

theorem Alike.refl (items : List Item) : Alike items items := fun _ => Iff.rfl

theorem Alike.trans {first second third : List Item} (h : Alike first second)
    (h' : Alike second third) : Alike first third := fun s => (h s).trans (h' s)

theorem Alike.cons {first second : List Item} (h : Alike first second) (item : Item) :
    Alike (item :: first) (item :: second) := by
  intro s
  cases item with
  | anything => simp only [Matches, h _]
  | one accepts =>
      cases s with
      | nil => rfl
      | cons c s => simp only [Matches, h s]

theorem Alike.append {first second : List Item} (h : Alike first second) (front : List Item) :
    Alike (front ++ first) (front ++ second) := by
  induction front with
  | nil => exact h
  | cons item front ih => exact ih.cons item

/-- Any text behind any text is any text. -/
theorem alike_anything (items : List Item) :
    Alike (anything :: anything :: items) (anything :: items) := by
  intro s
  simp only [Matches, List.mem_tails]
  constructor
  · rintro ⟨rest, hrest, rest', hrest', hmatches⟩
    exact ⟨rest', hrest'.trans hrest, hmatches⟩
  · rintro ⟨rest, hrest, hmatches⟩
    exact ⟨s, List.suffix_refl s, rest, hrest, hmatches⟩

end Item

/-! ## Collapsing without two question marks -/

theorem items_append (p q : List Char) : items (p ++ q) = items p ++ items q := List.map_append

/-- What is left of a pattern behind a character matches what the pattern matches there. -/
theorem alike_collapseAfter {previous : Option Char} {p : List Char}
    (h : ¬ ['?', '?'] <:+: previous.toList ++ p) :
    Item.Alike (items (previous.toList ++ collapseAfter previous p))
      (items (previous.toList ++ p)) := by
  induction p generalizing previous with
  | nil => exact .refl _
  | cons c p ih =>
      have hbehind : ¬ ['?', '?'] <:+: (some c).toList ++ p := fun hpair =>
        h (hpair.trans (List.suffix_append previous.toList (c :: p)).isInfix)
      rw [collapseAfter]
      split
      next hrepeats =>
        obtain ⟨hwild, hprevious⟩ := Bool.and_eq_true_iff.mp hrepeats
        obtain rfl := beq_iff_eq.mp hprevious
        -- the character that is left out repeats a star, for it is no second question mark
        obtain rfl : c = '*' := by
          rw [isWildcard, Bool.or_eq_true, beq_iff_eq, beq_iff_eq] at hwild
          refine hwild.resolve_right ?_
          rintro rfl
          exact h (List.prefix_append ['?', '?'] p).isInfix
        exact (ih hbehind).trans fun s => (Item.alike_anything (items p) s).symm
      next =>
        rw [items_append, items_append]
        exact (ih hbehind).append (items previous.toList)

/-! ## Collapsing two question marks -/

/-- The shortest text that matches a pattern. -/
def shortest (p : List Char) : List Char := p.filter fun c => c != '*'

theorem shortest_cons {c : Char} (hc : c ≠ '*') (p : List Char) :
    shortest (c :: p) = c :: shortest p :=
  List.filter_cons_of_pos (by simpa using hc)

/-- A character that is no star asks for one character, and would have itself. -/
theorem itemOf_of_ne {c : Char} (hc : c ≠ '*') :
    ∃ accepts, itemOf c = .one accepts ∧ accepts c := by
  rw [itemOf, if_neg hc]
  by_cases hone : c = '?'
  · rw [if_pos hone]
    exact ⟨_, rfl, rfl⟩
  · rw [if_neg hone]
    exact ⟨_, rfl, beq_self_eq_true c⟩

theorem matches_shortest (p : List Char) : Matches p (shortest p) := by
  induction p with
  | nil => rfl
  | cons c p ih =>
      by_cases hc : c = '*'
      · subst hc
        exact ⟨shortest p, (List.mem_tails _ _).mpr (List.suffix_refl _), ih⟩
      · obtain ⟨accepts, hitem, haccepts⟩ := itemOf_of_ne hc
        rw [shortest_cons hc, Matches, items, List.map_cons, hitem]
        exact ⟨haccepts, ih⟩

theorem length_shortest_le {p s : List Char} (h : Matches p s) :
    (shortest p).length ≤ s.length := by
  induction p generalizing s with
  | nil => exact Nat.zero_le _
  | cons c p ih =>
      by_cases hc : c = '*'
      · subst hc
        obtain ⟨rest, hrest, hmatches⟩ := h
        exact Nat.le_trans (ih hmatches) ((List.mem_tails _ _).mp hrest).length_le
      · obtain ⟨accepts, hitem, -⟩ := itemOf_of_ne hc
        rw [Matches, items, List.map_cons, hitem] at h
        rw [shortest_cons hc]
        cases s with
        | nil => exact h.elim
        | cons d s => exact Nat.succ_le_succ (ih h.2)

theorem length_shortest_collapseAfter_le (previous : Option Char) (p : List Char) :
    (shortest (collapseAfter previous p)).length ≤ (shortest p).length :=
  ((collapseAfter_sublist previous p).filter _).length_le

theorem length_shortest_cons (c : Char) (p : List Char) :
    (shortest (c :: p)).length = (shortest [c]).length + (shortest p).length := by
  rw [← List.length_append, shortest, shortest, shortest, ← List.filter_append]
  rfl

/-- Two question marks stand at the beginning or behind it. -/
theorem pair_infix_cons {previous : Option Char} {c : Char} {p : List Char}
    (h : ['?', '?'] <:+: previous.toList ++ c :: p) :
    (previous = some '?' ∧ c = '?') ∨ ['?', '?'] <:+: c :: p := by
  cases previous with
  | none => exact .inr h
  | some d =>
      refine (List.infix_cons_iff.mp h).imp_left fun hprefix => ?_
      obtain ⟨hd, hrest⟩ := List.cons_prefix_cons.mp hprefix
      obtain ⟨hc, -⟩ := List.cons_prefix_cons.mp hrest
      exact ⟨congrArg some hd.symm, hc.symm⟩

/-- A question mark that stands behind another one is left out, and leaves the pattern shorter. -/
theorem length_shortest_collapseAfter_lt {previous : Option Char} {p : List Char}
    (h : ['?', '?'] <:+: previous.toList ++ p) :
    (shortest (collapseAfter previous p)).length < (shortest p).length := by
  induction p generalizing previous with
  | nil =>
      have hlength := h.length_le
      cases previous <;> simp at hlength
  | cons c p ih =>
      rcases pair_infix_cons h with ⟨rfl, rfl⟩ | hbehind
      · calc (shortest (collapseAfter (some '?') ('?' :: p))).length
            = (shortest (collapseAfter (some '?') p)).length := rfl
          _ ≤ (shortest p).length := length_shortest_collapseAfter_le _ p
          _ < (shortest ('?' :: p)).length := Nat.lt_succ_self _
      · have hlt : (shortest (collapseAfter (some c) p)).length < (shortest p).length := ih hbehind
        rw [collapseAfter]
        split
        next hrepeats =>
          obtain rfl := beq_iff_eq.mp (Bool.and_eq_true_iff.mp hrepeats).2
          rw [length_shortest_cons c p]
          omega
        next =>
          rw [length_shortest_cons c p, length_shortest_cons]
          omega

/-- **Collapsing the wildcards of a pattern does not change what it matches, exactly if no two `?`
stand side by side in it.** -/
theorem matches_collapse_iff (p : List Char) :
    (∀ s, Matches (collapse p) s ↔ Matches p s) ↔ ¬ ['?', '?'] <:+: p := by
  constructor
  · intro halike hpair
    have hmatches : Matches p (shortest (collapse p)) := (halike _).mp (matches_shortest _)
    have hlt : (shortest (collapse p)).length < (shortest p).length :=
      @length_shortest_collapseAfter_lt none p hpair
    exact Nat.not_le_of_lt hlt (length_shortest_le hmatches)
  · intro hpair
    exact @alike_collapseAfter none p hpair

end QueryFilter.Pattern
