import Mathlib.Data.List.Chain
import QueryFilter.Proofs.Query.Collapse

/-!
# The shape of a collapsed pattern

A collapsed pattern has no wildcard twice in a row, and lacks nothing of the pattern but wildcards
that stood behind the same wildcard.  So it stays within the bounds that the pattern keeps
(`collapse_shape`).

The two bounds go by different runs.  Collapsing shortens a run of one wildcard, while a run counts
as an alternation whichever wildcards are in it, so `*?*` in front of a literal character stays as
it is and is one alternation.  Alternations are counted by a flag that is set behind a wildcard.
The number is that of the places at which a wildcard stands directly in front of a literal character
(`alternationCount_eq`).
-/

namespace QueryFilter.Pattern

/-! ## Neighbours -/

/-- Behind a character, what is left of a pattern begins with no repetition of it and has none
inside. -/
theorem isChain_collapseAfter (previous : Option Char) (p : List Char) :
    (previous.toList ++ collapseAfter previous p).IsChain fun c d => ¬ (isWildcard d ∧ c = d) := by
  induction p generalizing previous with
  | nil => cases previous <;> simp [collapseAfter]
  | cons c p ih =>
      rw [collapseAfter]
      split
      next => exact ih previous
      next hkept =>
        have htail := ih (some c)
        cases previous with
        | none => exact htail
        | some d =>
            refine List.isChain_cons_cons.mpr ⟨?_, htail⟩
            rintro ⟨hwild, rfl⟩
            exact hkept (Bool.and_eq_true_iff.mpr ⟨hwild, beq_self_eq_true (some d)⟩)

/-- No wildcard stands twice in a row in a collapsed pattern. -/
theorem not_pair_infix_collapse {c : Char} (hc : isWildcard c) (p : List Char) :
    ¬ [c, c] <:+: collapse p := by
  intro hpair
  have hchain := List.IsChain.infix (isChain_collapseAfter none p) hpair
  exact (List.isChain_cons_cons.mp hchain).1 ⟨hc, rfl⟩

/-! ## Literal characters -/

/-- The characters of a pattern that are no wildcards. -/
def literals (p : List Char) : List Char := p.filter fun c => !isWildcard c

theorem literals_collapseAfter (previous : Option Char) (p : List Char) :
    literals (collapseAfter previous p) = literals p := by
  induction p generalizing previous with
  | nil => rfl
  | cons c p ih =>
      rw [collapseAfter]
      split
      next hrepeats =>
        have hwild : isWildcard c := (Bool.and_eq_true_iff.mp hrepeats).1
        rw [ih, literals, literals, List.filter_cons_of_neg (by simp [hwild])]
      next =>
        have htail := ih (some c)
        unfold literals at htail ⊢
        rw [List.filter_cons, List.filter_cons, htail]

/-! ## Alternations -/

/-- Whether a wildcard stands at a place, and directly behind it a character that is none. -/
def endsRun (p : List Char) (i : Nat) : Bool :=
  p[i]?.any isWildcard && p[i + 1]?.any fun c => !isWildcard c

/-- A run that has begun in front of a text ends there if the text begins with a literal
character. -/
theorem alternationsAfter_eq (inRun : Bool) (p : List Char) :
    alternationsAfter inRun p =
      (if inRun && p.head?.any fun c => !isWildcard c then 1 else 0) +
        (List.range p.length).countP (endsRun p) := by
  induction p generalizing inRun with
  | nil => simp [alternationsAfter]
  | cons c p ih =>
      -- the first place is taken off, and the others are places of the rest
      have hplaces : (List.range (c :: p).length).countP (endsRun (c :: p)) =
          (if isWildcard c && p.head?.any fun d => !isWildcard d then 1 else 0) +
            (List.range p.length).countP (endsRun p) := by
        have hfirst : endsRun (c :: p) 0 =
            (isWildcard c && p.head?.any fun d => !isWildcard d) := by
          rw [endsRun, List.head?_eq_getElem?]
          rfl
        rw [List.length_cons, List.range_succ_eq_map, List.countP_cons, List.countP_map, hfirst,
          Nat.add_comm]
        rfl
      rw [hplaces, alternationsAfter]
      by_cases hwild : isWildcard c
      · rw [if_pos hwild, ih]
        simp [hwild]
      · rw [if_neg hwild, ih]
        simp [hwild]

theorem alternationCount_eq (p : List Char) :
    alternationCount p = (List.range p.length).countP (endsRun p) := by
  rw [alternationCount, alternationsAfter_eq, Bool.false_and, if_neg Bool.false_ne_true,
    Nat.zero_add]

/-! ## Bounds -/

theorem excess?_collapse {p : List Char} (h : excess? p = none) : excess? (collapse p) = none := by
  obtain ⟨halternations, hwildcards⟩ := (Policy.excess?_eq_none_iff p).mp h
  rw [Policy.excess?_eq_none_iff, alternationCount_collapse]
  exact ⟨halternations, Nat.le_trans (wildcardCount_collapse_le p) hwildcards⟩

/-- **A collapsed pattern is the pattern without repeated wildcards.**  No wildcard stands twice in
a row in it, it is part of the pattern with the same literal characters, and it is collapsed.  It
has no more wildcards, and as many alternations, which are the places where a wildcard stands
directly in front of a literal character.  So it keeps the bounds that the pattern keeps. -/
theorem collapse_shape (p : List Char) :
    (∀ c, isWildcard c → ¬ [c, c] <:+: collapse p) ∧
      (collapse p).Sublist p ∧ literals (collapse p) = literals p ∧
      collapse (collapse p) = collapse p ∧
      wildcardCount (collapse p) ≤ wildcardCount p ∧
      alternationCount (collapse p) = alternationCount p ∧
      alternationCount p = (List.range p.length).countP (endsRun p) ∧
      (excess? p = none → excess? (collapse p) = none) :=
  ⟨fun _ hc => not_pair_infix_collapse hc p, collapse_sublist p, literals_collapseAfter none p,
    collapse_collapse p, wildcardCount_collapse_le p, alternationCount_collapse p,
    alternationCount_eq p, excess?_collapse⟩

/-- A run of both wildcards keeps its alternating part. -/
theorem collapse_shape_mixed :
    let p := "a*?*??b**".toList
    isWildcard '*' ∧ excess? p = none ∧ collapse p = "a*?*?b*".toList ∧
      ¬ ['*', '*'] <:+: collapse p ∧ excess? (collapse p) = none := by
  have hwild : isWildcard '*' := rfl
  have hbounds : excess? "a*?*??b**".toList = none := by decide +kernel
  obtain ⟨hpair, -, -, -, -, -, -, hkeeps⟩ := collapse_shape "a*?*??b**".toList
  exact ⟨hwild, hbounds, by decide +kernel, hpair '*' hwild, hkeeps hbounds⟩

end QueryFilter.Pattern
