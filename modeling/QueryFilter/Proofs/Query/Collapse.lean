import QueryFilter.Proofs.Number.Decimal
import QueryFilter.Proofs.Policy.Rules

/-!
# Collapsing wildcards

Collapsing leaves out wildcards that repeat the one in front of them, and nothing else, so what is
left is part of the pattern (`Pattern.collapse_sublist`) and changes from a wildcard to a literal
character as often (`Pattern.alternationCount_collapse`).  Nothing is left out of what is left
(`Pattern.collapse_collapse`).

In a tree only the patterns of comparisons change: the shape of the tree, the fields, the operators
and all other values stay (`Query.leafComparisons_collapse`, `Query.leafDepths_collapse`).

The tree is rewritten in place, one comparison after the other, with an agenda of places.  What
comes out is what recursion on the tree gives (`Query.sanitize_eq_collapse`): working off a place
rewrites the subtree there and nothing else, whatever has been rewritten before and whatever is on
the agenda (`Query.collapseFrom_cons`).
-/

namespace QueryFilter

/-! ## Patterns -/

namespace Pattern

theorem collapseAfter_sublist (previous : Option Char) (p : List Char) :
    (collapseAfter previous p).Sublist p := by
  induction p generalizing previous with
  | nil => exact List.Sublist.slnil
  | cons c p ih =>
      rw [collapseAfter]
      split
      · exact (ih previous).cons c
      · exact (ih (some c)).cons_cons c

theorem collapse_sublist (p : List Char) : (collapse p).Sublist p := collapseAfter_sublist none p

theorem collapseAfter_collapseAfter (previous : Option Char) (p : List Char) :
    collapseAfter previous (collapseAfter previous p) = collapseAfter previous p := by
  induction p generalizing previous with
  | nil => rfl
  | cons c p ih =>
      rw [collapseAfter]
      split
      · exact ih previous
      next hkept => rw [collapseAfter, if_neg hkept, ih (some c)]

/-- A pattern is collapsed at once. -/
theorem collapse_collapse (p : List Char) : collapse (collapse p) = collapse p :=
  collapseAfter_collapseAfter none p

/-- A wildcard that is left out stands in a run of wildcards, which goes on without it. -/
theorem alternationsAfter_collapseAfter {previous : Option Char} {inRun : Bool}
    (hrun : ∀ c, previous = some c → isWildcard c → inRun) (p : List Char) :
    alternationsAfter inRun (collapseAfter previous p) = alternationsAfter inRun p := by
  induction p generalizing previous inRun with
  | nil => rfl
  | cons c p ih =>
      rw [collapseAfter]
      split
      next hrepeats =>
        obtain ⟨hwild, hprevious⟩ := Bool.and_eq_true_iff.mp hrepeats
        obtain rfl := hrun c (beq_iff_eq.mp hprevious) hwild
        rw [alternationsAfter, if_pos hwild]
        exact ih hrun
      next =>
        rw [alternationsAfter, alternationsAfter]
        by_cases hwild : isWildcard c
        · rw [if_pos hwild, if_pos hwild]
          exact ih fun _ _ _ => rfl
        · rw [if_neg hwild, if_neg hwild]
          refine congrArg _ (ih fun d hd hdwild => absurd hdwild ?_)
          exact Option.some.inj hd ▸ hwild

theorem alternationCount_collapse (p : List Char) :
    alternationCount (collapse p) = alternationCount p := by
  apply alternationsAfter_collapseAfter
  intro c hnone
  cases hnone

theorem wildcardCount_collapse_le (p : List Char) : wildcardCount (collapse p) ≤ wildcardCount p :=
  (collapse_sublist p).countP_le

/-- The first wildcard of a pattern stays, so what collapses to a text without wildcards is the
text. -/
theorem collapseAfter_of_plain {previous : Option Char} {p : List Char}
    (hprevious : ∀ c, previous = some c → isWildcard c = false)
    (hplain : ∀ c ∈ collapseAfter previous p, isWildcard c = false) :
    collapseAfter previous p = p := by
  induction p generalizing previous with
  | nil => rfl
  | cons c p ih =>
      rw [collapseAfter] at hplain ⊢
      split at hplain
      next hrepeats =>
        obtain ⟨hwild, heq⟩ := Bool.and_eq_true_iff.mp hrepeats
        rw [hprevious c (beq_iff_eq.mp heq)] at hwild
        cases hwild
      next hkept =>
        obtain ⟨hc, hp⟩ := List.forall_mem_cons.mp hplain
        rw [if_neg hkept, ih (fun d hd => Option.some.inj hd ▸ hc) hp]

theorem collapse_of_plain {p : List Char} (hplain : ∀ c ∈ collapse p, isWildcard c = false) :
    collapse p = p := collapseAfter_of_plain nofun hplain

end Pattern

/-! ## Numbers -/

namespace Text

/-- Only blanks are trimmed. -/
theorem mem_trimBlanks_or_isBlank {s : List Char} {c : Char} (hc : c ∈ s) :
    c ∈ trimBlanks s ∨ isBlank c := by
  have hskip : ∀ {s : List Char}, c ∈ s → c ∈ skipBlanks s ∨ isBlank c := by
    intro s hc
    rw [← List.takeWhile_append_dropWhile (p := isBlank) (l := s)] at hc
    rcases List.mem_append.mp hc with hc | hc
    · exact .inr (List.mem_takeWhile_imp hc)
    · exact .inl hc
  rcases hskip hc with hc | hblank
  · rcases hskip (List.mem_reverse.mpr hc) with hc | hblank
    · exact .inl (List.mem_reverse.mpr hc)
    · exact .inr hblank
  · exact .inr hblank

end Text

/-- A text that spells a number has no wildcards. -/
theorem isWildcard_of_number? {s : String} {x : Float} (h : (Value.text s).number? = some x) :
    ∀ c ∈ s.toList, isWildcard c = false := by
  intro c hc
  by_contra hwild
  rw [Bool.not_eq_false, isWildcard, Bool.or_eq_true, beq_iff_eq, beq_iff_eq] at hwild
  rcases Text.mem_trimBlanks_or_isBlank hc with hc | hblank
  · have hnumber := Number.isNumberChar_of_readFloat? h c hc
    rcases hwild with rfl | rfl <;> exact absurd hnumber (by decide)
  · rcases hwild with rfl | rfl <;> exact absurd hblank (by decide)

/-! ## Comparisons -/

namespace Comparison

/-- Either a comparison has no pattern and stays as it is, or its pattern is collapsed. -/
theorem collapse_cases (c : Comparison) :
    Policy.patternOf? c = none ∧ c.collapse = c ∨
      ∃ s, Policy.patternOf? c = some s ∧
        c.collapse = { c with value := .text (String.ofList (Pattern.collapse s.toList)) } := by
  unfold collapse
  cases Policy.patternOf? c with
  | none => exact .inl ⟨rfl, rfl⟩
  | some s => exact .inr ⟨s, rfl, rfl⟩

@[simp]
theorem field_collapse (c : Comparison) : c.collapse.field = c.field := by
  rcases c.collapse_cases with ⟨-, heq⟩ | ⟨s, -, heq⟩ <;> rw [heq]

@[simp]
theorem operator_collapse (c : Comparison) : c.collapse.operator = c.operator := by
  rcases c.collapse_cases with ⟨-, heq⟩ | ⟨s, -, heq⟩ <;> rw [heq]

/-- Collapsing leaves a value as it is, or makes a text from a text that is no shorter. -/
theorem value_collapse (c : Comparison) :
    c.collapse.value = c.value ∨
      ∃ s s' : String, c.value = .text s ∧ c.collapse.value = .text s' ∧ s'.length ≤ s.length := by
  rcases c.collapse_cases with ⟨-, heq⟩ | ⟨s, hpattern, heq⟩
  · exact .inl (congrArg value heq)
  · refine .inr ⟨s, _, (Policy.patternOf?_eq_some_iff.mp hpattern).2, congrArg value heq, ?_⟩
    rw [String.length_ofList, ← String.length_toList]
    exact (Pattern.collapse_sublist s.toList).length_le

theorem patternOf?_collapse {c : Comparison} {s : String} (hpattern : Policy.patternOf? c = some s) :
    Policy.patternOf? c.collapse = some (String.ofList (Pattern.collapse s.toList)) := by
  rw [Policy.patternOf?_eq_some_iff, operator_collapse]
  refine ⟨(Policy.patternOf?_eq_some_iff.mp hpattern).1, ?_⟩
  rw [collapse, hpattern]

theorem collapse_collapse (c : Comparison) : c.collapse.collapse = c.collapse := by
  rcases c.collapse_cases with ⟨-, heq⟩ | ⟨s, hpattern, heq⟩
  · rw [heq, heq]
  · rw [collapse, patternOf?_collapse hpattern]
    dsimp only
    rw [String.toList_ofList, Pattern.collapse_collapse, heq]

end Comparison

/-! ## Trees -/

namespace Query

/-- Collapses the wildcards of all patterns of a query, by recursion on the tree. -/
def collapse : Query → Query
  | comparison c => comparison c.collapse
  | raw r => raw r
  | unary op q => unary op q.collapse
  | binary op l r => binary op l.collapse r.collapse

/-- Working off a place collapses the subtree there. -/
theorem collapseFrom_cons {q node : Query} {place : Place} (h : q.at? place = some node)
    (agenda : List Place) :
    q.collapseFrom (place :: agenda) = (q.replaceAt place node.collapse).collapseFrom agenda := by
  induction node generalizing q place agenda with
  | comparison c =>
      rw [collapseFrom, h]
      rfl
  | raw r =>
      rw [collapseFrom, h, collapse, replaceAt_of_at? h]
  | unary op operand ih =>
      have hoperand : q.at? (place ++ [.left]) = some operand := at?_concat h .left
      rw [collapseFrom, h]
      dsimp only
      rw [ih hoperand, replaceAt_append h]
      rfl
  | binary op l r ihl ihr =>
      have hright : q.at? (place ++ [.right]) = some r := at?_concat h .right
      -- once the right operand is collapsed, the left one is still in its place
      have hnode : (q.replaceAt place (binary op l r.collapse)).at? place =
          some (binary op l r.collapse) := at?_replaceAt h
      have hleft : (q.replaceAt place (binary op l r.collapse)).at? (place ++ [.left]) = some l :=
        at?_concat hnode .left
      calc q.collapseFrom (place :: agenda)
          = q.collapseFrom ((place ++ [.right]) :: (place ++ [.left]) :: agenda) := by
            rw [collapseFrom, h]
        _ = (q.replaceAt place (binary op l r.collapse)).collapseFrom
              ((place ++ [.left]) :: agenda) := by
            rw [ihr hright, replaceAt_append h]
            rfl
        _ = ((q.replaceAt place (binary op l r.collapse)).replaceAt place
              (binary op l.collapse r.collapse)).collapseFrom agenda := by
            rw [ihl hleft, replaceAt_append hnode]
            rfl
        _ = (q.replaceAt place (binary op l r).collapse).collapseFrom agenda := by
            rw [replaceAt_replaceAt h]
            rfl

/-- The agenda collapses what recursion on the tree collapses. -/
theorem sanitize_eq_collapse (q : Query) : q.sanitize = q.collapse := by
  have hroot : q.at? [] = some q := rfl
  rw [sanitize, collapseFrom_cons hroot, collapseFrom]
  rfl

theorem collapse_collapse (q : Query) : q.collapse.collapse = q.collapse := by
  induction q with
  | comparison c => exact congrArg comparison c.collapse_collapse
  | raw r => rfl
  | unary op q ih => exact congrArg (unary op) ih
  | binary op l r ihl ihr => exact congrArg₂ (binary op) ihl ihr

theorem leafComparisons_collapse (q : Query) :
    q.collapse.leafComparisons = q.leafComparisons.map Comparison.collapse := by
  induction q with
  | comparison c => rfl
  | raw r => rfl
  | unary op q ih => exact ih
  | binary op l r ihl ihr =>
      rw [collapse, leafComparisons, leafComparisons, ihl, ihr, List.map_append]

theorem leafDepths_collapse (ancestors : Nat) (q : Query) :
    q.collapse.leafDepths ancestors = q.leafDepths ancestors := by
  induction q generalizing ancestors with
  | comparison c => rfl
  | raw r => rfl
  | unary op q ih => exact ih _
  | binary op l r ihl ihr => rw [collapse, leafDepths, leafDepths, ihl, ihr]

end Query

end QueryFilter
