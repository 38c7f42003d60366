import QueryFilter.Proofs.Query.Leaves
import QueryFilter.Proofs.Steps
import QueryFilter.Query.Filter
import QueryFilter.Query.Grammar

/-!
# Induction over the queries that are read

Queries are built from comparisons by `and`, `or` and `not`, whether they are read from a text or
from a document.  So a property that connectives keep (`Query.IsKept`) holds of every query that is
read if it holds of the comparisons in it: `parse_induction` and `parseFilterWith_induction`.

The readers of texts loop within one level of nesting and recurse on the levels that remain, and so
the first proof is an induction on the levels, around inductions on the loops.  The second is an
induction on the levels only.
-/

namespace QueryFilter

open Text (skipBlanks)

/-- Connectives keep a property if each has the operands that belong to it. -/
structure Query.IsKept (P : Query → Prop) : Prop where
  and {l r : Query} (hl : P l) (hr : P r) : P (l.and r)
  or {l r : Query} (hl : P l) (hr : P r) : P (l.or r)
  not {q : Query} (hq : P q) : P q.not

theorem Query.isKept_isTreeOf (P : Comparison → Prop) : Query.IsKept (Query.IsTreeOf P) where
  and hl hr := ⟨nofun, hl, hr⟩
  or hl hr := ⟨nofun, hl, hr⟩
  not hq := ⟨rfl, hq⟩

/-! ## Texts -/

theorem readQuery_eq_ok {levels : Nat} {s : List Char} {q : Query} :
    readQuery levels s = .ok q ↔
      ∃ rest, readDisjunction (operand levels) s = .ok (q, rest) ∧ skipBlanks rest = [] := by
  unfold readQuery
  split
  next herror =>
    refine ⟨nofun, ?_⟩
    rintro ⟨rest, hread, -⟩
    rw [herror] at hread
    cases hread
  next q' rest hread =>
    rw [hread]
    constructor
    · intro h
      split at h
      next hend =>
        cases h
        exact ⟨rest, rfl, hend⟩
      · cases h
    · rintro ⟨_, ⟨⟩, hend⟩
      rw [hend]

theorem Query.parse_eq_ok {text : String} {q : Query} :
    Query.parse text = .ok q ↔ text.length ≤ maxInputLength ∧ skipBlanks text.toList ≠ [] ∧
      readQuery maxNesting text.toList = .ok q := by
  unfold Query.parse
  dsimp only
  rw [String.length_toList]
  split
  next hlong => exact ⟨nofun, fun h => absurd h.1 (Nat.not_le_of_lt hlong)⟩
  next hlong =>
    split
    next hempty => exact ⟨nofun, fun h => absurd (List.isEmpty_iff.mp hempty) h.2.1⟩
    next hempty =>
      rw [List.isEmpty_iff] at hempty
      rw [mapError_eq_ok]
      exact ⟨fun h => ⟨Nat.le_of_not_lt hlong, hempty, h⟩, fun h => h.2.2⟩

variable {P : Query → Prop} (hkept : Query.IsKept P)

section Text

/-- All queries that a reader gives have a property. -/
def Reader.Gives (operand : Reader Query) (P : Query → Prop) : Prop :=
  ∀ {s rest : List Char} {q : Query}, operand.run s = .ok (q, rest) → P q

section Level
variable {operand : Reader Query} (hoperand : operand.Gives P)
include hkept hoperand

theorem readConjuncts_gives {left q : Query} {s rest : List Char} (hleft : P left)
    (h : readConjuncts operand left s = .ok (q, rest)) : P q := by
  fun_induction readConjuncts operand left s with
  | case1 => exact (Prod.mk.inj (Except.ok.inj h)).1 ▸ hleft
  | case2 => cases h
  | case3 left s s₁ _ right rest hright ih => exact ih (hkept.and hleft (hoperand hright)) h

theorem readConjunction_gives {q : Query} {s rest : List Char}
    (h : readConjunction operand s = .ok (q, rest)) : P q := by
  unfold readConjunction at h
  split at h
  · cases h
  next hfirst => exact readConjuncts_gives hkept hoperand (hoperand hfirst) h

theorem readDisjuncts_gives {left q : Query} {s rest : List Char} (hleft : P left)
    (h : readDisjuncts operand left s = .ok (q, rest)) : P q := by
  fun_induction readDisjuncts operand left s with
  | case1 => exact (Prod.mk.inj (Except.ok.inj h)).1 ▸ hleft
  | case2 => cases h
  | case3 left s s₁ _ _ right rest hright ih =>
      exact ih (hkept.or hleft (readConjunction_gives hkept hoperand hright)) h

theorem readDisjunction_gives {q : Query} {s rest : List Char}
    (h : readDisjunction operand s = .ok (q, rest)) : P q := by
  unfold readDisjunction at h
  split at h
  · cases h
  next hfirst =>
    exact readDisjuncts_gives hkept hoperand (readConjunction_gives hkept hoperand hfirst) h

end Level

theorem eq_of_closeParenthesis {q q' : Query} {s rest : List Char}
    (h : closeParenthesis q s = .ok (q', rest)) : q = q' := by
  unfold closeParenthesis at h
  split at h
  · cases h
  · split at h
    · exact (Prod.mk.inj (Except.ok.inj h)).1
    · cases h

variable (hcomparison : ∀ {s rest : List Char} {c : Comparison},
  readComparison s = .ok (c, rest) → P (.comparison c))
include hkept hcomparison

theorem readPrimary_gives {inner : Option (Reader Query)}
    (hinner : ∀ operand ∈ inner, operand.Gives P) {q : Query} {s rest : List Char}
    (h : readPrimary inner s = .ok (q, rest)) : P q := by
  unfold readPrimary at h
  split at h
  · cases h
  · split at h
    · split at h
      · cases h
      next operand =>
        split at h
        · cases h
        next hinside =>
          exact eq_of_closeParenthesis h ▸ readDisjunction_gives hkept (hinner operand rfl) hinside
    · split at h
      · cases h
      · split at h
        · cases h
        next hread => exact (Prod.mk.inj (Except.ok.inj h)).1 ▸ hcomparison hread

theorem readOperandWith_gives {inner : Option (Reader Query)}
    (hinner : ∀ operand ∈ inner, operand.Gives P) {q : Query} {s rest : List Char}
    (h : readOperandWith inner s = .ok (q, rest)) : P q := by
  unfold readOperandWith at h
  dsimp only at h
  split at h
  · exact readPrimary_gives hkept hcomparison hinner h
  · split at h
    · cases h
    next operand =>
      split at h
      · cases h
      next hoperand =>
        exact (Prod.mk.inj (Except.ok.inj h)).1 ▸ hkept.not (hinner operand rfl hoperand)

theorem operand_gives (levels : Nat) : (operand levels).Gives P := by
  induction levels with
  | zero =>
      intro s rest q h
      exact readOperandWith_gives hkept hcomparison (fun _ hnone => absurd hnone (Option.not_mem_none _)) h
  | succ levels ih =>
      intro s rest q h
      refine readOperandWith_gives hkept hcomparison ?_ h
      rintro _ ⟨⟩
      exact ih

/-- What holds of every comparison and is kept by connectives holds of every query text. -/
theorem Query.parse_induction {text : String} {q : Query} (h : Query.parse text = .ok q) : P q := by
  obtain ⟨rest, hread, -⟩ := readQuery_eq_ok.mp (Query.parse_eq_ok.mp h).2.2
  exact readDisjunction_gives hkept (operand_gives hkept hcomparison maxNesting) hread

end Text

/-! ## Documents -/

section Documents

include hkept

theorem joinFilters_gives {op : Connective} {cause : ParseError.FilterCause} {queries : List Query}
    (hqueries : ∀ q ∈ queries, P q) {q : Query} (h : joinFilters op cause queries = .ok q) : P q := by
  have hstep : ∀ l r, P l → P r → P ((if op = .or then Query.or else Query.and) l r) := by
    intro l r hl hr
    split
    · exact hkept.or hl hr
    · exact hkept.and hl hr
  have hfold : ∀ (others : List Query) (first : Query), P first → (∀ q ∈ others, P q) →
      P (others.foldl (if op = .or then Query.or else Query.and) first) := by
    intro others
    induction others with
    | nil => exact fun first hfirst _ => hfirst
    | cons next others ih =>
        intro first hfirst hothers
        exact ih _ (hstep first next hfirst (hothers next List.mem_cons_self))
          fun q hq => hothers q (List.mem_cons_of_mem _ hq)
  unfold joinFilters at h
  cases queries with
  | nil => cases h
  | cons first others =>
      cases h
      exact hfold others first (hqueries first List.mem_cons_self)
        fun q hq => hqueries q (List.mem_cons_of_mem _ hq)

theorem joinFilters_mapM_gives {α : Type} {f : α → Except ParseError Query}
    (hf : ∀ {a : α} {q : Query}, f a = .ok q → P q) {op : Connective}
    {cause : ParseError.FilterCause} {as : List α} {q : Query}
    (h : (do joinFilters op cause (← as.mapM f)) = .ok q) : P q := by
  obtain ⟨queries, hqueries, h⟩ := bind_eq_ok.mp h
  refine joinFilters_gives hkept (fun q hq => ?_) h
  obtain ⟨a, -, ha⟩ := exists_of_mem_mapM hqueries hq
  exact hf ha

variable (hvalue : ∀ {field : FieldPath} {operator : Operator} {key : String} {d : Document}
  {v : Value}, Value.forOperator operator key d = .ok v →
    P (.comparison ⟨field, operator, v, false⟩))
include hvalue

theorem readFieldMember_gives {key : String} {d : Document} {q : Query}
    (h : readFieldMember key d = .ok q) : P q := by
  have hmember : ∀ {field : FieldPath} {member : String × Document} {q : Query},
      readOperatorMember field member = .ok q → P q := by
    rintro field ⟨key, d⟩ q h
    unfold readOperatorMember at h
    dsimp only at h
    split at h
    · cases h
    · split at h
      · cases h
      next operator _ =>
        obtain ⟨v, hv, h⟩ := bind_eq_ok.mp h
        cases h
        exact hvalue hv
  have hscalar : ∀ {field : FieldPath} {d : Document} {q : Query},
      (do
        let value ← (Value.scalarOfDocument d).mapError ParseError.ofFilter
        .ok (.comparison ⟨field, .eq, value, false⟩)) = Except.ok q → P q := by
    intro field d q h
    obtain ⟨v, hv, h⟩ := bind_eq_ok.mp h
    cases h
    have hequal : Value.forOperator .eq key d = .ok v := hv
    exact hvalue hequal
  obtain ⟨field, -, h⟩ := bind_eq_ok.mp h
  cases d with
  | object members => exact joinFilters_mapM_gives hkept hmember h
  | array items => cases h
  | null | bool | integer | float | string => exact hscalar h

theorem readFilter_gives {levels : Nat} {d : Document} {q : Query}
    (h : readFilter levels d = .ok q) : P q := by
  induction levels generalizing d q with
  | zero => cases h
  | succ levels ih =>
      have hlist : ∀ {op : Connective} {key : String} {d : Document} {q : Query},
          readFilterList (readFilter levels) op key d = .ok q → P q := by
        intro op key d q h
        unfold readFilterList at h
        split at h
        · exact joinFilters_mapM_gives hkept ih h
        · cases h
      have hmember : ∀ {member : String × Document} {q : Query},
          readMember (readFilter levels) member = .ok q → P q := by
        rintro ⟨key, d⟩ q h
        unfold readMember at h
        dsimp only at h
        split at h
        · exact hlist h
        · split at h
          · exact hlist h
          · split at h
            · obtain ⟨inner, hinner, rfl⟩ := map_eq_ok.mp h
              exact hkept.not (ih hinner)
            · split at h
              · cases h
              · exact readFieldMember_gives hkept hvalue h
      cases d with
      | object members => exact joinFilters_mapM_gives hkept hmember h
      | null | bool | integer | float | string | array => cases h

/-- What holds of every comparison and is kept by connectives holds of every filter document. -/
theorem Query.parseFilterWith_induction {read? : String → Option Document} {text : String}
    {q : Query} (h : Query.parseFilterWith read? text = .ok q) : P q := by
  unfold Query.parseFilterWith at h
  split at h
  · cases h
  · split at h
    · exact readFilter_gives hkept hvalue h
    · cases h

end Documents

end QueryFilter
