import QueryFilter.Proofs.Query.Descent

/-!
# The descent goes on, and closes what it opens

Since the descent agrees with the readers, it ends, and what it does on its way can be read off the
cursor (`Query.parse_descends`).  A part that is read has taken a character at least, and what it
has opened is closed behind it, and a turn of a loop has taken a character unless it ends the loop
(`Cursor.ReadsOn`).

A text is refused because too much is nested where one place too many is open at the same time, and
only there (`OpensTooMuch`): each of these places lies inside the one that was opened before it, and
none of them is read to its end.  How many places are opened and closed one after another does not
matter.
-/

namespace QueryFilter

open Text (skipBlanks)
open Reading

/-! ## Turns -/

section Turns

variable {x : Reading Query} {c : Cursor}

/-- A turn that takes an operand, whatever was skipped in front of it, has gone on at least as far
as the operand goes. -/
theorem turnAdvances_andThen {s : List Char} (hs : s <:+ c.rest)
    (hx : (x ⟨s, c.opened⟩).Advances ⟨s, c.opened⟩) (join : Query → Query) :
    ((x ⟨s, c.opened⟩).andThen fun right =>
      (pure (.again (join right)) : Reading (Round Query Query))).TurnAdvances c := by
  cases ho : x ⟨s, c.opened⟩ with
  | done right c' =>
      rw [ho] at hx
      exact ⟨⟨hx.suffix.trans hs, hx.opened⟩, Nat.lt_of_lt_of_le hx.shorter hs.length_le⟩
  | fault f c' => exact trivial
  | exhausted => exact (ho ▸ hx : (Outcome.exhausted : Outcome Query).Advances _)

theorem disjunctTurn_advances
    (hx : ∀ s, s <:+ c.rest → (x ⟨s, c.opened⟩).Advances ⟨s, c.opened⟩) (left : Query) :
    (disjunctTurn x left c).TurnAdvances c := by
  simp only [disjunctTurn, bind_run, skip_run, andThen_done]
  cases hor : orSign? (skipBlanks c.rest) with
  | none =>
      rw [sign_of_none _ hor]
      exact ⟨skipBlanks_suffix _, rfl⟩
  | some s =>
      have hsuffix : s <:+ c.rest := (suffix_of_orSign? hor).trans (skipBlanks_suffix _)
      rw [sign_of_some _ hor]
      exact turnAdvances_andThen hsuffix (hx s hsuffix) left.or

theorem conjunctTurn_advances
    (hx : ∀ s, s <:+ c.rest → (x ⟨s, c.opened⟩).Advances ⟨s, c.opened⟩) (left : Query) :
    (conjunctTurn x left c).TurnAdvances c := by
  simp only [conjunctTurn, bind_run, skip_run, andThen_done, look_run]
  split
  next => exact ⟨skipBlanks_suffix _, rfl⟩
  next =>
    have hsuffix : skipAndSign (skipBlanks c.rest) <:+ c.rest :=
      (skipAndSign_suffix _).trans (skipBlanks_suffix _)
    rw [bind_run, sign_andThen]
    exact turnAdvances_andThen hsuffix (hx _ hsuffix) left.and

theorem plusTurn_advances : (plusTurn () c).TurnAdvances c := by
  simp only [plusTurn, bind_run, skip_run, andThen_done]
  have hskip := skipBlanks_suffix c.rest
  cases hplus : plusSign? (skipBlanks c.rest) with
  | none =>
      rw [sign_of_none _ hplus]
      exact ⟨hskip, rfl⟩
  | some rest =>
      obtain ⟨-, hsuffix, hlt⟩ := skipPlusSigns_of_plusSign? hplus
      rw [sign_of_some _ hplus]
      exact ⟨⟨hsuffix.trans hskip, rfl⟩, Nat.lt_of_lt_of_le hlt hskip.length_le⟩

theorem groupTurn_advances (items : List Value) : (groupTurn items c).TurnAdvances c := by
  simp only [groupTurn, bind_run, skip_run, andThen_done]
  have hskip := skipBlanks_suffix c.rest
  cases hclose : symbol? ")" (skipBlanks c.rest) with
  | some rest =>
      rw [sign_of_some _ hclose]
      exact ⟨(suffix_of_symbol? hclose).trans hskip, rfl⟩
  | none =>
      rw [sign_of_none _ hclose]
      simp only [andThen_done, Bool.false_eq_true, if_false, bind_run, skip_run, look_run]
      have hsuffix : nextGroupValue items.isEmpty (skipBlanks c.rest) <:+ c.rest :=
        (nextGroupValue_suffix _ _).trans hskip
      generalize nextGroupValue items.isEmpty (skipBlanks c.rest) = s at hsuffix
      cases groupWordFault? s with
      | some fault => exact trivial
      | none =>
          dsimp only
          cases hitem : readGroupValue s with
          | error fault =>
              rw [bind_run, take_of_error _ hitem]
              exact trivial
          | ok found =>
              obtain ⟨item, rest⟩ := found
              have hlt := length_of_readGroupValue hitem
              have hrest := (readGroupValue_staysIn s).of_ok hitem
              rw [bind_run, take_of_ok _ hitem]
              exact ⟨⟨hrest.trans hsuffix, rfl⟩, Nat.lt_of_lt_of_le hlt hsuffix.length_le⟩

end Turns

/-! ## Progress -/

/-- What the descent does from a cursor, where its work is bounded. -/
structure Cursor.ReadsOn (c : Cursor) (bound : Nat) : Prop where
  /-- Every part ends within the bound, as its reader does with the levels that are left. -/
  reads : ∀ part : Part,
    (part.descend bound c).found? = some (part.read (maxNesting - c.opened.length) c.rest)
  /-- A part that is read takes a character at least, and leaves open what was open. -/
  advances : ∀ part : Part, (part.descend bound c).Advances c
  /-- Every turn of a loop takes a character at least, or ends the loop. -/
  disjuncts : ∀ left, (disjunctTurn (Part.conjunction.descend bound) left c).TurnAdvances c
  conjuncts : ∀ left, (conjunctTurn (Part.operand.descend bound) left c).TurnAdvances c
  plusSigns : (plusTurn () c).TurnAdvances c
  group : ∀ items, (groupTurn items c).TurnAdvances c
  /-- The loop of a group ends within the bound, as the reader of its values does. -/
  readsGroup : (loop groupTurn bound [] c).found? = some (readGroupValues true c.rest)

/-- A bound of four times the text that remains, and five more, is enough. -/
theorem Cursor.readsOn {c : Cursor} {bound : Nat} (hlevel : c.opened.length ≤ maxNesting)
    (hbound : 4 * c.rest.length + 5 ≤ bound) : c.ReadsOn bound := by
  -- a turn reads an operand from further on, so the agreement is needed at every ending of the text
  have hagrees : ∀ (part : Part) (s : List Char), s <:+ c.rest →
      Agrees ⟨s, c.opened⟩ (part.descend bound ⟨s, c.opened⟩)
        (part.read (maxNesting - c.opened.length) s) := by
    intro part s hs
    have hle := hs.length_le
    have hweight := part.weight_le
    exact Part.agreesWithin bound part s c.opened hlevel (by omega)
  have hadvances : ∀ (part : Part) (s : List Char), s <:+ c.rest →
      (part.descend bound ⟨s, c.opened⟩).Advances ⟨s, c.opened⟩ := fun part s hs =>
    (hagrees part s hs).advances fun _ _ h => Part.length_of_read h
  constructor
  case reads => exact fun part => (hagrees part c.rest List.suffix_rfl).found?
  case advances => exact fun part => hadvances part c.rest List.suffix_rfl
  case disjuncts => exact disjunctTurn_advances (hadvances .conjunction)
  case conjuncts => exact conjunctTurn_advances (hadvances .operand)
  case plusSigns => exact plusTurn_advances
  case group => exact groupTurn_advances
  case readsGroup =>
    have hgroup := agrees_group hlevel (show c.rest.length < bound by omega) []
    rw [behindItems_nil] at hgroup
    exact hgroup.found?

/-! ## Depth -/

/-- The descent through a text opens one parenthesis or negation too many at a place, while all that
it is nested in are open. -/
def OpensTooMuch (s place : List Char) : Prop :=
  ∃ fault rest outer,
    Part.disjunction.descend (4 * s.length + 5) ⟨s, []⟩ = .fault fault ⟨rest, place :: outer⟩ ∧
      (place :: outer).length = maxNesting + 1 ∧ AreNested fault 0 (place :: outer) s

theorem OpensTooMuch.suffix {s place : List Char} (h : OpensTooMuch s place) : place <:+ s := by
  obtain ⟨fault, -, outer, -, -, hnested⟩ := h
  exact hnested.suffix place List.mem_cons_self

/-- The reader of a disjunction finds that too much is nested exactly if the descent opens too much,
and at that place. -/
theorem readDisjunction_tooDeep_iff {s : List Char} {left : Nat} :
    (∃ fault, readDisjunction (operand maxNesting) s = .error fault ∧
        fault.cause.kind = .nestingTooDeep ∧ fault.left = left) ↔
      ∃ place, place.length = left ∧ OpensTooMuch s place := by
  have hagrees := Part.agreesWithin (4 * s.length + 5) .disjunction s [] (Nat.zero_le _)
    (Nat.lt_succ_self _)
  change Agrees _ _ (readDisjunction (operand maxNesting) s) at hagrees
  constructor
  · rintro ⟨fault, hread, hkind, rfl⟩
    rw [hread] at hagrees
    obtain ⟨⟨rest, opened⟩, hdescend, hfails⟩ := hagrees
    obtain ⟨places, hopened, hnested⟩ := hfails.newer
    rw [List.append_nil] at hopened
    subst hopened
    have hlength := hfails.deep_iff.mp hkind
    cases opened with
    | nil => cases hlength
    | cons place outer =>
        have hleft := Option.some.inj (hfails.innermost hkind)
        exact ⟨place, hleft, fault, rest, outer, hdescend, hlength, hnested⟩
  · rintro ⟨place, rfl, fault, rest, outer, hdescend, hlength, -⟩
    cases hread : readDisjunction (operand maxNesting) s with
    | ok found =>
        rw [hread, hdescend] at hagrees
        cases hagrees.2
    | error fault' =>
        rw [hread, hdescend] at hagrees
        obtain ⟨c', heq, hfails⟩ := hagrees
        cases heq
        have hkind := hfails.deep_iff.mpr hlength
        exact ⟨fault, rfl, hkind, (Option.some.inj (hfails.innermost hkind)).symm⟩

/-- A blank text fails otherwise. -/
theorem readQuery_of_blank {s : List Char} (hblank : skipBlanks s = []) :
    readQuery maxNesting s = .error (.here .missingTerm []) := by
  have hplus : skipPlusSigns s = [] := by
    rw [← skipPlusSigns_skipBlanks, hblank]
    rfl
  have hnot : notSign? [] = none := by decide
  rw [readQuery, readDisjunction_eq, readConjunction_eq, operand_run, readOperandWith_eq, hplus,
    hnot]
  rfl

/-- A query text is refused because too much is nested exactly if the descent opens too much. -/
theorem readQuery_tooDeep_iff {s : List Char} {left : Nat} :
    (∃ fault, readQuery maxNesting s = .error fault ∧
        fault.cause.kind = .nestingTooDeep ∧ fault.left = left) ↔
      ∃ place, place.length = left ∧ OpensTooMuch s place := by
  rw [← readDisjunction_tooDeep_iff]
  unfold readQuery
  cases hread : readDisjunction (operand maxNesting) s with
  | error fault => simp only [Except.error.injEq]
  | ok found =>
      obtain ⟨q, rest⟩ := found
      dsimp only
      refine ⟨?_, nofun⟩
      rintro ⟨fault, herror, hkind, -⟩
      split at herror
      · cases herror
      · cases herror
        cases hkind

/-- Nothing but the reading of a text that is not too long refuses it because too much is nested. -/
theorem parse_tooDeep_iff {text : String} {position : Nat} :
    (∃ e, Query.parse text = .error e ∧ e.kind = .nestingTooDeep ∧ e.position = position) ↔
      text.toList.length ≤ maxInputLength ∧
        ∃ fault, readQuery maxNesting text.toList = .error fault ∧
          fault.cause.kind = .nestingTooDeep ∧ text.toList.length - fault.left = position := by
  unfold Query.parse
  dsimp only
  generalize text.toList = s
  split
  next hlong =>
    refine ⟨?_, fun h => absurd h.1 (Nat.not_le_of_lt hlong)⟩
    rintro ⟨e, herror, hkind, -⟩
    cases herror
    cases hkind
  next hshort =>
    split
    next hblank =>
      constructor
      · rintro ⟨e, herror, hkind, -⟩
        cases herror
        cases hkind
      · rintro ⟨-, fault, hread, hkind, -⟩
        rw [readQuery_of_blank (List.isEmpty_iff.mp hblank)] at hread
        cases hread
        cases hkind
    next =>
      constructor
      · rintro ⟨e, herror, hkind, rfl⟩
        obtain ⟨fault, hread, rfl⟩ := mapError_eq_error.mp herror
        exact ⟨Nat.le_of_not_lt hshort, fault, hread, hkind, rfl⟩
      · rintro ⟨-, fault, hread, hkind, rfl⟩
        exact ⟨_, mapError_eq_error.mpr ⟨fault, hread, rfl⟩, hkind, rfl⟩

/-- **The descent goes on, and closes what it opens.**  Wherever a cursor stands in a text, and
whatever is open there as long as that is not too much, every part is read within a bound of the
text that remains, as its reader reads it.  A part that is read takes at least one character, and
leaves open what was open, and every turn of a loop takes at least one character or ends the loop.

The reader of texts refuses a text because too much is nested exactly if one parenthesis or negation
too many is open at the same time, and then it reports the innermost one. -/
theorem Query.parse_descends :
    (∀ (c : Cursor) (bound : Nat), c.opened.length ≤ maxNesting → 4 * c.rest.length + 5 ≤ bound →
      c.ReadsOn bound) ∧
    ∀ (text : String) (position : Nat),
      (∃ e, Query.parse text = .error e ∧ e.kind = .nestingTooDeep ∧ e.position = position) ↔
        text.toList.length ≤ maxInputLength ∧
          ∃ place, position + place.length = text.toList.length ∧
            OpensTooMuch text.toList place := by
  refine ⟨fun c bound => Cursor.readsOn, fun text position => ?_⟩
  rw [parse_tooDeep_iff]
  constructor
  · rintro ⟨hlength, fault, hread, hkind, rfl⟩
    obtain ⟨place, hleft, hopens⟩ := readQuery_tooDeep_iff.mp ⟨fault, hread, hkind, rfl⟩
    have hle := hopens.suffix.length_le
    exact ⟨hlength, place, by omega, hopens⟩
  · rintro ⟨hlength, place, hplace, hopens⟩
    obtain ⟨fault, hread, hkind, hleft⟩ := readQuery_tooDeep_iff.mpr ⟨place, rfl, hopens⟩
    exact ⟨hlength, fault, hread, hkind, by omega⟩

/-- Groups that are closed do not count, and of the openings behind them the sixty-fifth is one too
many. -/
theorem Query.parse_descends_groups :
    let groups := (List.replicate 3 "(a:1) ".toList).flatten
    let nested := (List.replicate 32 "-(".toList).flatten ++ "-a:1".toList
    let text := String.ofList (groups ++ nested)
    (Cursor.mk "a:1".toList []).ReadsOn 17 ∧ Query.parse text = .error ⟨.text .tooDeep, 82⟩ ∧
      ∃ place, 82 + place.length = text.toList.length ∧ OpensTooMuch text.toList place := by
  intro groups nested text
  have hfails : (Query.parse text).map (fun _ => ()) = .error ⟨.text .tooDeep, 82⟩ := by
    decide +kernel
  clear_value text
  have herror := map_eq_error.mp hfails
  exact ⟨parse_descends.1 _ _ (by decide) (by decide), herror,
    ((parse_descends.2 _ _).mp ⟨_, herror, rfl, rfl⟩).2⟩

end QueryFilter
