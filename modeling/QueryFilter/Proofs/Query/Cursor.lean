import QueryFilter.Proofs.Query.Positions

/-!
# Reading with a cursor

The readers of query texts are given the text that remains and the number of levels that they may go
in, and give back the text that they leave.  Here reading moves a cursor, which also keeps the
parentheses and negations that are open: one is put on top where it is opened, and taken off where
it is closed.  A reading gives up when its work exceeds a bound, so that loops and recursion need no
other reason to end.

A reading agrees with a reader (`Agrees`) if it gives the reader's result, leaves the cursor where
the reader stops, and has everything closed that it has opened.  If the reader finds a fault, the
reading finds the same one, and what it has open then is nested in the text, and one too many
exactly if that is the fault (`Cursor.FailsAt`).
-/

namespace QueryFilter

/-! ## Cursors -/

/-- Where a reading stands: the text that remains, and the places of the parentheses and negations
that are open, the innermost first.  A place is the text from it on. -/
structure Cursor where
  rest : List Char
  opened : List (List Char)

namespace Cursor

/-- A cursor stands at or behind another one in its text, and the same is open. -/
structure Reaches (c c' : Cursor) : Prop where
  suffix : c'.rest <:+ c.rest
  opened : c'.opened = c.opened

/-- A cursor stands at least one character behind another one in its text, and the same is open. -/
structure Passes (c c' : Cursor) : Prop extends Reaches c c' where
  shorter : c'.rest.length < c.rest.length

end Cursor

/-- At this place a parenthesis is opened, or something is negated. -/
def Opens (place : List Char) : Prop := place.head? = some '(' ∨ (notSign? place).isSome

/-- Places in a text at which something is opened, the innermost first.  Each lies inside the next
one, and what begins there is not read to its end: with the levels that are left where `base` places
are open around all of them, it runs into the fault. -/
structure AreNested (fault : Fault) (base : Nat) (places : List (List Char)) (s : List Char) :
    Prop where
  inside : places.Pairwise fun inner outer => inner <:+ outer ∧ inner.length < outer.length
  suffix : ∀ place ∈ places, place <:+ s
  opens : ∀ place ∈ places, Opens place
  unfinished : ∀ i place, places.reverse[i]? = some place →
    (operand (maxNesting - (base + i))).run place = .error fault

section AreNested

variable {fault : Fault} {base : Nat} {places : List (List Char)} {place s s' : List Char}

theorem AreNested.nil (fault : Fault) (base : Nat) (s : List Char) : AreNested fault base [] s :=
  ⟨List.Pairwise.nil, nofun, nofun, nofun⟩

theorem AreNested.mono (h : AreNested fault base places s) (hs : s <:+ s') :
    AreNested fault base places s' :=
  ⟨h.inside, fun place hplace => (h.suffix place hplace).trans hs, h.opens, h.unfinished⟩

/-- What is nested behind an opening is nested in it. -/
theorem AreNested.behind (h : AreNested fault (base + 1) places s) (hopens : Opens place)
    (hs : s <:+ place) (hlt : s.length < place.length)
    (hrun : (operand (maxNesting - base)).run place = .error fault) :
    AreNested fault base (places ++ [place]) place := by
  constructor
  case inside =>
    refine List.pairwise_append.mpr ⟨h.inside, List.pairwise_singleton _ _, ?_⟩
    intro inner hinner outer houter
    obtain rfl := List.mem_singleton.mp houter
    have hsuffix := h.suffix inner hinner
    exact ⟨hsuffix.trans hs, Nat.lt_of_le_of_lt hsuffix.length_le hlt⟩
  case suffix =>
    intro inner hinner
    rcases List.mem_append.mp hinner with hinner | hinner
    · exact (h.suffix inner hinner).trans hs
    · exact List.mem_singleton.mp hinner ▸ List.suffix_rfl
  case opens =>
    intro inner hinner
    rcases List.mem_append.mp hinner with hinner | hinner
    · exact h.opens inner hinner
    · exact List.mem_singleton.mp hinner ▸ hopens
  case unfinished =>
    intro i inner hinner
    rw [List.reverse_append, List.reverse_singleton, List.singleton_append] at hinner
    -- the new place is the outermost one, and the others lie one level deeper than without it
    cases i with
    | zero =>
        cases hinner
        exact hrun
    | succ i =>
        rw [← Nat.add_assoc, Nat.add_right_comm]
        exact h.unfinished i inner hinner

end AreNested

/-! ## Readings -/

/-- How a reading ends, and where. -/
inductive Outcome (α : Type) where
  | done (a : α) (c : Cursor)
  | fault (f : Fault) (c : Cursor)
  /-- The work exceeds its bound. -/
  | exhausted

namespace Outcome

variable {α β : Type}

/-- What is found, and the text that is left.  There is nothing if the work exceeds its bound. -/
def found? : Outcome α → Option (Except Fault (α × List Char))
  | done a c => some (.ok (a, c.rest))
  | fault f _ => some (.error f)
  | exhausted => none

/-- The reading ends within its bound, and if it does so with a result, then further on in the text
and with the same open as at its start. -/
def Advances (c : Cursor) : Outcome α → Prop
  | done _ c' => c.Passes c'
  | fault .. => True
  | exhausted => False

end Outcome

/-- A piece of work that starts at a cursor and moves it. -/
def Reading (α : Type) := Cursor → Outcome α

/-- Goes on with what is found, from where it is found. -/
def Outcome.andThen {α β : Type} (o : Outcome α) (next : α → Reading β) : Outcome β :=
  match o with
  | done a c => next a c
  | fault f c => fault f c
  | exhausted => exhausted

/-- How a turn of a loop ends: in another turn, or with the result of the loop. -/
inductive Round (α β : Type) where
  | again (a : α)
  | exit (b : β)

/-- A turn of a loop ends within its bound, and another turn starts further on in the text, with the
same open. -/
def Outcome.TurnAdvances {α β : Type} (c : Cursor) : Outcome (Round α β) → Prop
  | done (.again _) c' => c.Passes c'
  | done (.exit _) c' => c.Reaches c'
  | fault .. => True
  | exhausted => False

namespace Reading

variable {α β : Type}

instance : Monad Reading where
  pure a := fun c => .done a c
  bind x next := fun c => (x c).andThen next

/-- Looks at the text without moving. -/
def look (f : List Char → α) : Reading α := fun c => .done (f c.rest) c

/-- Moves to where a function leaves the text. -/
def skip (f : List Char → List Char) : Reading Unit := fun c => .done () { c with rest := f c.rest }

/-- Moves behind a sign, if it stands here, and tells whether it does. -/
def sign (sign? : List Char → Option (List Char)) : Reading Bool := fun c =>
  match sign? c.rest with
  | some rest => .done true { c with rest }
  | none => .done false c

/-- Reads what a reader reads. -/
def take (read : List Char → Except Fault (α × List Char)) : Reading α := fun c =>
  match read c.rest with
  | .ok (a, rest) => .done a { c with rest }
  | .error f => .fault f c

/-- Finds a fault. -/
def refuse (f : Fault) : Reading α := fun c => .fault f c

/-- Puts a place on top of what is open, and finds a fault if that is too much. -/
def enter (place : List Char) : Reading Unit := fun c =>
  let inside : Cursor := { c with opened := place :: c.opened }
  if maxNesting < inside.opened.length then .fault (.here .tooDeep place) inside
  else .done () inside

/-- Takes off what is on top of what is open. -/
def leave : Reading Unit := fun c => .done () { c with opened := c.opened.tail }

/-- Gives up. -/
def giveUp : Reading α := fun _ => .exhausted

/-- Takes turns until one ends with a result, or until there have been too many. -/
def loop (turn : α → Reading (Round α β)) : (bound : Nat) → α → Reading β
  | 0, _ => giveUp
  | bound + 1, a => do
    match ← turn a with
    | .again a => loop turn bound a
    | .exit b => pure b

/-! ### What the steps do -/

section Run

variable (c : Cursor)

@[simp]
theorem pure_run (a : α) : (pure a : Reading α) c = .done a c := rfl

@[simp]
theorem bind_run (x : Reading α) (next : α → Reading β) : (x >>= next) c = (x c).andThen next := rfl

@[simp]
theorem andThen_done (a : α) (next : α → Reading β) :
    (Outcome.done a c).andThen next = next a c := rfl

theorem andThen_andThen {γ : Type} (o : Outcome α) (next : α → Reading β) (last : β → Reading γ) :
    (o.andThen next).andThen last = o.andThen fun a => next a >>= last := by
  cases o <;> rfl

@[simp]
theorem look_run (f : List Char → α) : look f c = .done (f c.rest) c := rfl

@[simp]
theorem skip_run (f : List Char → List Char) :
    skip f c = .done () { c with rest := f c.rest } := rfl

theorem sign_of_some {sign? : List Char → Option (List Char)} {rest : List Char}
    (h : sign? c.rest = some rest) : sign sign? c = .done true { c with rest } := by
  rw [sign, h]

theorem sign_of_none {sign? : List Char → Option (List Char)} (h : sign? c.rest = none) :
    sign sign? c = .done false c := by
  rw [sign, h]

/-- A sign that may stand here. -/
theorem sign_andThen (sign? : List Char → Option (List Char)) (next : Reading β) :
    (sign sign? c).andThen (fun _ => next) =
      next { c with rest := (sign? c.rest).getD c.rest } := by
  cases h : sign? c.rest with
  | none => rw [sign_of_none c h]; rfl
  | some rest => rw [sign_of_some c h]; rfl

theorem take_of_ok {read : List Char → Except Fault (α × List Char)} {a : α} {rest : List Char}
    (h : read c.rest = .ok (a, rest)) : take read c = .done a { c with rest } := by
  rw [take, h]

theorem take_of_error {read : List Char → Except Fault (α × List Char)} {f : Fault}
    (h : read c.rest = .error f) : take read c = .fault f c := by
  rw [take, h]

theorem enter_of_lt {place : List Char} (h : c.opened.length < maxNesting) :
    enter place c = .done () { c with opened := place :: c.opened } :=
  if_neg (Nat.not_lt_of_le h)

theorem enter_of_eq {place : List Char} (h : c.opened.length = maxNesting) :
    enter place c = .fault (.here .tooDeep place) { c with opened := place :: c.opened } :=
  if_pos (Nat.lt_succ_of_le (Nat.le_of_eq h.symm))

end Run

end Reading

/-! ## Agreement with a reader -/

/-- How a reading that starts at a cursor stands when it finds a fault. -/
structure Cursor.FailsAt (c : Cursor) (fault : Fault) (c' : Cursor) : Prop where
  newer : ∃ places, c'.opened = places ++ c.opened ∧
    AreNested fault c.opened.length places c.rest
  deep_iff : fault.cause.kind = .nestingTooDeep ↔ c'.opened.length = maxNesting + 1
  innermost : fault.cause.kind = .nestingTooDeep → c'.opened.head?.map List.length = some fault.left

/-- A reading from a cursor ends as a reader does: with the same result, where the reader stops, and
with the same open as at its start, or with the same fault. -/
def Agrees {α : Type} (c : Cursor) (o : Outcome α) (found : Except Fault (α × List Char)) : Prop :=
  match found with
  | .ok (a, rest) => rest <:+ c.rest ∧ o = .done a { c with rest }
  | .error fault => ∃ c', o = .fault fault c' ∧ c.FailsAt fault c'

section Agrees

variable {α β : Type} {s s' : List Char} {opened : List (List Char)}

theorem Cursor.FailsAt.mono {fault : Fault} {c' : Cursor}
    (h : (Cursor.mk s opened).FailsAt fault c') (hs : s <:+ s') :
    (Cursor.mk s' opened).FailsAt fault c' := by
  obtain ⟨places, hopened, hnested⟩ := h.newer
  exact ⟨⟨places, hopened, hnested.mono hs⟩, h.deep_iff, h.innermost⟩

/-- A fault that is found where nothing has been opened is not that too much is open. -/
theorem Cursor.FailsAt.here {c : Cursor} {fault : Fault} (hlevel : c.opened.length ≤ maxNesting)
    (hkind : fault.cause.kind ≠ .nestingTooDeep) : c.FailsAt fault c := by
  refine ⟨⟨[], rfl, .nil _ _ _⟩, ⟨fun h => absurd h hkind, fun h => ?_⟩, fun h => absurd h hkind⟩
  omega

/-- A fault that is found behind an opening is found with the opening among what is open. -/
theorem Cursor.FailsAt.behind {place : List Char} {fault : Fault} {c' : Cursor}
    (h : (Cursor.mk s (place :: opened)).FailsAt fault c') (hopens : Opens place) (hs : s <:+ place)
    (hlt : s.length < place.length)
    (hrun : (operand (maxNesting - opened.length)).run place = .error fault) :
    (Cursor.mk place opened).FailsAt fault c' := by
  obtain ⟨places, hopened, hnested⟩ := h.newer
  refine ⟨⟨places ++ [place], ?_, hnested.behind hopens hs hlt hrun⟩, h.deep_iff, h.innermost⟩
  rw [hopened, List.append_assoc, List.singleton_append]

/-- The opening that is one too many. -/
theorem Cursor.FailsAt.tooDeep {place : List Char} (hlevel : opened.length = maxNesting)
    (hopens : Opens place)
    (hrun : (operand (maxNesting - opened.length)).run place = .error (.here .tooDeep place)) :
    (Cursor.mk place opened).FailsAt (.here .tooDeep place) ⟨s, place :: opened⟩ := by
  refine ⟨⟨[place], rfl, ?_⟩, iff_of_true rfl ?_, fun _ => rfl⟩
  · refine ⟨List.pairwise_singleton _ _, by simp, by simpa using hopens, fun i inner hinner => ?_⟩
    cases i with
    | zero =>
        cases hinner
        exact hrun
    | succ i => cases hinner
  · rw [List.length_cons, hlevel]

theorem Agrees.mono {o : Outcome α} {found : Except Fault (α × List Char)}
    (h : Agrees ⟨s, opened⟩ o found) (hs : s <:+ s') : Agrees ⟨s', opened⟩ o found := by
  cases found with
  | ok found => exact ⟨h.1.trans hs, h.2⟩
  | error fault =>
      obtain ⟨c', ho, hfails⟩ := h
      exact ⟨c', ho, hfails.mono hs⟩

theorem Agrees.take {read : List Char → Except Fault (α × List Char)} {c : Cursor}
    (hlevel : c.opened.length ≤ maxNesting)
    (hstays : ∀ a rest, read c.rest = .ok (a, rest) → rest <:+ c.rest)
    (hkind : ∀ fault, read c.rest = .error fault → fault.cause.kind ≠ .nestingTooDeep) :
    Agrees c (Reading.take read c) (read c.rest) := by
  cases hread : read c.rest with
  | ok found =>
      obtain ⟨a, rest⟩ := found
      exact ⟨hstays a rest hread, Reading.take_of_ok c hread⟩
  | error fault =>
      exact ⟨c, Reading.take_of_error c hread, .here hlevel (hkind fault hread)⟩

/-- A reading that goes on where another one has ended agrees with a reader that does. -/
theorem Agrees.bind {c : Cursor} {o : Outcome α} {next : α → Reading β}
    {found : Except Fault (α × List Char)} {read : α × List Char → Except Fault (β × List Char)}
    (h : Agrees c o found) (hnext : ∀ a rest, found = .ok (a, rest) → rest <:+ c.rest →
      Agrees ⟨rest, c.opened⟩ (next a ⟨rest, c.opened⟩) (read (a, rest))) :
    Agrees c (o.andThen next) (found >>= read) := by
  cases found with
  | ok result =>
      obtain ⟨a, rest⟩ := result
      obtain ⟨hsuffix, rfl⟩ := h
      exact (hnext a rest rfl hsuffix).mono hsuffix
  | error fault =>
      obtain ⟨c', rfl, hfails⟩ := h
      exact ⟨c', rfl, hfails⟩

/-- What is opened, is closed once it is read. -/
theorem Agrees.leave {place : List Char} {o : Outcome α} {found : Except Fault (α × List Char)}
    (h : Agrees ⟨s, place :: opened⟩ o found) (hopens : Opens place) (hs : s <:+ place)
    (hlt : s.length < place.length)
    (hrun : ∀ fault, found = .error fault →
      (operand (maxNesting - opened.length)).run place = .error fault) (f : α → β) :
    Agrees ⟨place, opened⟩ (o.andThen fun a => Reading.leave >>= fun _ => pure (f a))
      (found >>= fun (a, rest) => .ok (f a, rest)) := by
  cases found with
  | ok result =>
      obtain ⟨hsuffix, rfl⟩ := h
      exact ⟨hsuffix.trans hs, rfl⟩
  | error fault =>
      obtain ⟨c', rfl, hfails⟩ := h
      exact ⟨c', rfl, hfails.behind hopens hs hlt (hrun fault rfl)⟩

theorem Agrees.found? {c : Cursor} {o : Outcome α} {found : Except Fault (α × List Char)}
    (h : Agrees c o found) : o.found? = some found := by
  cases found with
  | ok result =>
      obtain ⟨-, rfl⟩ := h
      rfl
  | error fault =>
      obtain ⟨c', rfl, -⟩ := h
      rfl

theorem Agrees.advances {c : Cursor} {o : Outcome α} {found : Except Fault (α × List Char)}
    (h : Agrees c o found)
    (hshorter : ∀ a rest, found = .ok (a, rest) → rest.length < c.rest.length) : o.Advances c := by
  cases found with
  | ok result =>
      obtain ⟨hsuffix, rfl⟩ := h
      exact ⟨⟨hsuffix, rfl⟩, hshorter _ _ rfl⟩
  | error fault =>
      obtain ⟨c', rfl, -⟩ := h
      exact trivial

end Agrees

end QueryFilter
