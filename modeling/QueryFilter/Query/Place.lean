import QueryFilter.Query.Measure

/-!
# Places in a query

A place is the way from the root of a tree to one of its nodes.  It serves as a reference to the
node: what stands there can be looked up (`Query.at?`), and something else can be put there while
the rest of the tree stays as it is (`Query.replaceAt`).

What is put at a place is found there (`at?_replaceAt`), putting back what stands there changes
nothing (`replaceAt_of_at?`), and of two subtrees that are put at one place the later counts
(`replaceAt_replaceAt`).  A place inside a node is reached through the node (`at?_append`,
`replaceAt_append`).
-/

namespace QueryFilter

/-- A step from a node to an operand.  The operand of a node that has only one is on the left. -/
inductive Turn where
  | left | right
  deriving DecidableEq

/-- The turns from the root of a tree to a node. -/
abbrev Place := List Turn

namespace Query

/-! ## Operands -/

/-- The operand of a node in a direction. -/
def operand? : Query → Turn → Option Query
  | unary _ q, .left => some q
  | binary _ l _, .left => some l
  | binary _ _ r, .right => some r
  | _, _ => none

/-- A node with another operand in a direction. -/
def setOperand (new : Query) : Query → Turn → Query
  | unary op _, .left => unary op new
  | binary op _ r, .left => binary op new r
  | binary op l _, .right => binary op l new
  | q, _ => q

variable {q operand new newer : Query} {turn : Turn}

theorem operand?_setOperand (h : q.operand? turn = some operand) :
    (setOperand new q turn).operand? turn = some new := by
  cases q <;> cases turn <;> cases h <;> rfl

theorem setOperand_setOperand :
    setOperand newer (setOperand new q turn) turn = setOperand newer q turn := by
  cases q <;> cases turn <;> rfl

theorem setOperand_of_operand? (h : q.operand? turn = some operand) :
    setOperand operand q turn = q := by
  cases q <;> cases turn <;> cases h <;> rfl

/-! ## Subtrees -/

/-- The subtree at a place, if the place is in the tree. -/
def at? (q : Query) : Place → Option Query
  | [] => some q
  | turn :: place => (q.operand? turn).bind fun operand => operand.at? place

/-- The tree with another subtree at a place.  A place outside of the tree changes nothing. -/
def replaceAt (q : Query) (place : Place) (new : Query) : Query :=
  match place with
  | [] => new
  | turn :: place =>
    match q.operand? turn with
    | some operand => setOperand (operand.replaceAt place new) q turn
    | none => q

variable {node : Query} {place : Place}

theorem at?_append (q : Query) (place inner : Place) :
    q.at? (place ++ inner) = (q.at? place).bind fun node => node.at? inner := by
  induction place generalizing q with
  | nil => rfl
  | cons turn place ih =>
    rw [List.cons_append, at?, at?]
    cases q.operand? turn with
    | none => rfl
    | some operand => exact ih operand

/-- One turn behind a node is its operand. -/
theorem at?_concat (h : q.at? place = some node) (turn : Turn) :
    q.at? (place ++ [turn]) = node.operand? turn := by
  rw [at?_append, h, Option.bind_some, at?]
  cases node.operand? turn <;> rfl

/-- A subtree behind the first turn is a subtree of the operand there. -/
theorem at?_cons_eq_some :
    q.at? (turn :: place) = some node ↔
      ∃ operand, q.operand? turn = some operand ∧ operand.at? place = some node := by
  rw [at?, Option.bind_eq_some_iff]

theorem at?_replaceAt (h : q.at? place = some node) : (q.replaceAt place new).at? place = some new := by
  induction place generalizing q with
  | nil => rfl
  | cons turn place ih =>
    obtain ⟨operand, hoperand, hnode⟩ := at?_cons_eq_some.mp h
    rw [replaceAt, hoperand]
    exact at?_cons_eq_some.mpr ⟨_, operand?_setOperand hoperand, ih hnode⟩

theorem replaceAt_replaceAt (h : q.at? place = some node) :
    (q.replaceAt place new).replaceAt place newer = q.replaceAt place newer := by
  induction place generalizing q with
  | nil => rfl
  | cons turn place ih =>
    obtain ⟨operand, hoperand, hnode⟩ := at?_cons_eq_some.mp h
    simp only [replaceAt, hoperand, operand?_setOperand hoperand, setOperand_setOperand, ih hnode]

theorem replaceAt_of_at? (h : q.at? place = some node) : q.replaceAt place node = q := by
  induction place generalizing q with
  | nil => exact (Option.some.inj h).symm
  | cons turn place ih =>
    obtain ⟨operand, hoperand, hnode⟩ := at?_cons_eq_some.mp h
    simp only [replaceAt, hoperand, ih hnode, setOperand_of_operand? hoperand]

theorem replaceAt_append (h : q.at? place = some node) (inner : Place) :
    q.replaceAt (place ++ inner) new = q.replaceAt place (node.replaceAt inner new) := by
  induction place generalizing q with
  | nil =>
    obtain rfl : q = node := Option.some.inj h
    rfl
  | cons turn place ih =>
    obtain ⟨operand, hoperand, hnode⟩ := at?_cons_eq_some.mp h
    simp only [List.cons_append, replaceAt, hoperand, ih hnode]

/-! ## Sizes -/

/-- The number of nodes at a place and below it.  A place outside of the tree counts as one. -/
def sizeAt (q : Query) (place : Place) : Nat := (q.at? place).elim 1 size

theorem sizeAt_of_at? (h : q.at? place = some node) : q.sizeAt place = node.size := by
  rw [sizeAt, h]
  rfl

theorem size_setOperand (h : q.operand? turn = some operand) (hsize : new.size = operand.size) :
    (setOperand new q turn).size = q.size := by
  cases q <;> cases turn <;> cases h <;> simp [setOperand, size, hsize]

theorem operand?_setOperand_of_ne {other : Turn} (hne : other ≠ turn) :
    (setOperand new q turn).operand? other = q.operand? other := by
  cases q <;> cases turn <;> cases other <;> first | rfl | exact absurd rfl hne

/-- A comparison in the place of another leaves all sizes as they are. -/
theorem sizeAt_replaceAt {c d : Comparison} (h : q.at? place = some (comparison c)) (other : Place) :
    (q.replaceAt place (comparison d)).sizeAt other = q.sizeAt other := by
  induction place generalizing q other with
  | nil =>
    obtain rfl : q = comparison c := Option.some.inj h
    cases other <;> rfl
  | cons turn place ih =>
    obtain ⟨operand, hoperand, hcomparison⟩ := at?_cons_eq_some.mp h
    rw [replaceAt, hoperand]
    cases other with
    | nil => exact size_setOperand hoperand (ih hcomparison [])
    | cons turn' other =>
      by_cases hturn : turn' = turn
      · subst hturn
        simp only [sizeAt, at?, operand?_setOperand hoperand, hoperand, Option.bind_some]
        exact ih hcomparison other
      · simp only [sizeAt, at?, operand?_setOperand_of_ne hturn]

/-- The number of nodes at the places of an agenda and below them. -/
def sizeOn (q : Query) : (agenda : List Place) → Nat
  | [] => 0
  | place :: agenda => q.sizeAt place + q.sizeOn agenda

theorem sizeOn_replaceAt {c d : Comparison} (h : q.at? place = some (comparison c))
    (agenda : List Place) : (q.replaceAt place (comparison d)).sizeOn agenda = q.sizeOn agenda := by
  induction agenda with
  | nil => rfl
  | cons other agenda ih => rw [sizeOn, sizeOn, sizeAt_replaceAt h, ih]

/-- A node that is not a leaf counts for more than its operand. -/
theorem sizeAt_operand {op : Connective} (h : q.at? place = some (unary op operand)) :
    q.sizeAt (place ++ [.left]) + 1 = q.sizeAt place := by
  have hoperand : q.at? (place ++ [.left]) = some operand := at?_concat h .left
  rw [sizeAt_of_at? hoperand, sizeAt_of_at? h, size]

/-- A node with two operands counts for more than both. -/
theorem sizeAt_operands {op : Connective} {l r : Query} (h : q.at? place = some (binary op l r)) :
    q.sizeAt (place ++ [.left]) + q.sizeAt (place ++ [.right]) + 1 = q.sizeAt place := by
  have hleft : q.at? (place ++ [.left]) = some l := at?_concat h .left
  have hright : q.at? (place ++ [.right]) = some r := at?_concat h .right
  rw [sizeAt_of_at? hleft, sizeAt_of_at? hright, sizeAt_of_at? h, size]

end Query

end QueryFilter
