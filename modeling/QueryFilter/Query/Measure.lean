import QueryFilter.Query

/-!
# Measures of a query

How many conditions a query holds, how deep they lie, and which comparisons and fields occur.  All
are computed with an agenda of the nodes that are still to be visited, each with the number of
connectives above it, so that a tree of any depth is walked without nesting calls.

The agenda is a stack.  The operands of a node are put on it one by one, and the one that is put on
last is visited first.  Comparisons are collected in the order in which they are written, so there
it is the left operand.  The other measures do not depend on the order, and go to the right operand
first.
-/

namespace QueryFilter.Query

/-- The operands of a node, the left one first. -/
def operands : Query → List Query
  | unary _ q => [q]
  | binary _ l r => [l, r]
  | _ => []

/-- Whether a node has no operands. -/
def isLeaf : Query → Bool
  | comparison _ | raw _ => true
  | _ => false

/-- The number of nodes of a tree. -/
def size : Query → Nat
  | comparison _ | raw _ => 1
  | unary _ q => q.size + 1
  | binary _ l r => l.size + r.size + 1

/-- The nodes to visit, each with its number of ancestors. -/
abbrev Agenda := List (Query × Nat)

/-- The number of nodes that will be visited. -/
def Agenda.size (agenda : Agenda) : Nat :=
  agenda.foldr (fun (q, _) n => q.size + n) 0

/-- Which operand of a node is visited first. -/
inductive Order where
  | leftFirst | rightFirst

/-- The operands of a node in the order in which they are put on an agenda. -/
def Order.put : Order → Query → List Query
  | leftFirst, q => q.operands.reverse
  | rightFirst, q => q.operands

/-- The agenda with a node on it. -/
def Agenda.push (ancestors : Nat) (agenda : Agenda) (q : Query) : Agenda := (q, ancestors) :: agenda

/-- The agenda after the visit of a node. -/
def Agenda.next (order : Order) (q : Query) (ancestors : Nat) (agenda : Agenda) : Agenda :=
  (order.put q).foldl (Agenda.push (ancestors + 1)) agenda

theorem Agenda.size_next_lt (order : Order) (q : Query) (ancestors : Nat) (agenda : Agenda) :
    (Agenda.next order q ancestors agenda).size < Agenda.size ((q, ancestors) :: agenda) := by
  cases order <;> cases q <;>
  · simp only [Agenda.next, Agenda.push, Order.put, Agenda.size, operands, Query.size,
      List.reverse_cons, List.reverse_nil, List.nil_append, List.cons_append, List.foldl_cons,
      List.foldl_nil, List.foldr_cons]
    omega

/-- Folds `visit` over the nodes that are reached from an agenda. -/
def foldAgenda (order : Order) (visit : α → Query → Nat → α) (result : α) : Agenda → α
  | [] => result
  | (q, ancestors) :: agenda =>
    foldAgenda order visit (visit result q ancestors) (Agenda.next order q ancestors agenda)
termination_by agenda => agenda.size
decreasing_by exact Agenda.size_next_lt order q ancestors agenda

/-- Whether a node reached from an agenda has more than `limit` ancestors.  The walk ends at the
first such node. -/
def reachesBelow (limit : Nat) : Agenda → Bool
  | [] => false
  | (q, ancestors) :: agenda =>
    if limit < ancestors then true
    else reachesBelow limit (Agenda.next .rightFirst q ancestors agenda)
termination_by agenda => agenda.size
decreasing_by exact Agenda.size_next_lt .rightFirst q ancestors agenda

/-- The number of conditions: comparisons and raw conditions. -/
def clauseCount (q : Query) : Nat :=
  foldAgenda .rightFirst (fun count node _ => if node.isLeaf then count + 1 else count) 0 [(q, 0)]

/-- The greatest number of connectives above a condition. -/
def depth (q : Query) : Nat :=
  foldAgenda .rightFirst (fun deepest _ ancestors => max deepest ancestors) 0 [(q, 0)]

/-- The comparisons from left to right. -/
def comparisons (q : Query) : List Comparison :=
  (foldAgenda .leftFirst (fun found node _ =>
    match node with
    | comparison c => c :: found
    | _ => found) [] [(q, 0)]).reverse

/-- The fields of the comparisons from left to right. -/
def fields (q : Query) : List FieldPath :=
  q.comparisons.map Comparison.field

end QueryFilter.Query
