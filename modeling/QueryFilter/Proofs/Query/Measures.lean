import QueryFilter.Policy.Check
import QueryFilter.Proofs.Query.Leaves

/-!
# The measures of a tree by recursion

The number of conditions, the depth and the comparisons of a query are found by walking the tree
with a stack of nodes, the first two with the right operand first and the last one with the left
operand first.  They are what recursion on the tree gives, whatever its connectives have for
operands (`measures_eq`).

A walk is first brought into the form of a recursion that passes a result along (`foldAgenda_root`).
The result so far is then split off: it is added to for the number of conditions
(`length_leafDepths`), and compared with the deepest node for the depth (`foldTree_max`).

The walk that only asks for a node below a limit ends at the first one, which need not be a leaf.
It finds one exactly if the deepest leaf is below the limit, since there is a leaf below every node
(`reachesBelow_iff`).
-/

namespace QueryFilter

namespace Query

/-- The number of leaves of a tree. -/
def leafCount : Query → Nat
  | comparison _ | raw _ => 1
  | unary _ q => q.leafCount
  | binary _ l r => l.leafCount + r.leafCount

/-- The number of connectives above the deepest leaf of a tree. -/
def height : Query → Nat
  | comparison _ | raw _ => 0
  | unary _ q => 1 + q.height
  | binary _ l r => 1 + max l.height r.height

/-! ## Conditions -/

theorem length_leafDepths (ancestors : Nat) (q : Query) :
    (q.leafDepths ancestors).length = q.leafCount := by
  induction q generalizing ancestors with
  | comparison c => rfl
  | raw r => rfl
  | unary op q ih => exact ih _
  | binary op l r ihl ihr => rw [leafDepths, List.length_append, ihl, ihr, leafCount]

theorem clauseCount_eq_leafCount (q : Query) : q.clauseCount = q.leafCount := by
  rw [clauseCount_eq, length_leafDepths]

/-! ## Depth -/

/-- The deepest node that a walk has seen is one that it saw before it came to a tree, or the
deepest leaf of the tree. -/
theorem foldTree_max (order : Order) (deepest ancestors : Nat) (q : Query) :
    foldTree order (fun deepest _ ancestors => max deepest ancestors) deepest ancestors q =
      max deepest (ancestors + q.height) := by
  induction q generalizing deepest ancestors with
  | comparison c => rfl
  | raw r => rfl
  | unary op q ih =>
      rw [foldTree, ih, height]
      omega
  | binary op l r ihl ihr =>
      cases order <;>
      · rw [foldTree, ihl, ihr, height]
        omega

theorem depth_eq_height (q : Query) : q.depth = q.height := by
  rw [depth, foldAgenda_root, foldTree_max, Nat.zero_add, Nat.zero_max]

theorem exists_lt_leafDepths_iff (limit ancestors : Nat) (q : Query) :
    (∃ n ∈ q.leafDepths ancestors, limit < n) ↔ limit < ancestors + q.height := by
  induction q generalizing ancestors with
  | comparison c => simp [leafDepths, height]
  | raw r => simp [leafDepths, height]
  | unary op q ih => rw [leafDepths, ih, height, Nat.add_assoc]
  | binary op l r ihl ihr =>
      have hsplit : (∃ n ∈ (binary op l r).leafDepths ancestors, limit < n) ↔
          (∃ n ∈ l.leafDepths (ancestors + 1), limit < n) ∨
            ∃ n ∈ r.leafDepths (ancestors + 1), limit < n := by
        simp only [leafDepths, List.mem_append, or_and_right, exists_or]
      rw [hsplit, ihl, ihr, height]
      omega

/-- A node below a limit is found exactly if the deepest leaf is below it. -/
theorem reachesBelow_iff (limit : Nat) (q : Query) :
    reachesBelow limit [(q, 0)] ↔ limit < q.depth := by
  rw [reachesBelow_root, exists_lt_leafDepths_iff, Nat.zero_add, depth_eq_height]

end Query

/-! ## The measures -/

/-- **The walks compute the measures of a tree.**  For every tree, whatever its connectives have for
operands, the number of conditions, the depth, the comparisons and the fields are those that
recursion on the tree gives, and the pass of a policy that looks for deep nodes accepts the tree
exactly if its depth is not above the limit. -/
theorem Query.measures_eq (q : Query) :
    q.clauseCount = q.leafCount ∧ q.depth = q.height ∧ q.comparisons = q.leafComparisons ∧
      q.fields = q.leafComparisons.map Comparison.field ∧
      ∀ p : Policy, Policy.violationIf (reachesBelow p.maxDepth [(q, 0)]) (.tooDeep p.maxDepth) =
        if q.depth ≤ p.maxDepth then none else some (.tooDeep p.maxDepth) := by
  refine ⟨q.clauseCount_eq_leafCount, q.depth_eq_height, q.comparisons_eq, ?_, ?_⟩
  · rw [fields, comparisons_eq]
  · intro p
    have hdeep := q.reachesBelow_iff p.maxDepth
    rw [Policy.violationIf]
    split
    next hbelow => rw [if_neg (Nat.not_le_of_lt (hdeep.mp hbelow))]
    next hbelow => rw [if_pos (Nat.le_of_not_lt fun hlt => hbelow (hdeep.mpr hlt))]

end QueryFilter
