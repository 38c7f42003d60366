import QueryFilter.Query.Measure

/-!
# The leaves of a tree

The measures of a tree are computed by walking an agenda of nodes.  This file gives them by
recursion on the tree: the comparisons (`leafComparisons`) and the number of connectives above each
leaf (`leafDepths`), both from left to right.

An agenda is worked off node by node, and a node puts its operands in front of what is left, so the
walk over an agenda is the walk over its first tree followed by the walk over the others
(`foldAgenda_cons`), whichever operand comes first.  The measures follow by induction on the tree.

What a tree is made of is stated by its leaves as well: its connectives have the operands that
belong to them, there is no raw condition in it, and its comparisons have a property (`IsTreeOf`).
-/

namespace QueryFilter.Query

/-- The comparisons of a tree from left to right. -/
def leafComparisons : Query → List Comparison
  | comparison c => [c]
  | raw _ => []
  | unary _ q => q.leafComparisons
  | binary _ l r => l.leafComparisons ++ r.leafComparisons

/-- For each leaf of a tree with `ancestors` connectives above it the number of connectives above
the leaf, from left to right. -/
def leafDepths (ancestors : Nat) : Query → List Nat
  | comparison _ | raw _ => [ancestors]
  | unary _ q => leafDepths (ancestors + 1) q
  | binary _ l r => leafDepths (ancestors + 1) l ++ leafDepths (ancestors + 1) r

/-! ## Trees of comparisons -/

/-- A tree of comparisons with a property, in which every connective has the operands that belong to
it. -/
def IsTreeOf (P : Comparison → Prop) : Query → Prop
  | comparison c => P c
  | raw _ => False
  | unary op q => op = .not ∧ q.IsTreeOf P
  | binary op l r => op ≠ .not ∧ l.IsTreeOf P ∧ r.IsTreeOf P

/-- What the comparisons of a tree are may be read off one by one. -/
theorem IsTreeOf.imp {P R : Comparison → Prop} {q : Query} (hq : q.IsTreeOf P)
    (himp : ∀ c ∈ q.leafComparisons, P c → R c) : q.IsTreeOf R := by
  induction q with
  | comparison c => exact himp c (List.mem_singleton_self c) hq
  | raw r => exact hq.elim
  | unary op q ih => exact ⟨hq.1, ih hq.2 himp⟩
  | binary op l r ihl ihr =>
      obtain ⟨hop, hl, hr⟩ := hq
      refine ⟨hop, ihl hl fun c hc => ?_, ihr hr fun c hc => ?_⟩
      · exact himp c (List.mem_append_left _ hc)
      · exact himp c (List.mem_append_right _ hc)

theorem IsTreeOf.of_mem {P : Comparison → Prop} {q : Query} (hq : q.IsTreeOf P) :
    ∀ c ∈ q.leafComparisons, P c := by
  induction q with
  | comparison c =>
      intro d hd
      exact List.mem_singleton.mp hd ▸ hq
  | raw r => exact hq.elim
  | unary op q ih => exact ih hq.2
  | binary op l r ihl ihr =>
      intro c hc
      rcases List.mem_append.mp hc with hc | hc
      · exact ihl hq.2.1 c hc
      · exact ihr hq.2.2 c hc

/-! ## Walking an agenda -/

/-- Folds `visit` over the nodes of a tree, a node before its operands. -/
def foldTree {α : Type} (order : Order) (visit : α → Query → Nat → α) (result : α)
    (ancestors : Nat) : Query → α
  | comparison c => visit result (comparison c) ancestors
  | raw r => visit result (raw r) ancestors
  | unary op q => foldTree order visit (visit result (unary op q) ancestors) (ancestors + 1) q
  | binary op l r =>
    let result := visit result (binary op l r) ancestors
    match order with
    | .leftFirst =>
      foldTree order visit (foldTree order visit result (ancestors + 1) l) (ancestors + 1) r
    | .rightFirst =>
      foldTree order visit (foldTree order visit result (ancestors + 1) r) (ancestors + 1) l

/-- The walk over an agenda walks over its first tree and goes on with the others. -/
theorem foldAgenda_cons {α : Type} (order : Order) (visit : α → Query → Nat → α) (result : α)
    (q : Query) (ancestors : Nat) (agenda : Agenda) :
    foldAgenda order visit result ((q, ancestors) :: agenda) =
      foldAgenda order visit (foldTree order visit result ancestors q) agenda := by
  induction q generalizing result ancestors agenda with
  | comparison c =>
      rw [foldAgenda]
      cases order <;> rfl
  | raw r =>
      rw [foldAgenda]
      cases order <;> rfl
  | unary op q ih =>
      rw [foldAgenda]
      cases order <;> exact ih _ _ _
  | binary op l r ihl ihr =>
      rw [foldAgenda]
      cases order with
      | leftFirst => exact (ihl _ _ _).trans (ihr _ _ _)
      | rightFirst => exact (ihr _ _ _).trans (ihl _ _ _)

theorem foldAgenda_root {α : Type} (order : Order) (visit : α → Query → Nat → α) (result : α)
    (q : Query) :
    foldAgenda order visit result [(q, 0)] = foldTree order visit result 0 q := by
  rw [foldAgenda_cons, foldAgenda]

/-! ## The measures -/

/-- A walk with the left operand first that puts comparisons in front of what it has found, and
leaves it at other nodes, finds the comparisons of a tree from right to left. -/
theorem foldTree_collect (visit : List Comparison → Query → Nat → List Comparison)
    (hcomparison : ∀ found c n, visit found (comparison c) n = c :: found)
    (hraw : ∀ found r n, visit found (raw r) n = found)
    (hunary : ∀ found op q n, visit found (unary op q) n = found)
    (hbinary : ∀ found op l r n, visit found (binary op l r) n = found)
    (found : List Comparison) (ancestors : Nat) (q : Query) :
    foldTree .leftFirst visit found ancestors q = q.leafComparisons.reverse ++ found := by
  induction q generalizing found ancestors with
  | comparison c => exact hcomparison _ _ _
  | raw r => exact hraw _ _ _
  | unary op q ih => rw [foldTree, hunary, ih, leafComparisons]
  | binary op l r ihl ihr =>
      rw [foldTree, hbinary, ihr, ihl, leafComparisons, List.reverse_append, List.append_assoc]

theorem comparisons_eq (q : Query) : q.comparisons = q.leafComparisons := by
  rw [comparisons, foldAgenda_root,
    foldTree_collect _ (fun _ _ _ => rfl) (fun _ _ _ => rfl) (fun _ _ _ _ => rfl)
      (fun _ _ _ _ _ => rfl), List.append_nil, List.reverse_reverse]

theorem clauseCount_eq (q : Query) : q.clauseCount = (q.leafDepths 0).length := by
  have hfold : ∀ (q : Query) (count ancestors : Nat),
      foldTree .rightFirst (fun count node _ => if node.isLeaf then count + 1 else count) count
        ancestors q = count + (q.leafDepths ancestors).length := by
    intro q
    induction q with
    | comparison c => intro count ancestors; rfl
    | raw r => intro count ancestors; rfl
    | unary op q ih => intro count ancestors; exact ih _ _
    | binary op l r ihl ihr =>
        intro count ancestors
        rw [foldTree, ihl, ihr, leafDepths, List.length_append, Nat.add_assoc,
          Nat.add_comm (r.leafDepths _).length]
        rfl
  rw [clauseCount, foldAgenda_root, hfold, Nat.zero_add]

/-- A comparison is a leaf. -/
theorem length_leafComparisons_le (ancestors : Nat) (q : Query) :
    q.leafComparisons.length ≤ (q.leafDepths ancestors).length := by
  induction q generalizing ancestors with
  | comparison c => exact Nat.le_refl 1
  | raw r => exact Nat.zero_le 1
  | unary op q ih => exact ih _
  | binary op l r ihl ihr =>
      rw [leafComparisons, leafDepths, List.length_append, List.length_append]
      exact Nat.add_le_add (ihl _) (ihr _)

/-- A tree has a leaf, and a leaf is no higher than the tree. -/
theorem exists_mem_leafDepths (ancestors : Nat) (q : Query) :
    ∃ n ∈ q.leafDepths ancestors, ancestors ≤ n := by
  induction q generalizing ancestors with
  | comparison c => exact ⟨ancestors, List.mem_singleton_self _, Nat.le_refl _⟩
  | raw r => exact ⟨ancestors, List.mem_singleton_self _, Nat.le_refl _⟩
  | unary op q ih =>
      obtain ⟨n, hn, hle⟩ := ih (ancestors + 1)
      exact ⟨n, hn, Nat.le_of_succ_le hle⟩
  | binary op l r ihl ihr =>
      obtain ⟨n, hn, hle⟩ := ihl (ancestors + 1)
      exact ⟨n, List.mem_append_left _ hn, Nat.le_of_succ_le hle⟩

/-- The walk that looks for a deep node finds one exactly if a leaf is deep, though it ends at the
first deep node, leaf or not. -/
theorem reachesBelow_cons (limit : Nat) (q : Query) (ancestors : Nat) (agenda : Agenda) :
    reachesBelow limit ((q, ancestors) :: agenda) ↔
      (∃ n ∈ q.leafDepths ancestors, limit < n) ∨ reachesBelow limit agenda := by
  induction q generalizing ancestors agenda with
  | comparison c => rw [reachesBelow]; simp [Agenda.next, Order.put, operands, leafDepths]
  | raw r => rw [reachesBelow]; simp [Agenda.next, Order.put, operands, leafDepths]
  | unary op q ih =>
      rw [reachesBelow]
      split
      next hlimit =>
        obtain ⟨n, hn, hle⟩ := exists_mem_leafDepths ancestors (unary op q)
        exact ⟨fun _ => .inl ⟨n, hn, Nat.lt_of_lt_of_le hlimit hle⟩, fun _ => rfl⟩
      next => exact ih _ _
  | binary op l r ihl ihr =>
      rw [reachesBelow]
      split
      next hlimit =>
        obtain ⟨n, hn, hle⟩ := exists_mem_leafDepths ancestors (binary op l r)
        exact ⟨fun _ => .inl ⟨n, hn, Nat.lt_of_lt_of_le hlimit hle⟩, fun _ => rfl⟩
      next =>
        refine (ihr _ _).trans ((or_congr_right (ihl _ _)).trans (or_left_comm.trans ?_))
        simp only [leafDepths, List.mem_append, or_and_right, exists_or, or_assoc]

theorem reachesBelow_root (limit : Nat) (q : Query) :
    reachesBelow limit [(q, 0)] ↔ ∃ n ∈ q.leafDepths 0, limit < n := by
  rw [reachesBelow_cons, reachesBelow]
  simp

end QueryFilter.Query
