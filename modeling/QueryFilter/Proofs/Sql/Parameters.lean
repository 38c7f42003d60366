import QueryFilter.Policy.Check
import QueryFilter.Proofs.Query.Leaves
import QueryFilter.Proofs.Sql.Alphabet

/-!
# The parameters of a condition

The parameters of a comparison are scalars of its value, or the one pattern that is made from it,
and there are no more of them than the value has scalars (`binds_of_comparison`).  None of them is a
list, a range or null, and none is an infinity or NaN.  A pattern is never longer than 300
characters: it has at most 100, and each of them is written with at most three.

The parameters of a tree without raw conditions are those of its comparisons from left to right, so
bounds for the comparisons are bounds for the tree (`parameters_of_piecesAt`).
-/

namespace QueryFilter

/-! ## Patterns -/

namespace Pattern

theorem length_flatMap_le {f : Char → List Char} {n : Nat} (hf : ∀ c, (f c).length ≤ n)
    (p : List Char) : (p.flatMap f).length ≤ n * p.length := by
  induction p with
  | nil => exact Nat.zero_le _
  | cons c p ih =>
      rw [List.flatMap_cons, List.length_append, List.length_cons, Nat.mul_succ, Nat.add_comm]
      exact Nat.add_le_add ih (hf c)

theorem length_toLike_le (p : List Char) : (toLike p).length ≤ 2 * p.length := by
  refine length_flatMap_le (fun c => ?_) p
  unfold likeOf
  split
  · decide
  · split
    · decide
    · split
      · exact Nat.le_refl 2
      · exact Nat.le_succ 1

theorem length_toGlob_le (p : List Char) : (toGlob p).length ≤ 3 * p.length := by
  refine length_flatMap_le (fun c => ?_) p
  unfold globOf
  split
  · decide
  · exact Nat.le_add_left 1 2

end Pattern

/-! ## Words -/

/-- Where case is disregarded a text is compared for equality. -/
theorem exists_text_of_foldsCase {c : Comparison} (h : c.foldsCase) :
    c.operator.isEquality ∧ ∃ s, c.value = .text s := by
  obtain ⟨field, operator, value, ignoreCase⟩ := c
  simp only [Comparison.foldsCase, Bool.and_eq_true] at h
  refine ⟨h.1.2, ?_⟩
  cases value with
  | text s => exact ⟨s, rfl⟩
  | null | bool | int | float | list | range => cases h.2

namespace Sql

theorem length_le_of_checkPattern {pattern : String} (h : checkPattern pattern = .ok ()) :
    pattern.toList.length ≤ 100 := by
  unfold checkPattern Pattern.fault? at h
  by_cases hlong : Pattern.maxLength < pattern.toList.length
  · rw [if_pos hlong] at h
    cases h
  · exact Nat.le_of_not_lt hlong

/-! ## Bound values -/

/-- A value that may stand for a placeholder. -/
structure IsParameter (v : Value) : Prop where
  scalar : v.isScalar
  notNull : v.isNull = false
  finite : ∀ x, v = .float x → Number.isFinite x

theorem isBindable_of_bind {v : Value} {piece : Piece} (h : bind v = .ok piece) : isBindable v := by
  rw [bind_eq] at h
  split at h
  · assumption
  · cases h

theorem isBindable_of_mapM_bind {items : List Value} {pieces : List Piece}
    (h : items.mapM bind = .ok pieces) : items.all isBindable := by
  rw [mapM_bind] at h
  split at h
  · assumption
  · cases h

theorem isParameter_of_isBindable {v : Value} (hscalar : v.isScalar ∧ v.isNull = false)
    (hbindable : isBindable v) : IsParameter v :=
  ⟨hscalar.1, hscalar.2, fun x hx => by subst hx; exact hbindable⟩

theorem elementMismatch?_eq_none_iff {v : Value} :
    elementMismatch? v = none ↔ v.isScalar ∧ v.isNull = false := by
  cases v <;> simp [elementMismatch?, Value.isScalar, Value.isNull]

theorem boundMismatch?_eq_none_iff {v : Value} :
    boundMismatch? v = none ↔ v.isScalar ∧ v.isNull = false := by
  cases v <;> simp [boundMismatch?, Value.isScalar, Value.isNull]

/-- What a comparison with a value binds: scalars of the value, or the pattern made from it. -/
structure Binds (value : Value) (params : List Value) : Prop where
  isParameter : ∀ v ∈ params, IsParameter v
  origin : ∀ v ∈ params, v ∈ value.parts ∨ ∃ s, v = .text s ∧ s.length ≤ 300
  length_le : params.length ≤ value.parts.length

theorem binds_nil (value : Value) : Binds value [] := ⟨nofun, nofun, Nat.zero_le _⟩

theorem binds_parts {value : Value} (h : ∀ v ∈ value.parts, IsParameter v) :
    Binds value value.parts := ⟨h, fun _ hv => .inl hv, Nat.le_refl _⟩

theorem values_of_onSide {field sign : String} {bound : Value} {pieces : List Piece}
    (h : onSide field sign bound = .ok pieces) :
    Piece.values pieces = [bound] ∧ isBindable bound := by
  obtain ⟨piece, hbind, hpieces⟩ := bind_eq_ok.mp h
  rw [← Except.ok.inj hpieces, eq_value_of_bind hbind]
  exact ⟨rfl, isBindable_of_bind hbind⟩

theorem values_separated (items : List Value) :
    Piece.values (separated (items.map .value)) = items := by
  induction items with
  | nil => rfl
  | cons item items ih =>
      cases items with
      | nil => rfl
      | cons next items => exact congrArg (item :: ·) ih

/-- The values of a condition about a list are the items of the list. -/
theorem values_of_membership {field keyword whenEmpty : String} {operator : Operator}
    {items : List Value} {pieces : List Piece}
    (h : membership field keyword whenEmpty operator items = .ok pieces) :
    Piece.values pieces = items ∧ ∀ v ∈ items, IsParameter v := by
  unfold membership at h
  split at h
  · cases h
  next hmismatch =>
    split at h
    next hempty =>
      cases h
      rw [List.isEmpty_iff.mp hempty]
      exact ⟨rfl, nofun⟩
    next hempty =>
      obtain ⟨bound, hbind, hpieces⟩ := bind_eq_ok.mp h
      refine ⟨?_, fun v hv => ?_⟩
      · rw [← Except.ok.inj hpieces, eq_map_value_of_mapM_bind hbind]
        simp [values_separated]
      · have hscalar := elementMismatch?_eq_none_iff.mp
          (List.findSome?_eq_none_iff.mp hmismatch v hv)
        exact isParameter_of_isBindable hscalar
          (List.all_eq_true.mp (isBindable_of_mapM_bind hbind) v hv)

theorem binds_of_membership {field keyword whenEmpty : String} {operator : Operator}
    {items : List Value} {pieces : List Piece}
    (h : membership field keyword whenEmpty operator items = .ok pieces) :
    Binds (.list items) (Piece.values pieces) := by
  obtain ⟨hvalues, hparameters⟩ := values_of_membership h
  rw [hvalues]
  exact binds_parts hparameters

/-- The values of a condition about a range are the bounds that are not open. -/
theorem values_of_inRange {field : String} {operator : Operator} {low high : Option Value}
    {closedLow closedHigh : Bool} {pieces : List Piece}
    (h : inRange field operator low high closedLow closedHigh = .ok pieces) :
    Piece.values pieces = Value.bounds low high ∧ ∀ v ∈ Value.bounds low high, IsParameter v := by
  unfold inRange at h
  split at h
  · cases h
  next hmismatch =>
    have hscalar : ∀ v ∈ Value.bounds low high, v.isScalar ∧ v.isNull = false := fun v hv =>
      boundMismatch?_eq_none_iff.mp (List.findSome?_eq_none_iff.mp hmismatch v hv)
    obtain ⟨hvalues, hbindable⟩ : Piece.values pieces = Value.bounds low high ∧
        ∀ v ∈ Value.bounds low high, isBindable v := by
      cases low with
      | none =>
          cases high with
          | none =>
              cases h
              exact ⟨rfl, nofun⟩
          | some high =>
              obtain ⟨hvalues, hhigh⟩ := values_of_onSide h
              exact ⟨hvalues, by simpa [Value.bounds] using hhigh⟩
      | some low =>
          cases high with
          | none =>
              obtain ⟨hvalues, hlow⟩ := values_of_onSide h
              exact ⟨hvalues, by simpa [Value.bounds] using hlow⟩
          | some high =>
              obtain ⟨above, habove, h⟩ := bind_eq_ok.mp h
              obtain ⟨below, hbelow, hpieces⟩ := bind_eq_ok.mp h
              obtain ⟨haboveValues, hlow⟩ := values_of_onSide habove
              obtain ⟨hbelowValues, hhigh⟩ := values_of_onSide hbelow
              rw [← Except.ok.inj hpieces, Piece.values_append, Piece.values_text, haboveValues,
                hbelowValues]
              exact ⟨rfl, by simpa [Value.bounds] using ⟨hlow, hhigh⟩⟩
    exact ⟨hvalues, fun v hv => isParameter_of_isBindable (hscalar v hv) (hbindable v hv)⟩

theorem binds_of_inRange {field : String} {operator : Operator} {low high : Option Value}
    {closedLow closedHigh : Bool} {pieces : List Piece} {value : Value}
    (hparts : value.parts = Value.bounds low high)
    (h : inRange field operator low high closedLow closedHigh = .ok pieces) :
    Binds value (Piece.values pieces) := by
  obtain ⟨hvalues, hparameters⟩ := values_of_inRange h
  rw [← hparts] at hvalues hparameters
  rw [hvalues]
  exact binds_parts hparameters

theorem binds_scalar {value : Value} (hscalar : value.isScalar ∧ value.isNull = false)
    {field sign : String} {pieces : List Piece} (h : onSide field sign value = .ok pieces) :
    Binds value (Piece.values pieces) := by
  obtain ⟨hvalues, hbindable⟩ := values_of_onSide h
  have hparts : value.parts = [value] := Value.parts_of_isScalar hscalar.1
  rw [hvalues, ← hparts]
  refine binds_parts fun v hv => ?_
  rw [hparts, List.mem_singleton] at hv
  exact hv ▸ isParameter_of_isBindable hscalar hbindable

/-- A pattern of the database with at most 300 characters stands for the pattern of a value. -/
theorem binds_pattern {pattern : String} {written : List Char} (hlength : written.length ≤ 300) :
    Binds (.text pattern) [.text (String.ofList written)] where
  isParameter v hv := by
    rw [List.mem_singleton.mp hv]
    exact ⟨rfl, rfl, nofun⟩
  origin v hv := by
    refine .inr ⟨String.ofList written, List.mem_singleton.mp hv, ?_⟩
    rw [String.length_ofList]
    exact hlength
  length_le := Nat.le_refl 1

namespace Translator

variable (t : Translator)

theorem binds_of_patternCondition {field : String} {operator : Operator} {pattern : String}
    {pieces : List Piece} (h : t.patternCondition field operator pattern = .ok pieces) :
    Binds (.text pattern) (Piece.values pieces) := by
  obtain ⟨_, hcheck, h⟩ := bind_eq_ok.mp h
  have hpattern := length_le_of_checkPattern hcheck
  have hlike := Pattern.length_toLike_le pattern.toList
  have hglob := Pattern.length_toGlob_le pattern.toList
  dsimp only at h
  split at h
  · cases h
    exact binds_pattern (by omega)
  · cases h
    exact binds_pattern (by omega)

theorem binds_of_condition {field : String} {operator : Operator} {value : Value}
    {pieces : List Piece} (h : t.condition field operator value = .ok pieces) :
    Binds value (Piece.values pieces) := by
  unfold condition at h
  split at h
  case h_1 => cases h; exact binds_nil _
  case h_2 => cases h; exact binds_nil _
  case h_3 => exact binds_of_membership h
  case h_4 => exact binds_of_membership h
  case h_5 => exact binds_of_membership h
  case h_6 => exact binds_of_membership h
  case h_7 => exact binds_of_inRange rfl h
  case h_8 => exact binds_of_inRange rfl h
  case h_9 => cases h
  case h_10 => exact t.binds_of_patternCondition h
  case h_11 => exact t.binds_of_patternCondition h
  case h_12 =>
    split at h
    · cases h
    · exact binds_scalar ⟨rfl, rfl⟩ h
  case h_13 =>
    split at h
    · split at h
      next hscalar =>
        rw [Bool.and_eq_true, Bool.not_eq_true'] at hscalar
        exact binds_scalar hscalar h
      · cases h
    · cases h

theorem binds_of_comparison {c : Comparison} {pieces : List Piece}
    (h : t.comparison c = .ok pieces) : Binds c.value (Piece.values pieces) := by
  obtain ⟨field, hfield, h⟩ := bind_eq_ok.mp h
  split at h
  next hfolds =>
    obtain ⟨piece, hbind, hpieces⟩ := bind_eq_ok.mp h
    have hvalues : Piece.values pieces = [c.value] := by
      rw [← Except.ok.inj hpieces, eq_value_of_bind hbind]
      rfl
    rw [hvalues]
    -- a text is a scalar and can be bound
    obtain ⟨-, s, hvalue⟩ := exists_text_of_foldsCase (Bool.and_eq_true_iff.mp hfolds).2
    rw [hvalue]
    refine binds_parts fun v hv => ?_
    rw [List.mem_singleton.mp hv]
    exact ⟨rfl, rfl, nofun⟩
  next => exact t.binds_of_condition h

/-! ## Trees -/

/-- What holds of the parameters of each comparison of a tree holds of the parameters of the tree,
and there are at most `n` of them for each comparison if a comparison never has more. -/
theorem parameters_of_piecesAt {P : Value → Prop} {n : Nat} {q : Query} (hraw : q.isRawFree)
    (hleaf : ∀ c ∈ q.leafComparisons, ∀ pieces, t.comparison c = .ok pieces →
      (∀ v ∈ Piece.values pieces, P v) ∧ (Piece.values pieces).length ≤ n)
    {ancestors : Nat} {pieces : List Piece} (h : t.piecesAt ancestors q = .ok pieces) :
    (∀ v ∈ Piece.values pieces, P v) ∧
      (Piece.values pieces).length ≤ q.leafComparisons.length * n := by
  induction q generalizing ancestors pieces with
  | comparison c =>
      rw [Query.leafComparisons, List.length_singleton, Nat.one_mul]
      exact hleaf c (List.mem_singleton_self c) pieces (t.piecesAt_comparison_eq_ok.mp h).2
  | raw r => cases hraw
  | unary op q ih =>
      obtain ⟨-, -, inner, hinner, rfl⟩ := t.piecesAt_unary_eq_ok.mp h
      have hvalues : Piece.values (.text "NOT (" :: inner ++ [.text ")"]) = Piece.values inner := by
        simp
      rw [hvalues]
      exact ih hraw hleaf hinner
  | binary op l r ihl ihr =>
      obtain ⟨-, -, left, right, hleft, hright, rfl⟩ := t.piecesAt_binary_eq_ok.mp h
      rw [Query.isRawFree, Bool.and_eq_true] at hraw
      obtain ⟨hl, hllength⟩ :=
        ihl hraw.1 (fun c hc => hleaf c (List.mem_append_left _ hc)) hleft
      obtain ⟨hr, hrlength⟩ :=
        ihr hraw.2 (fun c hc => hleaf c (List.mem_append_right _ hc)) hright
      have hvalues : Piece.values (.text "(" :: left ++ .text (junction op) :: right ++ [.text ")"]) =
          Piece.values left ++ Piece.values right := by simp
      rw [hvalues, Query.leafComparisons, List.length_append, List.length_append, Nat.add_mul]
      exact ⟨fun v hv => (List.mem_append.mp hv).elim (hl v) (hr v),
        Nat.add_le_add hllength hrlength⟩

end Translator

end Sql

end QueryFilter
