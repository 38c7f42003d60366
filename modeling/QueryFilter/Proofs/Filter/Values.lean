import Mathlib.Data.List.Forall2
import QueryFilter.Proofs.Steps
import QueryFilter.Query.Filter

/-!
# The values of a filter document

Which documents stand for a value, said without the reader: a document denotes a scalar
(`Document.Denotes`), and an operator takes a value from a document (`Operator.Reads`).  The readers
of values give a value exactly if the document stands for it, so that an object, or an array in an
array, is never a value.

Operators go by their keys, which all begin with a dollar sign (`Operator.key`).
-/

namespace QueryFilter

/-! ## Keys -/

namespace Operator

/-- The name of an operator in a filter document, without its dollar sign. -/
def bareName : Operator → String
  | eq => "eq"
  | ne => "ne"
  | gt => "gt"
  | gte => "gte"
  | lt => "lt"
  | lte => "lte"
  | oneOf => "in"
  | noneOf => "nin"
  | like => "like"
  | ilike => "ilike"
  | regex => "regex"
  | between => "between"

/-- The key of an operator in an object of operators. -/
def key (operator : Operator) : String := "$" ++ operator.bareName

theorem ofBareName?_eq_some {name : String} {operator : Operator} :
    ofBareName? name = some operator ↔ name = operator.bareName := by
  constructor
  · intro h
    unfold ofBareName? at h
    split at h
    all_goals first
      | exact Option.some.inj h ▸ rfl
      | cases h
  · rintro rfl
    cases operator <;> rfl

theorem isDollarKey_key (operator : Operator) : isDollarKey operator.key := by
  cases operator <;> decide

theorem ofName?_key (operator : Operator) : ofName? operator.key = some operator := by
  cases operator <;> decide

/-- A name with a dollar sign is the name of an operator exactly if it is the key of it. -/
theorem eq_key_of_ofName? {name : String} {operator : Operator} (hdollar : isDollarKey name)
    (h : ofName? name = some operator) : name = operator.key := by
  unfold ofName? at h
  split at h
  next s hname =>
    rw [ofBareName?_eq_some] at h
    apply String.toList_inj.mp
    rw [hname, key, ← h, String.toList_append]
    exact congrArg ('$' :: ·) String.toList_ofList.symm
  next s hplain =>
    -- without a dollar sign in front it is no key at all
    rw [isDollarKey, beq_iff_eq] at hdollar
    obtain ⟨rest, hname⟩ := List.head?_eq_some_iff.mp hdollar
    exact absurd hname (hplain rest)

end Operator

/-! ## Scalars -/

/-- The scalar that a document stands for, where it stands for one: the integer fits into 64 bits,
and the number is finite. -/
inductive Document.Denotes : Document → Value → Prop
  | null : Denotes .null .null
  | bool (b : Bool) : Denotes (.bool b) (.bool b)
  | integer (n : Int64) : Denotes (.integer n.toInt) (.int n)
  | float {x : Float} (hx : Number.isFinite x) : Denotes (.float x) (.float x)
  | string (s : String) : Denotes (.string s) (.text s)

namespace Value

theorem scalarOfDocument_eq_ok {d : Document} {v : Value} :
    scalarOfDocument d = .ok v ↔ d.Denotes v := by
  constructor
  · intro h
    unfold scalarOfDocument at h
    split at h
    · cases h
      exact .null
    · cases h
      exact .bool _
    next n =>
      split at h
      next hrange =>
        cases h
        have hn : (Int64.ofInt n).toInt = n := by
          rw [Int64.toInt_minValue, Int64.toInt_maxValue] at hrange
          exact Int64.toInt_ofInt_of_le hrange.1 (by omega)
        have hdenotes := Document.Denotes.integer (Int64.ofInt n)
        rwa [hn] at hdenotes
      · cases h
    next x =>
      split at h
      next hfinite =>
        cases h
        exact .float hfinite
      · cases h
    · cases h
      exact .string _
    · cases h
    · cases h
  · intro h
    cases h with
    | null => rfl
    | bool b => rfl
    | integer n =>
        rw [scalarOfDocument, if_pos ⟨n.minValue_le_toInt, n.toInt_le⟩, Int64.ofInt_toInt]
    | float hx => rw [scalarOfDocument, if_pos hx]
    | string s => rfl

theorem itemOfDocument_eq_ok {d : Document} {v : Value} :
    itemOfDocument d = .ok v ↔ d.Denotes v := by
  unfold itemOfDocument
  split
  · exact ⟨nofun, nofun⟩
  · exact scalarOfDocument_eq_ok

end Value

/-! ## Operators -/

/-- The value that an operator takes from a document: a scalar, a text, a list of scalars, or a
range whose two bounds are scalars and not null. -/
inductive Operator.Reads : Operator → Document → Value → Prop
  | scalar {operator : Operator} {d : Document} {v : Value}
    (hoperator : operator ∈ [.eq, .ne, .gt, .gte, .lt, .lte]) (hd : d.Denotes v) :
    Reads operator d v
  | text {operator : Operator} (hoperator : operator ∈ [.like, .ilike, .regex]) (s : String) :
    Reads operator (.string s) (.text s)
  | list {operator : Operator} {documents : List Document} {items : List Value}
    (hoperator : operator ∈ [.oneOf, .noneOf])
    (hitems : List.Forall₂ Document.Denotes documents items) :
    Reads operator (.array documents) (.list items)
  | range {d d' : Document} {low high : Value} (hlow : d.Denotes low) (hlowNull : low ≠ .null)
    (hhigh : d'.Denotes high) (hhighNull : high ≠ .null) :
    Reads .between (.array [d, d']) (.range (some low) (some high) true true)

/-- A member of an object of operators has the key of an operator, and a document from which the
operator takes a value. -/
def Operator.ReadsMember (operator : Operator) (member : String × Document) (v : Value) : Prop :=
  member.1 = operator.key ∧ operator.Reads member.2 v

namespace Value

theorem isNull_eq_false_iff {v : Value} : v.isNull = false ↔ v ≠ .null := by
  cases v <;> simp [isNull]

theorem rangeOfDocuments_eq_ok {d d' : Document} {v : Value} :
    rangeOfDocuments d d' = .ok v ↔ Operator.between.Reads (.array [d, d']) v := by
  constructor
  · intro h
    obtain ⟨low, hlow, h⟩ := bind_eq_ok.mp h
    obtain ⟨high, hhigh, h⟩ := bind_eq_ok.mp h
    rw [mapError_eq_ok, scalarOfDocument_eq_ok] at hlow hhigh
    split at h
    · cases h
    next hnull =>
      cases h
      rw [Bool.not_eq_true, Bool.or_eq_false_iff, isNull_eq_false_iff, isNull_eq_false_iff] at hnull
      exact .range hlow hnull.1 hhigh hnull.2
  · intro h
    cases h with
    | scalar hoperator _ => exact absurd hoperator (by decide)
    | list hoperator _ => exact absurd hoperator (by decide)
    | @range _ _ low high hlow hlowNull hhigh hhighNull =>
        refine bind_eq_ok.mpr ⟨low, ?_, bind_eq_ok.mpr ⟨high, ?_, ?_⟩⟩
        · rw [mapError_eq_ok, scalarOfDocument_eq_ok]
          exact hlow
        · rw [mapError_eq_ok, scalarOfDocument_eq_ok]
          exact hhigh
        · rw [isNull_eq_false_iff.mpr hlowNull, isNull_eq_false_iff.mpr hhighNull]
          rfl

/-- An operator gets a value from a document exactly if it takes that value from it. -/
theorem forOperator_eq_ok {operator : Operator} {key : String} {d : Document} {v : Value} :
    forOperator operator key d = .ok v ↔ operator.Reads d v := by
  constructor
  · intro h
    unfold forOperator at h
    split at h
    · exact rangeOfDocuments_eq_ok.mp h
    · replace h := mapError_eq_ok.mp h
      cases operator with
      | eq | ne | gt | gte | lt | lte => exact .scalar (by decide) (scalarOfDocument_eq_ok.mp h)
      | like | ilike | regex =>
          cases d with
          | string s =>
              cases h
              exact .text (by decide) s
          | null | bool | integer | float | array | object => cases h
      | oneOf | noneOf =>
          cases d with
          | array documents =>
              obtain ⟨items, hitems, rfl⟩ := map_eq_ok.mp h
              refine .list (by decide) ((mapM_eq_ok.mp hitems).imp fun _ _ hitem => ?_)
              exact itemOfDocument_eq_ok.mp hitem
          | null | bool | integer | float | string | object => cases h
      | between => cases d <;> cases h
  · intro h
    cases h with
    | scalar hoperator hd =>
        rw [← scalarOfDocument_eq_ok] at hd
        simp only [List.mem_cons, List.not_mem_nil, or_false] at hoperator
        rcases hoperator with rfl | rfl | rfl | rfl | rfl | rfl <;> exact mapError_eq_ok.mpr hd
    | text hoperator s =>
        simp only [List.mem_cons, List.not_mem_nil, or_false] at hoperator
        rcases hoperator with rfl | rfl | rfl <;> rfl
    | @list _ documents items hoperator hitems =>
        have hlist : Value.ofDocument (.array documents) = .ok (.list items) :=
          map_eq_ok.mpr ⟨items, mapM_eq_ok.mpr (hitems.imp fun _ _ hitem =>
            itemOfDocument_eq_ok.mpr hitem), rfl⟩
        simp only [List.mem_cons, List.not_mem_nil, or_false] at hoperator
        rcases hoperator with rfl | rfl <;> exact mapError_eq_ok.mpr hlist
    | range hlow hlowNull hhigh hhighNull =>
        exact rangeOfDocuments_eq_ok.mpr (.range hlow hlowNull hhigh hhighNull)

end Value

end QueryFilter
