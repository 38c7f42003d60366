import QueryFilter.Proofs.Filter.Values
import QueryFilter.Proofs.Query.Induction

/-!
# What a filter document means

The language of filter documents, said without the reader: which documents are filters
(`Document.IsFilter`), and when a filter holds if it is given which comparisons hold
(`Document.Holds`).  The reader accepts exactly the filters, and the query that it gives holds
exactly when the document does (`Query.ofDocument_faithful`).

## Strategy

Every reader is stated to be faithful to what it reads: it accepts what is valid and nothing else,
and what it gives holds when the document holds (`Faithful`).  Members and arrays are read by one
loop, which joins what it has read from the left, so faithfulness of the parts gives faithfulness of
the whole once and for all (`Faithful.join`).  The filters follow by induction on the levels of
nesting that are left.
-/

namespace QueryFilter

/-! ## The language -/

namespace Document

/-- What may stand behind a field: a scalar, or an object of operators that is not empty. -/
inductive IsCondition : Document → Prop
  | scalar {d : Document} {v : Value} (h : d.Denotes v) : IsCondition d
  | operators {members : List (String × Document)} (hne : members ≠ [])
    (hmembers : ∀ member ∈ members, ∃ operator v, Operator.ReadsMember operator member v) :
    IsCondition (.object members)

mutual

/-- A filter with a number of connectives around it. -/
inductive IsFilter : (depth : Nat) → Document → Prop
  | object {depth : Nat} {members : List (String × Document)} (hdepth : depth ≤ 64)
    (hne : members ≠ []) (hmembers : ∀ member ∈ members, IsMember depth member.1 member.2) :
    IsFilter depth (.object members)

/-- A member of such a filter: a connective with filters, or a field with a condition. -/
inductive IsMember : (depth : Nat) → String → Document → Prop
  | junction {depth : Nat} {key : String} {items : List Document}
    (hkey : key = "$and" ∨ key = "$or") (hne : items ≠ [])
    (hitems : ∀ d ∈ items, IsFilter (depth + 1) d) : IsMember depth key (.array items)
  | negation {depth : Nat} {d : Document} (h : IsFilter (depth + 1) d) : IsMember depth "$not" d
  | field {depth : Nat} {d : Document} (field : FieldPath)
    (hkey : field.text.toList.head? ≠ some '$') (h : d.IsCondition) : IsMember depth field.text d

end

end Document

/-! ## The meaning -/

/-- For the text of a field, an operator and a value, whether the comparison holds. -/
abbrev Assignment := String → Operator → Value → Prop

/-- Whether a query holds.  Raw conditions hold of nothing. -/
def Query.Holds (truth : Assignment) : Query → Prop
  | comparison c => truth c.field.text c.operator c.value
  | raw _ => False
  | unary _ q => ¬ q.Holds truth
  | binary op l r => if op = .or then l.Holds truth ∨ r.Holds truth else l.Holds truth ∧ r.Holds truth

namespace Document

/-- Whether a field meets a condition: it equals the scalar, or all operators hold of it. -/
def FieldHolds (truth : Assignment) (key : String) : Document → Prop
  | object members => ∀ member ∈ members,
      ∃ operator v, Operator.ReadsMember operator member v ∧ truth key operator v
  | d => ∃ v, d.Denotes v ∧ truth key .eq v

mutual

/-- Whether a filter holds: all its members do. -/
def Holds (truth : Assignment) : Document → Prop
  | object members => MembersHold truth members
  | _ => False

/-- Whether all members hold. -/
def MembersHold (truth : Assignment) : List (String × Document) → Prop
  | [] => True
  | member :: members => MemberHolds truth member ∧ MembersHold truth members

/-- Whether a member holds: its filters do, all or one of them, or its filter does not, or its field
meets its condition. -/
def MemberHolds (truth : Assignment) : String × Document → Prop
  | (key, array items) =>
    if key = "$and" then AllHold truth items
    else if key = "$or" then SomeHolds truth items
    else False
  | (key, d) => if key = "$not" then ¬ Holds truth d else FieldHolds truth key d

/-- Whether all filters hold. -/
def AllHold (truth : Assignment) : List Document → Prop
  | [] => True
  | d :: items => Holds truth d ∧ AllHold truth items

/-- Whether one of some filters holds. -/
def SomeHolds (truth : Assignment) : List Document → Prop
  | [] => False
  | d :: items => Holds truth d ∨ SomeHolds truth items

end

variable {truth : Assignment}

theorem membersHold_iff {members : List (String × Document)} :
    MembersHold truth members ↔ ∀ member ∈ members, MemberHolds truth member := by
  induction members with
  | nil => simp [MembersHold]
  | cons member members ih => rw [MembersHold, ih, List.forall_mem_cons]

theorem allHold_iff {items : List Document} : AllHold truth items ↔ ∀ d ∈ items, d.Holds truth := by
  induction items with
  | nil => simp [AllHold]
  | cons d items ih => rw [AllHold, ih, List.forall_mem_cons]

theorem someHolds_iff {items : List Document} :
    SomeHolds truth items ↔ ∃ d ∈ items, d.Holds truth := by
  induction items with
  | nil => simp [SomeHolds]
  | cons d items ih => rw [SomeHolds, ih, List.exists_mem_cons_iff]

end Document

/-! ## Joining -/

/-- Whether the parts that a connective joins hold together: one of them, or all. -/
def Joined {α : Type} (op : Connective) (parts : List α) (holds : α → Prop) : Prop :=
  if op = .or then ∃ part ∈ parts, holds part else ∀ part ∈ parts, holds part

theorem Joined.congr {α β : Type} {op : Connective} {as : List α} {bs : List β}
    {holds : α → Prop} {holds' : β → Prop}
    (h : List.Forall₂ (fun a b => holds' b ↔ holds a) as bs) :
    Joined op bs holds' ↔ Joined op as holds := by
  unfold Joined
  split
  · induction h with
    | nil => simp
    | cons hab _ ih => rw [List.exists_mem_cons_iff, List.exists_mem_cons_iff, hab, ih]
  · induction h with
    | nil => simp
    | cons hab _ ih => rw [List.forall_mem_cons, List.forall_mem_cons, hab, ih]

namespace Query

variable {truth : Assignment}

theorem holds_foldl_and (others : List Query) (first : Query) :
    (others.foldl Query.and first).Holds truth ↔
      first.Holds truth ∧ ∀ q ∈ others, q.Holds truth := by
  induction others generalizing first with
  | nil => simp
  | cons next others ih =>
      rw [List.foldl_cons, ih, List.forall_mem_cons, ← and_assoc]
      rfl

theorem holds_foldl_or (others : List Query) (first : Query) :
    (others.foldl Query.or first).Holds truth ↔
      first.Holds truth ∨ ∃ q ∈ others, q.Holds truth := by
  induction others generalizing first with
  | nil => simp
  | cons next others ih =>
      rw [List.foldl_cons, ih, List.exists_mem_cons_iff, ← or_assoc]
      rfl

theorem holds_of_join? {op : Connective} {queries : List Query} {q : Query}
    (h : join? op queries = some q) : q.Holds truth ↔ Joined op queries (Holds truth) := by
  cases queries with
  | nil => cases h
  | cons first others =>
      cases h
      unfold Joined
      by_cases hop : op = .or
      · rw [if_pos hop, if_pos hop, holds_foldl_or, List.exists_mem_cons_iff]
      · rw [if_neg hop, if_neg hop, holds_foldl_and, List.forall_mem_cons]

end Query

/-! ## Faithful readers -/

/-- What a reader makes of its input is a query exactly if the input is valid, and the query holds
exactly when the input does. -/
structure Faithful (result : Except ParseError Query) (valid : Prop) (holds : Assignment → Prop) :
    Prop where
  accepts : (∃ q, result = .ok q) ↔ valid
  keeps : ∀ q, result = .ok q → ∀ truth, q.Holds truth ↔ holds truth

namespace Faithful

/-- A reader that refuses is faithful to what is not valid. -/
theorem refuses {e : ParseError} {valid : Prop} {holds : Assignment → Prop} (h : ¬ valid) :
    Faithful (.error e) valid holds where
  accepts := ⟨nofun, fun hvalid => absurd hvalid h⟩
  keeps := nofun

/-- If every part is read faithfully, then so are all of them, joined by a connective. -/
theorem join {α : Type} {f : α → Except ParseError Query} {valid : α → Prop}
    {holds : α → Assignment → Prop} (h : ∀ a, Faithful (f a) (valid a) (holds a))
    (op : Connective) (cause : ParseError.FilterCause) (as : List α) :
    Faithful (do joinFilters op cause (← as.mapM f)) (as ≠ [] ∧ ∀ a ∈ as, valid a)
      (fun truth => Joined op as (holds · truth)) := by
  have hresult : ∀ q, (do joinFilters op cause (← as.mapM f)) = Except.ok q ↔
      ∃ queries, List.Forall₂ (fun a q => f a = .ok q) as queries ∧
        Query.join? op queries = some q := by
    intro q
    have hjoin : ∀ queries, joinFilters op cause queries = .ok q ↔
        Query.join? op queries = some q := by
      intro queries
      cases queries with
      | nil => exact ⟨nofun, nofun⟩
      | cons first others => exact ⟨fun h => congrArg some (Except.ok.inj h),
          fun h => congrArg Except.ok (Option.some.inj h)⟩
    simp only [bind_eq_ok, mapM_eq_ok, hjoin]
  constructor
  · simp only [hresult]
    constructor
    · rintro ⟨q, queries, hqueries, hjoin⟩
      refine ⟨?_, fun a ha => (h a).accepts.mp ?_⟩
      · rintro rfl
        rw [List.forall₂_nil_left_iff.mp hqueries] at hjoin
        cases hjoin
      · exact exists_mapM_eq_ok.mp ⟨queries, mapM_eq_ok.mpr hqueries⟩ a ha
    · rintro ⟨hne, hvalid⟩
      obtain ⟨queries, hqueries⟩ :=
        exists_mapM_eq_ok.mpr fun a ha => (h a).accepts.mpr (hvalid a ha)
      rw [mapM_eq_ok] at hqueries
      cases queries with
      | nil => exact absurd (List.forall₂_nil_right_iff.mp hqueries) hne
      | cons first others => exact ⟨_, first :: others, hqueries, rfl⟩
  · intro q hq truth
    obtain ⟨queries, hqueries, hjoin⟩ := (hresult q).mp hq
    rw [Query.holds_of_join? hjoin]
    exact Joined.congr (hqueries.imp fun a q haq => (h a).keeps q haq truth)

theorem not {result : Except ParseError Query} {valid : Prop} {holds : Assignment → Prop}
    (h : Faithful result valid holds) :
    Faithful (result.map Query.not) valid (fun truth => ¬ holds truth) where
  accepts := by
    rw [← h.accepts]
    simp only [map_eq_ok]
    exact ⟨fun ⟨_, q, hq, _⟩ => ⟨q, hq⟩, fun ⟨q, hq⟩ => ⟨q.not, q, hq, rfl⟩⟩
  keeps := by
    intro q hq truth
    obtain ⟨inner, hinner, rfl⟩ := map_eq_ok.mp hq
    exact not_congr (h.keeps inner hinner truth)

/-- What is valid may be said in other words, and so may what valid input means. -/
theorem congr {result : Except ParseError Query} {valid valid' : Prop}
    {holds holds' : Assignment → Prop} (h : Faithful result valid holds)
    (hvalid : valid' ↔ valid) (hholds : valid → ∀ truth, holds' truth ↔ holds truth) :
    Faithful result valid' holds' where
  accepts := h.accepts.trans hvalid.symm
  keeps := by
    intro q hq truth
    rw [hholds (h.accepts.mp ⟨q, hq⟩)]
    exact h.keeps q hq truth

end Faithful

/-! ## Fields -/

theorem FieldPath.read_eq_ok {key : String} {field : FieldPath} :
    FieldPath.read key = .ok field ↔ field.text = key := by
  rw [FieldPath.read, mapError_eq_ok, FieldPath.ofString]
  split
  next fault hfault =>
    refine ⟨nofun, ?_⟩
    rintro rfl
    rw [field.wellShaped] at hfault
    cases hfault
  next hshape =>
    constructor
    · intro h
      exact (congrArg FieldPath.text (Except.ok.inj h)).symm
    · rintro rfl
      rfl

theorem readOperatorMember_eq_ok {field : FieldPath} {member : String × Document} {q : Query} :
    readOperatorMember field member = .ok q ↔ ∃ operator v,
      Operator.ReadsMember operator member v ∧ .comparison ⟨field, operator, v, false⟩ = q := by
  obtain ⟨key, d⟩ := member
  constructor
  · intro h
    unfold readOperatorMember at h
    dsimp only at h
    split at h
    · cases h
    next hdollar =>
      rw [Bool.not_eq_true, Bool.not_eq_false'] at hdollar
      split at h
      · cases h
      next operator hname =>
        obtain ⟨v, hv, h⟩ := bind_eq_ok.mp h
        exact ⟨operator, v, ⟨Operator.eq_key_of_ofName? hdollar hname,
          Value.forOperator_eq_ok.mp hv⟩, Except.ok.inj h⟩
  · rintro ⟨operator, v, ⟨hkey, hv⟩, rfl⟩
    dsimp only at hkey
    subst hkey
    unfold readOperatorMember
    dsimp only
    rw [operator.isDollarKey_key, operator.ofName?_key]
    exact bind_eq_ok.mpr ⟨v, Value.forOperator_eq_ok.mpr hv, rfl⟩

/-- A reader that makes a comparison of a field, with an operator and a value that stand in its
input, is faithful to its input. -/
theorem Faithful.comparison {result : Except ParseError Query} (field : FieldPath)
    {P : Operator → Value → Prop}
    (h : ∀ q, result = .ok q ↔
      ∃ operator v, P operator v ∧ .comparison ⟨field, operator, v, false⟩ = q) :
    Faithful result (∃ operator v, P operator v)
      (fun truth => ∃ operator v, P operator v ∧ truth field.text operator v) where
  accepts := by
    simp only [h]
    exact ⟨fun ⟨_, operator, v, hv, _⟩ => ⟨operator, v, hv⟩,
      fun ⟨operator, v, hv⟩ => ⟨_, operator, v, hv, rfl⟩⟩
  keeps := by
    intro q hq truth
    constructor
    · intro hholds
      obtain ⟨operator, v, hv, rfl⟩ := (h q).mp hq
      exact ⟨operator, v, hv, hholds⟩
    · rintro ⟨operator, v, hv, hholds⟩
      -- no second query is made of the same input, so this is the one
      rw [Except.ok.inj (hq.symm.trans ((h _).mpr ⟨operator, v, hv, rfl⟩))]
      exact hholds

/-- A field that is given a scalar has to equal it. -/
theorem faithful_scalar (field : FieldPath) {d : Document} (hd : ∀ members, d ≠ .object members) :
    Faithful (do
        let value ← (Value.scalarOfDocument d).mapError ParseError.ofFilter
        .ok (.comparison ⟨field, .eq, value, false⟩))
      d.IsCondition (fun truth => d.FieldHolds truth field.text) := by
  refine Faithful.congr
    (Faithful.comparison field (P := fun operator v => operator = .eq ∧ d.Denotes v) fun q => ?_)
    ?_ fun _ truth => ?_
  · simp [bind_eq_ok, mapError_eq_ok, Value.scalarOfDocument_eq_ok]
  · constructor
    · intro h
      cases h with
      | scalar h => exact ⟨.eq, _, rfl, h⟩
      | operators => exact absurd rfl (hd _)
    · rintro ⟨_, v, -, h⟩
      exact .scalar h
  · rw [Document.FieldHolds.eq_2 _ _ _ hd]
    simp

theorem isCondition_object_iff {members : List (String × Document)} :
    (Document.object members).IsCondition ↔ members ≠ [] ∧
      ∀ member ∈ members, ∃ operator v, Operator.ReadsMember operator member v := by
  constructor
  · intro h
    cases h with
    | scalar h => cases h
    | operators hne hmembers => exact ⟨hne, hmembers⟩
  · exact fun h => .operators h.1 h.2

theorem faithful_readFieldMember (key : String) (d : Document) :
    Faithful (readFieldMember key d) ((∃ field : FieldPath, field.text = key) ∧ d.IsCondition)
      (fun truth => d.FieldHolds truth key) := by
  by_cases hfield : ∃ field : FieldPath, field.text = key
  · obtain ⟨field, rfl⟩ := hfield
    have hread : FieldPath.read field.text = .ok field := FieldPath.read_eq_ok.mpr rfl
    unfold readFieldMember
    rw [hread]
    have hvalid : ((∃ field' : FieldPath, field'.text = field.text) ∧ d.IsCondition) ↔
        d.IsCondition := and_iff_right ⟨field, rfl⟩
    cases d with
    | object members =>
        have hjoin := Faithful.join (f := readOperatorMember field)
          (fun _ => .comparison field fun _ => readOperatorMember_eq_ok) .and .objectValue members
        exact hjoin.congr (hvalid.trans isCondition_object_iff) fun _ _ => Iff.rfl
    | array items =>
        refine .refuses ?_
        rintro ⟨-, h⟩
        cases h with
        | scalar h => cases h
    | null | bool | integer | float | string =>
        refine (faithful_scalar field ?_).congr hvalid fun _ _ => Iff.rfl
        exact nofun
  · have hread : ∃ e, FieldPath.read key = .error e := by
      cases hread : FieldPath.read key with
      | error e => exact ⟨e, rfl⟩
      | ok field => exact absurd ⟨field, FieldPath.read_eq_ok.mp hread⟩ hfield
    obtain ⟨e, hread⟩ := hread
    unfold readFieldMember
    rw [hread]
    exact .refuses fun h => hfield h.1

/-! ## Filters -/

namespace Document

variable {depth : Nat} {key : String} {d : Document}

theorem isMember_junction_iff (hkey : key = "$and" ∨ key = "$or") :
    IsMember depth key d ↔
      ∃ items, d = .array items ∧ items ≠ [] ∧ ∀ d ∈ items, IsFilter (depth + 1) d := by
  constructor
  · intro h
    cases h with
    | junction _ hne hitems => exact ⟨_, rfl, hne, hitems⟩
    | negation => exact absurd hkey (by decide)
    | field field hplain => rcases hkey with hkey | hkey <;> exact absurd (hkey ▸ rfl) hplain
  · rintro ⟨items, rfl, hne, hitems⟩
    exact .junction hkey hne hitems

theorem isMember_negation_iff : IsMember depth "$not" d ↔ IsFilter (depth + 1) d := by
  refine ⟨fun h => ?_, .negation⟩
  generalize hkey : "$not" = key at h
  cases h with
  | junction hjunction => exact absurd (hkey ▸ hjunction) (by decide)
  | negation h => exact h
  | field field hplain => exact absurd (hkey ▸ rfl) hplain

/-- A key with a dollar sign is one of the three connectives. -/
theorem IsMember.key_of_isDollarKey (h : IsMember depth key d) (hdollar : isDollarKey key) :
    key ∈ ["$and", "$or", "$not"] := by
  cases h with
  | junction hkey => rcases hkey with rfl | rfl <;> decide
  | negation => decide
  | field field hplain => exact absurd (beq_iff_eq.mp hdollar) hplain

theorem isMember_field_iff (hplain : ¬ isDollarKey key) :
    IsMember depth key d ↔ (∃ field : FieldPath, field.text = key) ∧ d.IsCondition := by
  constructor
  · intro h
    cases h with
    | junction hkey => rcases hkey with rfl | rfl <;> exact absurd rfl hplain
    | negation => exact absurd rfl hplain
    | field field _ h => exact ⟨⟨field, rfl⟩, h⟩
  · rintro ⟨⟨field, rfl⟩, h⟩
    exact .field field (mt beq_iff_eq.mpr hplain) h

end Document

section Members

variable {depth : Nat} {inner : Document → Except ParseError Query}
  (hinner : ∀ d, Faithful (inner d) (d.IsFilter (depth + 1)) (d.Holds ·))

include hinner

theorem faithful_readFilterList {op : Connective} {key : String}
    (hkey : op = .and ∧ key = "$and" ∨ op = .or ∧ key = "$or") (d : Document) :
    Faithful (readFilterList inner op key d) (Document.IsMember depth key d)
      (Document.MemberHolds · (key, d)) := by
  have hjunction : d.IsMember depth key ↔
      ∃ items, d = .array items ∧ items ≠ [] ∧ ∀ d ∈ items, d.IsFilter (depth + 1) :=
    Document.isMember_junction_iff (hkey.imp And.right And.right)
  cases d with
  | array items =>
      refine (Faithful.join hinner op (.noFilters key) items).congr ?_ fun _ truth => ?_
      · rw [hjunction]
        exact ⟨fun ⟨_, heq, h⟩ => Document.array.inj heq ▸ h, fun h => ⟨items, rfl, h⟩⟩
      · rw [Document.MemberHolds, Document.allHold_iff, Document.someHolds_iff]
        rcases hkey with ⟨rfl, rfl⟩ | ⟨rfl, rfl⟩ <;> rfl
  | null | bool | integer | float | string | object =>
      refine .refuses ?_
      rw [hjunction]
      rintro ⟨_, heq, -⟩
      cases heq

theorem faithful_readMember (member : String × Document) :
    Faithful (readMember inner member) (Document.IsMember depth member.1 member.2)
      (Document.MemberHolds · member) := by
  obtain ⟨key, d⟩ := member
  unfold readMember
  dsimp only
  split
  next hkey => exact faithful_readFilterList hinner (.inl ⟨rfl, hkey⟩) d
  next hand =>
    split
    next hkey => exact faithful_readFilterList hinner (.inr ⟨rfl, hkey⟩) d
    next hor =>
      split
      next hkey =>
        subst hkey
        refine (hinner d).not.congr Document.isMember_negation_iff fun hvalid truth => ?_
        cases hvalid with
        | object => rfl
      next hnot =>
        split
        next hdollar =>
          refine .refuses fun h => ?_
          have hknown := h.key_of_isDollarKey hdollar
          simp only [List.mem_cons, List.not_mem_nil, or_false] at hknown
          exact hknown.elim hand fun h => h.elim hor hnot
        next hplain =>
          refine (faithful_readFieldMember key d).congr (Document.isMember_field_iff hplain)
            fun hvalid truth => ?_
          have hmember : ∀ items, d ≠ .array items := by
            rintro items rfl
            cases hvalid.2 with
            | scalar h => cases h
          rw [Document.MemberHolds.eq_2 _ _ _ hmember, if_neg hnot]

end Members

/-- The levels of nesting that are left tell how deep a filter lies. -/
theorem faithful_readFilter {levels depth : Nat} (hlevels : depth + levels = maxNesting + 1)
    (d : Document) : Faithful (readFilter levels d) (d.IsFilter depth) (d.Holds ·) := by
  induction levels generalizing depth d with
  | zero =>
      refine .refuses fun h => ?_
      cases h with
      | object hdepth => exact absurd hdepth (by rw [maxNesting] at hlevels; omega)
  | succ levels ih =>
      have hinner : ∀ d, Faithful (readFilter levels d) (d.IsFilter (depth + 1)) (d.Holds ·) :=
        ih (by omega)
      cases d with
      | object members =>
          have hjoin := Faithful.join (faithful_readMember hinner) .and .emptyObject members
          refine hjoin.congr ⟨?_, fun h => ?_⟩ fun _ truth => ?_
          · intro h
            cases h with
            | object _ hne hmembers => exact ⟨hne, hmembers⟩
          · exact .object (by rw [maxNesting] at hlevels; omega) h.1 h.2
          · rw [Document.Holds, Document.membersHold_iff]
            rfl
      | null | bool | integer | float | string | array => exact .refuses nofun

/-- **A document is accepted exactly if it is a filter, and the query means what the document
means.**  The query is a tree of comparisons that regard case, in which every connective has the
operands that belong to it, and whichever comparisons hold, it holds exactly when the document
does. -/
theorem Query.ofDocument_faithful (d : Document) :
    ((∃ q, Query.ofDocument d = .ok q) ↔ d.IsFilter 0) ∧
      ∀ q, Query.ofDocument d = .ok q →
        q.IsTreeOf (fun c => c.ignoreCase = false) ∧ ∀ truth, q.Holds truth ↔ d.Holds truth := by
  have hfaithful := faithful_readFilter (Nat.zero_add (maxNesting + 1)) d
  refine ⟨hfaithful.accepts, fun q hq => ⟨?_, hfaithful.keeps q hq⟩⟩
  exact readFilter_gives (isKept_isTreeOf fun c => c.ignoreCase = false) (fun _ => rfl) hq

/-- A field is given two operators below a negation, one of several filters that need not hold.  An
object in a list of values is an operator in disguise, and no filter. -/
theorem Query.ofDocument_faithful_nested :
    let d : Document := .object [("$or", .array [.object [("a", .null)], .object [("$not",
      .object [("b", .object [("$between", .array [.integer 1, .integer 2]),
        ("$nin", .array [.string "x", .bool true])])])]]), ("c", .object [("$like", .string "x*")])]
    let disguised : Document :=
      .object [("a", .object [("$in", .array [.object [("$gt", .string "")]])])]
    (∃ q, Query.ofDocument d = .ok q ∧ d.IsFilter 0 ∧ q.IsTreeOf (fun c => c.ignoreCase = false) ∧
      ∀ truth, q.Holds truth ↔ d.Holds truth) ∧ ¬ disguised.IsFilter 0 := by
  intro d disguised
  have haccepted : (Query.ofDocument d).toOption.map (fun _ => ()) = some () := by decide +kernel
  have hrefused : (Query.ofDocument disguised).toOption.map (fun _ => ()) = none := by
    decide +kernel
  obtain ⟨q, hq, -⟩ := exists_ok_of_toOption_map haccepted
  obtain ⟨htree, hmeaning⟩ := (Query.ofDocument_faithful d).2 q hq
  refine ⟨⟨q, hq, (Query.ofDocument_faithful d).1.mp ⟨q, hq⟩, htree, hmeaning⟩, fun hfilter => ?_⟩
  obtain ⟨q, hq⟩ := (Query.ofDocument_faithful disguised).1.mpr hfilter
  rw [hq] at hrefused
  cases hrefused

end QueryFilter
