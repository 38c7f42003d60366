import QueryFilter.Proofs.Policy.Rules

/-!
# What an entry of denied values covers

A name in a policy can stand for more fields than one.  Among the denied fields, a name without
table denies the column in every table, and a name with a table denies the column without table as
well, since that may be the same column (`Policy.Covers`).  Denied values are given by name, too,
but the check finds them in another way: it takes the entry of the path of the field, or if there is
none the entry of its column, and looks at no other.

So an entry with a table is not found for the column without table, and an entry without table is
hidden where the table has an entry of its own.  An entry is enforced for a field that it covers
exactly if the entry that is found for the field has the same values, or the same numbers
(`Policy.check_covered_iff`).  It is if it is the entry that is found, and so is every entry if none
names a table.
-/

namespace QueryFilter

/-- What is loosely equal with regard to case is loosely equal under every case rule. -/
theorem Value.looselyEqual_of_exact {v w : Value} (h : v.looselyEqual false w) (ignoreCase : Bool) :
    v.looselyEqual ignoreCase w := by
  simp only [looselyEqual, Bool.or_eq_true, Bool.false_and, Bool.false_eq_true, or_false] at h ⊢
  exact h.imp_left .inl

namespace Policy

variable (p : Policy)

/-! ## Coverage -/

/-- A name covers the fields that it would deny among the denied fields. -/
def Covers (name : String) (f : FieldPath) : Prop := (denyFields {} [name]).Denies f

theorem covers_iff {name : String} {f : FieldPath} :
    Covers name f ↔ f.text = name ∨ f.column = name ∨
      '.' ∉ f.text.toList ∧ lastSegment name.toList = f.text.toList := by
  have hdenied : (denyFields {} [name]).deniedFields = [name] := rfl
  rw [Covers, Denies, hdenied]
  simp

/-- The entry that is found for a field has a value, or the number that the value is. -/
def Recognises (f : FieldPath) (v : Value) : Prop :=
  ∃ denied, p.DeniesValues f denied ∧ ∃ d ∈ denied, v.same d ∨ v.sameNumber d

theorem recognises_iff {f : FieldPath} {v : Value} :
    p.Recognises f v ↔ ∃ d ∈ p.deniedValuesOf f, v.looselyEqual false d := by
  have hloose : ∀ d, v.looselyEqual false d ↔ v.same d ∨ v.sameNumber d := by
    simp [Value.looselyEqual]
  simp only [Recognises, mem_deniedValuesOf, hloose]
  constructor
  · rintro ⟨denied, hdenied, d, hd, hsame⟩
    exact ⟨d, ⟨denied, hdenied, hd⟩, hsame⟩
  · rintro ⟨d, ⟨denied, hdenied, hd⟩, hsame⟩
    exact ⟨denied, hdenied, d, hd, hsame⟩

/-- An entry is found for all the fields that it covers if no entry names a table. -/
theorem deniesValues_of_unqualified
    (h : ∀ other, (p.deniedValues.get? other).isSome → '.' ∉ other.toList) {name : String}
    {values : List Value} {f : FieldPath} (hentry : p.deniedValues.get? name = some values)
    (hcovers : Covers name f) : p.DeniesValues f values := by
  rcases covers_iff.mp hcovers with hpath | hcolumn | ⟨-, hlast⟩
  · exact .inl (hpath ▸ hentry)
  · rw [← hcolumn] at hentry
    cases hpath : p.deniedValues.get? f.text with
    | none => exact .inr ⟨hpath, hentry⟩
    | some other =>
        -- an entry for the path names no table, so the path is the column
        have hplain : f.column = f.text := by
          rw [FieldPath.column, lastSegment_of_not_mem (h _ (hpath ▸ rfl)), String.ofList_toList]
        exact .inl (hplain ▸ hentry)
  · rw [lastSegment_of_not_mem (h _ (hentry ▸ rfl))] at hlast
    exact .inl (String.toList_injective hlast ▸ hentry)

/-! ## The check -/

/-- The policy that denies the same values, and lets pass whatever else may be said about a
scalar. -/
def onlyValues (v : Value) : Policy :=
  { deniedValues := p.deniedValues
    deniedOperators := []
    maxValueLength := (v.text?.map String.length).getD 0 }

/-- That policy accepts a comparison with a scalar that is not denied, if it is no pattern with too
many wildcards. -/
theorem check_onlyValues_comparison {c : Comparison} (hscalar : c.value.isScalar)
    (hpattern : patternViolation? c = none) (hclear : p.refusesValue c = false) :
    (p.onlyValues c.value).check none (.comparison c) = .ok () := by
  have hshown : ¬ (p.onlyValues c.value).Hides none c.field := by
    simp [Hides, Denies, Lists, onlyValues]
  have hfits : (p.onlyValues c.value).Fits c.value := by
    refine ⟨hscalar, fun s hs => ?_⟩
    rw [hs]
    exact Nat.le_refl _
  exact check_comparison _ none (.inl rfl) hshown List.not_mem_nil hclear (Nat.le_add_left 1 49)
    hfits hpattern

/-- That policy accepts that a field equals a scalar that is not denied. -/
theorem check_onlyValues {f : FieldPath} {v : Value} (hscalar : v.isScalar)
    (hclear : ∀ d ∈ p.deniedValuesOf f, ¬ v.looselyEqual false d) :
    (p.onlyValues v).check none (.comparison ⟨f, .eq, v, false⟩) = .ok () := by
  refine p.check_onlyValues_comparison hscalar rfl ?_
  simp only [refusesValue, Value.parts_of_isScalar hscalar, Comparison.foldsCase, Bool.false_and,
    List.any_cons, List.any_nil, Bool.or_false, List.any_eq_false]
  exact hclear

/-- Every query that compares a field with one of some values is rejected, whatever else is said by
a policy with the same denied values. -/
def Enforces (values : List Value) (f : FieldPath) : Prop :=
  ∀ (p' : Policy) (schema : Option Schema) (q : Query) (c : Comparison) (v d : Value),
    p'.deniedValues = p.deniedValues → c ∈ q.leafComparisons → c.field = f → v ∈ c.value.parts →
      d ∈ values → v.same d → ∃ e, p'.check schema q = .error e

theorem enforces_iff {values : List Value} {f : FieldPath} :
    p.Enforces values f ↔ ∀ d ∈ values, ∀ v : Value, v.isScalar → v.same d → p.Recognises f v := by
  constructor
  · intro henforces d hd v hscalar hsame
    rw [recognises_iff]
    by_cases hfound : ∃ d' ∈ p.deniedValuesOf f, v.looselyEqual false d'
    · exact hfound
    · -- a comparison with the value passes where nothing else is denied
      let c : Comparison := ⟨f, .eq, v, false⟩
      have hcheck : (p.onlyValues v).check none (.comparison c) = .ok () :=
        p.check_onlyValues hscalar fun d' hd' hloose => hfound ⟨d', hd', hloose⟩
      have hpart : v ∈ v.parts := by
        rw [Value.parts_of_isScalar hscalar]
        exact List.mem_singleton_self v
      obtain ⟨e, hrejected⟩ := henforces (p.onlyValues v) none (.comparison c) c v d rfl
        (List.mem_singleton_self c) rfl hpart hd hsame
      exact nomatch hcheck.symm.trans hrejected
  · rintro hrecognised p' schema q c v d hp' hc rfl hv hd hsame
    cases hcheck : p'.check schema q with
    | error e => exact ⟨e, rfl⟩
    | ok =>
        have hobeys := (p'.check_eq_ok_iff schema q).mp hcheck
        have hfits : p'.Fits v := (hobeys .shapes c hc).2 v hv
        obtain ⟨d', hd', hloose⟩ := p.recognises_iff.mp (hrecognised d hd v hfits.1 hsame)
        have hfound : d' ∈ p'.deniedValuesOf c.field := by
          rw [deniedValuesOf, hp']
          exact hd'
        obtain ⟨denied, hdenied, hmem⟩ := (p'.mem_deniedValuesOf c.field d').mp hfound
        exact absurd (Value.looselyEqual_of_exact hloose c.foldsCase)
          (hobeys .values c hc denied hdenied v hv d' hmem)

/-- The entry that is found for a field is enforced. -/
theorem enforces_of_deniesValues {values : List Value} {f : FieldPath}
    (h : p.DeniesValues f values) : p.Enforces values f :=
  p.enforces_iff.mpr fun d hd _ _ hsame => ⟨values, h, d, hd, .inl hsame⟩

/-- **An entry is enforced for a field that it covers exactly if the entry that is found for the
field recognises its values.**  So it is if it is the entry that is found, which is the one of the
path, and the one of the column if the path has none.  And so are all entries if none of them names
a table. -/
theorem check_covered_iff {name : String} {values : List Value} {f : FieldPath}
    (hentry : p.deniedValues.get? name = some values) (hcovers : Covers name f) :
    (p.Enforces values f ↔
        ∀ d ∈ values, ∀ v : Value, v.isScalar → v.same d → p.Recognises f v) ∧
      (f.text = name ∨ f.column = name ∧ p.deniedValues.get? f.text = none →
        p.Enforces values f) ∧
      ((∀ other, (p.deniedValues.get? other).isSome → '.' ∉ other.toList) →
        p.Enforces values f) := by
  refine ⟨p.enforces_iff, fun hfound => p.enforces_of_deniesValues ?_, fun hplain =>
    p.enforces_of_deniesValues (p.deniesValues_of_unqualified hplain hentry hcovers)⟩
  rcases hfound with rfl | ⟨rfl, hnone⟩
  · exact .inl hentry
  · exact .inr ⟨hnone, hentry⟩

/-- The value `admin` is denied for `role`, and so `users.role` cannot be compared with a list that
has it, on whichever side of a disjunction. -/
theorem check_covered_column :
    let p : Policy := Policy.denyValues {} "role" [.text "admin"]
    let column : FieldPath := ⟨"users.role", by decide⟩
    let c : Comparison := ⟨column, .noneOf, .list [.text "root", .text "admin"], false⟩
    p.deniedValues.get? "role" = some [.text "admin"] ∧ Covers "role" column ∧
      p.Recognises column (.text "admin") ∧
      ∀ (schema : Option Schema) (q : Query), ∃ e,
        p.check schema (.binary .or q (.comparison c)) = .error e := by
  intro p column c
  have hentry : p.deniedValues.get? "role" = some [.text "admin"] := rfl
  have hcovers : Covers "role" column := covers_iff.mpr (.inr (.inl (by decide)))
  have hplain : ∀ other, (p.deniedValues.get? other).isSome → '.' ∉ other.toList := by
    intro other hother
    have hdenied : p.deniedValues = [("role", [.text "admin"])] := rfl
    by_cases hname : other = "role"
    · rw [hname]
      decide
    · rw [hdenied, Dictionary.get?, if_neg hname] at hother
      cases hother
  obtain ⟨hiff, -, hunqualified⟩ := p.check_covered_iff hentry hcovers
  have henforces := hunqualified hplain
  have hsame : (Value.text "admin").same (.text "admin") := by decide +kernel
  refine ⟨hentry, hcovers, hiff.mp henforces _ (List.mem_singleton_self _) _ rfl hsame, ?_⟩
  intro schema q
  exact henforces p schema _ c (.text "admin") (.text "admin") rfl
    (List.mem_append_right _ (List.mem_singleton_self c)) rfl
    (List.mem_cons_of_mem _ (List.mem_singleton_self _)) (List.mem_singleton_self _) hsame

/-- The value `admin` is denied for `users.role`, and can be compared with `role`.  The same name
among the denied fields keeps out both. -/
theorem check_uncovered_column :
    let p : Policy := Policy.denyValues {} "users.role" [.text "admin"]
    let query (f : FieldPath) : Query := .comparison ⟨f, .eq, .text "admin", true⟩
    let column : FieldPath := ⟨"role", by decide⟩
    let qualified : FieldPath := ⟨"users.role", by decide⟩
    p.deniedValues.get? "users.role" = some [.text "admin"] ∧ Covers "users.role" column ∧
      (Value.text "admin").same (.text "admin") ∧
      p.check none (query qualified) = .error .deniedValue ∧ p.check none (query column) = .ok () ∧
      (denyFields {} ["users.role"]).check none (query column) = .error .fieldAccess := by
  intro p query column qualified
  have hqualified : p.violation? none (query qualified) = some .deniedValue := by decide +kernel
  have hcolumn : p.violation? none (query column) = none := by decide +kernel
  have hfield : (denyFields {} ["users.role"]).violation? none (query column) =
      some .fieldAccess := by decide +kernel
  have hcovers : Covers "users.role" column := covers_iff.mpr (.inr (.inr (by decide)))
  refine ⟨rfl, hcovers, by decide +kernel, ?_, ?_, ?_⟩
  · rw [check, hqualified]
  · rw [check, hcolumn]
  · rw [check, hfield]

end Policy

end QueryFilter
