import QueryFilter.Proofs.Sql.Outline

/-!
# The safe names

Field names come from whoever asks, and they are written into the statement as they are.  What
stands between the two is the check of identifiers, a row of tests that end at the first fault.
Here is what the tests accept together (`IsSafeName`): one segment, or two with a dot between them,
each of at most 64 ASCII letters, digits and underscores, no two underscores side by side, and a
letter at the start.

* The tests of the segments are put together in `segmentsFault?_eq_none_iff`, and all of them in
  `identifierFault?_eq_none_iff`.
* The segments of a text are what stands between its dots, so a text determines them, and putting
  dots between them gives the text again (`isSafeName_iff`).
* Every comparison of a tree asks for its field to be written (`fieldText_eq_ok_iff`), so that in
  the outline of a tree no other name stands (`Translator.writes_safe_names`).
-/

namespace QueryFilter

/-! ## Splitting at a separator -/

theorem Text.split_eq_splitOn (separator : Char) (s : List Char) :
    split separator s = s.splitOn separator := by
  induction s with
  | nil => rfl
  | cons c s ih =>
      rw [split, List.splitOn_cons_eq_if_modifyHead, ih]
      simp only [beq_iff_eq]
      split
      next => rfl
      next =>
        cases hsplit : s.splitOn separator with
        | nil => exact absurd (ih.trans hsplit) (split_ne_nil separator s)
        | cons first others => rfl

theorem Text.not_mem_of_mem_split {separator : Char} {s piece : List Char}
    (h : piece ∈ split separator s) : separator ∉ piece := by
  induction s generalizing piece with
  | nil =>
      rw [List.mem_singleton.mp h]
      exact List.not_mem_nil
  | cons c s ih =>
      rw [split_eq_splitOn, List.splitOn_cons_eq_if_modifyHead, ← split_eq_splitOn] at h
      split at h
      next =>
        rcases List.mem_cons.mp h with rfl | h
        · exact List.not_mem_nil
        · exact ih h
      next hc =>
        cases hsplit : split separator s with
        | nil => exact absurd hsplit (split_ne_nil separator s)
        | cons first others =>
            rw [hsplit] at h ih
            rcases List.mem_cons.mp h with rfl | h
            · have hne : separator ≠ c := fun heq => hc (beq_iff_eq.mpr heq.symm)
              exact List.not_mem_cons_of_ne_of_not_mem hne (ih List.mem_cons_self)
            · exact ih (List.mem_cons_of_mem _ h)

theorem forall_mem_intercalate {P : Char → Prop} {separator : String}
    (hseparator : ∀ c ∈ separator.toList, P c) {parts : List String}
    (hparts : ∀ s ∈ parts, ∀ c ∈ s.toList, P c) :
    ∀ c ∈ (separator.intercalate parts).toList, P c := by
  induction parts with
  | nil => exact nofun
  | cons s parts ih =>
      have hfirst := hparts s List.mem_cons_self
      have hrest := ih fun s' hs' => hparts s' (List.mem_cons_of_mem _ hs')
      cases parts with
      | nil => simpa using hfirst
      | cons next parts =>
          rw [String.intercalate_cons_cons, String.toList_append, String.toList_append]
          intro c hc
          rcases List.mem_append.mp hc with hc | hc
          · rcases List.mem_append.mp hc with hc | hc
            · exact hfirst c hc
            · exact hseparator c hc
          · exact hrest c hc

/-! ## Safe names -/

/-- The name of a field in a statement: its text, or its segments in quotes. -/
def FieldPath.statementName (quoted : Bool) (field : FieldPath) : String :=
  if quoted then ".".intercalate (field.parts.map fun s => "\"" ++ s ++ "\"") else field.text

namespace Sql

/-- A safe segment of a name. -/
structure IsSafeSegment (s : String) : Prop where
  length : 1 ≤ s.length ∧ s.length ≤ 64
  alphabet : ∀ c ∈ s.toList, c.isAlphanum ∨ c = '_'
  apart : ¬ ['_', '_'] <:+: s.toList

/-- A name that is safe in a statement, with its segments. -/
structure IsSafeName (name : String) (segments : List String) : Prop where
  joined : name = ".".intercalate segments
  count : segments.length = 1 ∨ segments.length = 2
  safe : ∀ s ∈ segments, IsSafeSegment s
  start : ∃ c s, name.toList = c :: s ∧ c.isAlpha

/-! ## The tests -/

theorem hasDoubleUnderscore_iff (s : List Char) : hasDoubleUnderscore s ↔ ['_', '_'] <:+: s := by
  fun_induction hasDoubleUnderscore s with
  | case1 s => exact ⟨fun _ => ⟨[], s, rfl⟩, fun _ => rfl⟩
  | case2 c s hno ih =>
      rw [ih, List.infix_cons_iff]
      refine ⟨.inr, fun h => h.resolve_left ?_⟩
      rintro ⟨rest, hrest⟩
      obtain ⟨hc, hs⟩ := List.cons.inj hrest
      exact hno rest hc.symm hs.symm
  | case3 => simp

theorem segmentFault?_eq_none_iff (s : List Char) :
    segmentFault? s = none ↔ (1 ≤ s.length ∧ s.length ≤ 64) ∧ ¬ ['_', '_'] <:+: s := by
  have hempty : s = [] ↔ ¬ 1 ≤ s.length := by
    rw [← List.length_eq_zero_iff, Nat.not_le, Nat.lt_one_iff]
  unfold segmentFault?
  split
  next h => exact ⟨nofun, fun hsafe => absurd hsafe.1.1 (hempty.mp h)⟩
  next hsome =>
    split
    next hlong => exact ⟨nofun, fun hsafe => absurd hlong (Nat.not_lt.mpr hsafe.1.2)⟩
    next hshort =>
      have hlength : 1 ≤ s.length ∧ s.length ≤ 64 :=
        ⟨Decidable.not_not.mp (mt hempty.mpr hsome), Nat.not_lt.mp hshort⟩
      rw [← hasDoubleUnderscore_iff]
      split
      next h => exact ⟨nofun, fun hsafe => absurd h hsafe.2⟩
      next h => exact ⟨fun _ => ⟨hlength, h⟩, fun _ => rfl⟩

/-- The segments of a text are tested one by one, and counted on the way. -/
theorem segmentsFault?_eq_none_iff (room : Nat) (parts : List (List Char)) :
    segmentsFault? room parts = none ↔
      parts.length ≤ room ∧ ∀ s ∈ parts, segmentFault? s = none := by
  induction parts generalizing room with
  | nil => simp [segmentsFault?]
  | cons s parts ih =>
      cases room with
      | zero => simp [segmentsFault?]
      | succ room =>
          rw [segmentsFault?, Option.or_eq_none_iff, ih, List.length_cons, Nat.succ_le_succ_iff,
            List.forall_mem_cons]
          exact and_left_comm

theorem identifierFault?_eq_none_iff (s : List Char) :
    identifierFault? s = none ↔
      (∃ c rest, s = c :: rest ∧ c.isAlpha) ∧ (∀ c ∈ s, isIdentifierChar c) ∧
        (segments s).length ≤ maxSegments ∧ ∀ piece ∈ segments s, segmentFault? piece = none := by
  rw [← segmentsFault?_eq_none_iff, ← List.all_eq_true]
  cases s with
  | nil => simp [identifierFault?]
  | cons c s =>
      cases hstart : c.isAlpha with
      | false => simp [identifierFault?, hstart]
      | true =>
          have hletter : ∃ d rest, c :: s = d :: rest ∧ d.isAlpha := ⟨c, s, rfl, hstart⟩
          cases hall : (c :: s).all isIdentifierChar with
          | false => simp [identifierFault?, hstart, hall]
          | true =>
              simp only [identifierFault?, hstart, hall, hletter, true_and]
              rfl

/-- The pieces of a text between its dots are one or more. -/
theorem one_le_length_segments (s : List Char) : 1 ≤ (segments s).length :=
  List.length_pos_iff.mpr (Text.split_ne_nil '.' s)

theorem isIdentifierChar_iff (c : Char) :
    isIdentifierChar c ↔ (c.isAlphanum ∨ c = '_') ∨ c = '.' := by
  simp [isIdentifierChar]

/-- No dot may stand in a segment. -/
theorem IsSafeSegment.dot_not_mem {s : String} (h : IsSafeSegment s) : '.' ∉ s.toList := by
  intro hdot
  rcases h.alphabet '.' hdot with hdot | hdot
  · exact absurd hdot (by decide)
  · exact absurd hdot (by decide)

/-- The characters of a safe name are those of its segments, and the dot. -/
theorem IsSafeName.isIdentifierChar_of_mem {name : String} {parts : List String}
    (h : IsSafeName name parts) : ∀ c ∈ name.toList, isIdentifierChar c := by
  rw [h.joined]
  refine forall_mem_intercalate ?_ fun s hs c hc => ?_
  · exact fun c hc => (isIdentifierChar_iff c).mpr (.inr (List.mem_singleton.mp hc))
  · exact (isIdentifierChar_iff c).mpr (.inl ((h.safe s hs).alphabet c hc))

/-- A safe name is a text without a fault as an identifier, and its segments are what stands between
its dots. -/
theorem isSafeName_iff {name : String} {parts : List String} :
    IsSafeName name parts ↔
      identifierFault? name.toList = none ∧ parts = (segments name.toList).map String.ofList := by
  rw [identifierFault?_eq_none_iff]
  constructor
  · intro h
    have hne : parts.map String.toList ≠ [] := by
      rintro hempty
      rcases h.count with hcount | hcount <;> simp [List.map_eq_nil_iff.mp hempty] at hcount
    have hsegments : segments name.toList = parts.map String.toList := by
      rw [segments, Text.split_eq_splitOn, h.joined, String.toList_intercalate]
      refine List.splitOn_intercalate '.' ?_ hne
      rw [List.forall_mem_map]
      exact fun s hs => (h.safe s hs).dot_not_mem
    refine ⟨⟨h.start, h.isIdentifierChar_of_mem, ?_, ?_⟩, ?_⟩
    · rw [hsegments, List.length_map]
      exact h.count.elim (fun hone => hone ▸ by decide) fun htwo => Nat.le_of_eq htwo
    · rw [hsegments, List.forall_mem_map]
      intro s hs
      rw [segmentFault?_eq_none_iff, String.length_toList]
      exact ⟨(h.safe s hs).length, (h.safe s hs).apart⟩
    · rw [hsegments, List.map_map]
      exact (List.map_id'' (fun _ => String.ofList_toList) parts).symm
  · rintro ⟨⟨hstart, hall, hcount, hsafe⟩, rfl⟩
    refine ⟨?_, ?_, ?_, hstart⟩
    · rw [← String.toList_inj, String.toList_intercalate, List.map_map]
      have hid : String.toList ∘ String.ofList = id := funext fun _ => String.toList_ofList
      rw [hid, List.map_id, segments, Text.split_eq_splitOn]
      exact (List.intercalate_splitOn '.').symm
    · rw [List.length_map]
      have hone := one_le_length_segments name.toList
      have htwo : (segments name.toList).length ≤ 2 := hcount
      omega
    · rw [List.forall_mem_map]
      intro piece hpiece
      obtain ⟨hlength, hapart⟩ := (segmentFault?_eq_none_iff piece).mp (hsafe piece hpiece)
      rw [← String.toList_ofList (l := piece), String.length_toList] at hlength
      refine ⟨hlength, fun c hc => ?_, by rwa [String.toList_ofList]⟩
      rw [String.toList_ofList] at hc
      have hdot : c ≠ '.' := fun h => Text.not_mem_of_mem_split hpiece (h ▸ hc)
      exact ((isIdentifierChar_iff c).mp (hall c (Text.mem_of_mem_split hpiece hc))).resolve_right hdot

theorem checkIdentifier_eq_ok_iff (name : String) :
    checkIdentifier name = .ok () ↔ identifierFault? name.toList = none := by
  unfold checkIdentifier
  split
  next fault h => simp [h]
  next h => exact ⟨fun _ => h, fun _ => rfl⟩

/-- Identifiers are field paths. -/
theorem exists_fieldPath_of_checkIdentifier {name : String} (h : checkIdentifier name = .ok ()) :
    ∃ field, FieldPath.ofString name = .ok field ∧ field.text = name := by
  obtain ⟨-, -, hcount, hsafe⟩ :=
    (identifierFault?_eq_none_iff _).mp ((checkIdentifier_eq_ok_iff name).mp h)
  have hsome : ∀ piece ∈ segments name.toList, ¬ piece.isEmpty := by
    rintro piece hpiece hempty
    have hlength := ((segmentFault?_eq_none_iff piece).mp (hsafe piece hpiece)).1.1
    rw [List.isEmpty_iff.mp hempty] at hlength
    exact absurd hlength (by decide)
  have hfault : FieldPath.fault? name = none := by
    rw [FieldPath.fault?, if_neg, if_neg (Nat.not_lt.mpr hcount)]
    rw [List.any_eq_true]
    exact fun ⟨piece, hpiece, hempty⟩ => hsome piece hpiece hempty
  refine ⟨⟨name, hfault⟩, ?_, rfl⟩
  unfold FieldPath.ofString
  split
  next fault h => exact nomatch hfault.symm.trans h
  next => rfl

/-! ## Names in a statement -/

namespace Translator

variable (t : Translator)

/-- The name of a field is written exactly if it is safe. -/
theorem fieldText_eq_ok_iff {field : FieldPath} {name : String} :
    t.fieldText field = .ok name ↔
      IsSafeName field.text field.parts ∧ name = field.statementName t.quoteIdentifiers := by
  rw [isSafeName_iff, FieldPath.parts, eq_self, and_true, ← checkIdentifier_eq_ok_iff]
  constructor
  · intro h
    obtain ⟨_, hcheck, hname⟩ := bind_eq_ok.mp h
    exact ⟨hcheck, (Except.ok.inj hname).symm⟩
  · rintro ⟨hcheck, rfl⟩
    exact bind_eq_ok.mpr ⟨(), hcheck, rfl⟩

/-- Every field of a tree that has pieces is safe. -/
theorem isSafeName_of_piecesAt {q : Query} {ancestors : Nat} {pieces : List Piece}
    (h : t.piecesAt ancestors q = .ok pieces) :
    ∀ c ∈ q.leafComparisons, IsSafeName c.field.text c.field.parts := by
  induction q generalizing ancestors pieces with
  | comparison c =>
      intro d hd
      obtain ⟨name, hname, -⟩ := t.outlines_of_comparison (t.piecesAt_comparison_eq_ok.mp h).2
      rw [List.mem_singleton.mp hd]
      exact (t.fieldText_eq_ok_iff.mp hname).1
  | raw r => exact nofun
  | unary op q ih =>
      obtain ⟨-, -, inner, hinner, -⟩ := t.piecesAt_unary_eq_ok.mp h
      exact ih hinner
  | binary op l r ihl ihr =>
      obtain ⟨-, -, left, right, hleft, hright, -⟩ := t.piecesAt_binary_eq_ok.mp h
      intro c hc
      rcases List.mem_append.mp hc with hc | hc
      · exact ihl hleft c hc
      · exact ihr hright c hc

/-- **Only safe names are written.**  The check of identifiers accepts exactly the safe names, all
of them are field paths, and in a statement every field stands under a safe name: its own text, or
its segments in quotes, and the outline of the statement is what the tree makes of these names. -/
theorem writes_safe_names :
    (∀ name, checkIdentifier name = .ok () ↔ ∃ segments, IsSafeName name segments) ∧
      (∀ name, checkIdentifier name = .ok () →
        ∃ field, FieldPath.ofString name = .ok field ∧ field.text = name) ∧
      ∀ q x, t.translate q = .ok x →
        (∀ c ∈ q.leafComparisons, IsSafeName c.field.text c.field.parts) ∧
        ∃ pieces, x = Fragment.ofPieces t.dialect pieces ∧
          outlines pieces = t.treeOutline (FieldPath.statementName t.quoteIdentifiers) q := by
  refine ⟨fun name => ?_, fun name => exists_fieldPath_of_checkIdentifier, fun q x h => ?_⟩
  · rw [checkIdentifier_eq_ok_iff]
    simp only [isSafeName_iff, exists_and_left, exists_eq, and_true]
  · obtain ⟨pieces, hpieces, rfl⟩ := map_eq_ok.mp h
    rw [pieces_eq] at hpieces
    refine ⟨t.isSafeName_of_piecesAt hpieces, pieces, rfl, ?_⟩
    exact t.outlines_of_piecesAt _ (fun c _ name hname => (t.fieldText_eq_ok_iff.mp hname).2) hpieces

/-- A table and a column, each in quotes of its own, and a name that is no identifier. -/
theorem writes_safe_names_qualified :
    let t : Translator := { dialect := .postgres, quoteIdentifiers := true }
    let field : FieldPath := ⟨"users.created_at", by decide⟩
    let q : Query := .not (.comparison ⟨field, .gte, .text "2024", false⟩)
    (∃ x, t.translate q = .ok x ∧ x.sql = "NOT (\"users\".\"created_at\" >= $1)") ∧
      IsSafeName "users.created_at" ["users", "created_at"] ∧
      t.treeOutline (FieldPath.statementName true) q =
        [some "NOT (", some "\"users\".\"created_at\" >= ", none, some ")"] ∧
      ¬ ∃ segments, IsSafeName "users.meta__data" segments := by
  intro t field q
  obtain ⟨hpieces, hparts, houtline, hunsafe⟩ :
      ((t.piecesAt 0 q).map (Fragment.ofPieces t.dialect)).toOption.map Fragment.sql =
          some "NOT (\"users\".\"created_at\" >= $1)" ∧
        field.parts = ["users", "created_at"] ∧
        t.treeOutline (FieldPath.statementName true) q =
          [some "NOT (", some "\"users\".\"created_at\" >= ", none, some ")"] ∧
        ¬ checkIdentifier "users.meta__data" = .ok () := by
    decide +kernel
  obtain ⟨x, hx, hsql⟩ : ∃ x, t.translate q = .ok x ∧
      x.sql = "NOT (\"users\".\"created_at\" >= $1)" := by
    apply exists_ok_of_toOption_map
    rw [translate, pieces_eq]
    exact hpieces
  refine ⟨⟨x, hx, hsql⟩, ?_, houtline, ?_⟩
  · rw [← hparts]
    exact (t.writes_safe_names.2.2 q x hx).1 _ (List.mem_singleton_self _)
  · rw [← t.writes_safe_names.1]
    exact hunsafe

end Translator

end Sql

end QueryFilter
