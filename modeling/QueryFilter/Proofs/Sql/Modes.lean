import QueryFilter.Proofs.Sql.Output

/-!
# Placeholders and literals

The writer of conditions has two modes, in which the values of a query are bound or written in line.
They fail alike, and where they succeed they differ only at the values: both texts are the same
chunks, woven with the numbered placeholders in the one and with the literals of the parameters in
the other (`Translator.translate_agrees_translateInline`).

The chunks are the texts of the pieces between two values.  They are gathered from left to right
with the chunk that is still growing, and this is what the inductions leave free.
-/

namespace QueryFilter.Sql

/-- Chunks of text with a filler between each two of them. -/
def weave : List String → List String → String
  | [], _ => ""
  | chunk :: _, [] => chunk
  | chunk :: chunks, filler :: fillers => chunk ++ filler ++ weave chunks fillers

namespace Piece

/-- The texts of some pieces between their values, behind a text. -/
def chunksBehind (current : String) : List Piece → List String
  | [] => [current]
  | .text s :: pieces => chunksBehind (current ++ s) pieces
  | .value _ :: pieces => current :: chunksBehind "" pieces

/-- There is one chunk more than there are values. -/
theorem length_chunksBehind (current : String) (pieces : List Piece) :
    (chunksBehind current pieces).length = (values pieces).length + 1 := by
  induction pieces generalizing current with
  | nil => rfl
  | cons piece pieces ih =>
      cases piece with
      | text s => exact ih (current ++ s)
      | value v => exact congrArg Nat.succ (ih "")

variable (d : Dialect)

theorem weave_placeholders (current : String) (n : Nat) (pieces : List Piece) :
    weave (chunksBehind current pieces)
        ((List.range' n (values pieces).length).map d.placeholder) =
      current ++ String.join (numbered d n pieces) := by
  induction pieces generalizing current n with
  | nil => simp [chunksBehind, weave, numbered]
  | cons piece pieces ih =>
      cases piece with
      | text s =>
          rw [numbered, String.join_cons, ← String.append_assoc]
          exact ih (current ++ s) n
      | value v =>
          rw [numbered, String.join_cons, values_value, List.length_cons, List.range'_succ,
            List.map_cons, chunksBehind, weave, ih, String.empty_append, String.append_assoc]

theorem weave_literals (current : String) (pieces : List Piece) :
    weave (chunksBehind current pieces) ((values pieces).map (literal d)) =
      current ++ inlineOfPieces d pieces := by
  induction pieces generalizing current with
  | nil => simp [chunksBehind, weave, inlineOfPieces]
  | cons piece pieces ih =>
      rw [inlineOfPieces_cons]
      cases piece with
      | text s =>
          rw [← String.append_assoc]
          exact ih (current ++ s)
      | value v =>
          rw [values_value, List.map_cons, chunksBehind, weave, ih, String.empty_append,
            String.append_assoc]
          rfl

end Piece

/-- **The two modes agree.**  The translations are the writer in one mode and in the other.  Either
both fail, with the same error, or both succeed, and the texts are the same chunks, one more than
there are parameters, woven with the placeholders numbered from 1 on and with the literals of the
parameters. -/
theorem Translator.translate_agrees_translateInline (t : Translator) (q : Query) :
    t.translate q = (t.writeTree false q).map Output.fragment ∧
      t.translateInline q = (t.writeTree true q).map Output.sql ∧
      match t.translate q, t.translateInline q with
      | .error e, .error e' => e = e'
      | .ok x, .ok text => ∃ chunks : List String, chunks.length = x.params.length + 1 ∧
          x.sql = weave chunks ((List.range' 1 x.params.length).map t.dialect.placeholder) ∧
          text = weave chunks (x.params.map (literal t.dialect))
      | _, _ => False := by
  refine ⟨t.translate_eq_writeTree q, t.translateInline_eq_writeTree q, ?_⟩
  unfold translate translateInline
  cases t.pieces q with
  | error e => rfl
  | ok pieces =>
      refine ⟨Piece.chunksBehind "" pieces, Piece.length_chunksBehind "" pieces, ?_, ?_⟩
      · have hwoven := Piece.weave_placeholders t.dialect "" 1 pieces
        rw [String.empty_append] at hwoven
        exact hwoven.symm
      · have hwoven := Piece.weave_literals t.dialect "" pieces
        rw [String.empty_append] at hwoven
        exact hwoven.symm

end QueryFilter.Sql
