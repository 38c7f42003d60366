import QueryFilter.Number.Decimal
import QueryFilter.Sql.Dialect
import QueryFilter.Value

/-!
# Pieces of a statement

A condition is built as a list of pieces: text of the statement, and the values between the texts.
No value is ever text of the statement.  Written with placeholders, the pieces give the text with a
numbered placeholder for each value, and the values; written in line, they give the text with a
literal for each value, which is for display only.
-/

namespace QueryFilter.Sql

/-- Text of a statement, or a value. -/
inductive Piece where
  | text (s : String)
  | value (v : Value)

/-- A condition with placeholders, and the values that they stand for. -/
structure Fragment where
  sql : String
  params : List Value

/-- A value as it is written in line.  Lists and ranges have no literal. -/
def literal (d : Dialect) : Value → String
  | .null => "NULL"
  | .bool b => d.boolLiteral b
  | .int n => String.ofList (Number.integerText n.toInt)
  | .float x => String.ofList (Number.floatText x)
  | .text s => "'" ++ String.ofList (s.toList.flatMap fun c => if c = '\x27' then [c, c] else [c]) ++ "'"
  | .list _ | .range .. => "NULL"

namespace Piece

/-- The values among some pieces. -/
def values (pieces : List Piece) : List Value :=
  pieces.filterMap fun
    | text _ => none
    | value v => some v

/-- The texts of some pieces, placeholders numbered from `n` on. -/
def numbered (d : Dialect) : (n : Nat) → List Piece → List String
  | _, [] => []
  | n, text s :: pieces => s :: numbered d n pieces
  | n, value _ :: pieces => d.placeholder n :: numbered d (n + 1) pieces

/-- The text of a piece in line. -/
def inlineText (d : Dialect) : Piece → String
  | text s => s
  | value v => literal d v

end Piece

/-- The condition with placeholders that some pieces make. -/
def Fragment.ofPieces (d : Dialect) (pieces : List Piece) : Fragment :=
  ⟨String.join (Piece.numbered d 1 pieces), Piece.values pieces⟩

/-- The condition in line that some pieces make. -/
def inlineOfPieces (d : Dialect) (pieces : List Piece) : String :=
  String.join (pieces.map (Piece.inlineText d))

end QueryFilter.Sql
