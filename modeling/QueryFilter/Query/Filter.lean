import QueryFilter.Document
import QueryFilter.Number.Binary64
import QueryFilter.ParseError
import QueryFilter.Query

/-!
# Queries from filter documents

A filter is an object that is not empty, and stands for the conjunction of its members:

* `"$and"` and `"$or"` with an array of filters, and `"$not"` with a filter;
* a field with a scalar, which the field has to equal;
* a field with an object of operators, such as `"$gte"`, each with the value that it expects.

Objects are never values.  Filters may be nested `maxNesting` levels deep: `readFilter (n + 1)`
reads the filters inside by `readFilter n`, and `readFilter 0` refuses.

Documents come as texts.  How a text is read as a document makes no difference to filters, and so
the reader of texts is a parameter.
-/

namespace QueryFilter

open ParseError (FilterCause)

/-! ## Operators -/

namespace Operator

/-- The operator with a name of a filter document, without its dollar sign. -/
def ofBareName? : String → Option Operator
  | "eq" => some eq
  | "ne" => some ne
  | "gt" => some gt
  | "gte" => some gte
  | "lt" => some lt
  | "lte" => some lte
  | "in" => some oneOf
  | "nin" => some noneOf
  | "like" => some like
  | "ilike" => some ilike
  | "regex" => some regex
  | "between" => some between
  | _ => none

/-- The operator with a name of a filter document.  The dollar sign in front may be left out. -/
def ofName? (name : String) : Option Operator :=
  match name.toList with
  | '$' :: s => ofBareName? (String.ofList s)
  | s => ofBareName? (String.ofList s)

end Operator

/-- Whether a key names an operator or a connective, and not a field. -/
def isDollarKey (key : String) : Bool := key.toList.head? == some '$'

/-! ## Values -/

namespace Value

/-- The scalar of a document. -/
def scalarOfDocument : Document → Except FilterCause Value
  | .null => .ok .null
  | .bool b => .ok (.bool b)
  | .integer n =>
    if Int64.minValue.toInt ≤ n ∧ n ≤ Int64.maxValue.toInt then .ok (.int (Int64.ofInt n))
    else .error .integerOutOfRange
  | .float x => if Number.isFinite x then .ok (.float x) else .error .notFinite
  | .string s => .ok (.text s)
  | .array _ => .error .arrayValue
  | .object _ => .error .objectValue

/-- The scalar of an item of an array. -/
def itemOfDocument : Document → Except FilterCause Value
  | .array _ => .error .nestedArray
  | d => scalarOfDocument d

/-- The scalar of a document, or the list of scalars of an array. -/
def ofDocument : Document → Except FilterCause Value
  | .array items => (items.mapM itemOfDocument).map list
  | d => scalarOfDocument d

/-- The range from one document to another, both ends included. -/
def rangeOfDocuments (low high : Document) : Except ParseError Value := do
  let low ← (scalarOfDocument low).mapError ParseError.ofFilter
  let high ← (scalarOfDocument high).mapError ParseError.ofFilter
  if low.isNull || high.isNull then .error ⟨.nullBound, 0⟩
  else .ok (.range (some low) (some high) true true)

/-- The value that an operator expects.  `key` is the name of the operator in the document. -/
def forOperator (operator : Operator) (key : String) (d : Document) : Except ParseError Value :=
  match operator, d with
  | .between, .array [low, high] => rangeOfDocuments low high
  | operator, d => (expected operator d).mapError ParseError.ofFilter
where
  /-- The value of every operator and document but a range of two bounds. -/
  expected (operator : Operator) (d : Document) : Except FilterCause Value :=
    match operator with
    | .oneOf | .noneOf =>
      match d with
      | .array _ => ofDocument d
      | .object _ => .error .objectValue
      | _ => .error (.expectedArray key)
    | .between =>
      match d with
      | .array _ => .error (.expectedTwo key)
      | .object _ => .error .objectValue
      | _ => .error (.expectedPair key)
    | .like | .ilike | .regex =>
      match d with
      | .string s => .ok (text s)
      | .object _ => .error .objectValue
      | _ => .error (.expectedString key)
    | .eq | .ne | .gt | .gte | .lt | .lte => scalarOfDocument d

end Value

/-! ## Fields -/

/-- Reads a member of an object of operators. -/
def readOperatorMember (field : FieldPath) (member : String × Document) :
    Except ParseError Query := do
  let (key, d) := member
  if !isDollarKey key then .error (.ofFilter .objectValue)
  else match Operator.ofName? key with
    | none => .error (.ofFilter (.unknownOperator key))
    | some operator =>
      let value ← Value.forOperator operator key d
      .ok (.comparison ⟨field, operator, value, false⟩)

/-- Joins the queries of one object or array.  If there are none, `cause` tells why that is
wrong. -/
def joinFilters (op : Connective) (cause : FilterCause) (queries : List Query) :
    Except ParseError Query :=
  match Query.join? op queries with
  | some q => .ok q
  | none => .error (.ofFilter cause)

/-- Reads a member that is about a field. -/
def readFieldMember (key : String) (d : Document) : Except ParseError Query := do
  let field ← FieldPath.read key
  match d with
  | .object members => joinFilters .and .objectValue (← members.mapM (readOperatorMember field))
  | .array _ => .error (.ofFilter .bareList)
  | d =>
    let value ← (Value.scalarOfDocument d).mapError ParseError.ofFilter
    .ok (.comparison ⟨field, .eq, value, false⟩)

/-! ## Filters -/

/-- Reads an array of filters behind the key of a connective. -/
def readFilterList (inner : Document → Except ParseError Query) (op : Connective) (key : String) :
    Document → Except ParseError Query
  | .array items => do joinFilters op (.noFilters key) (← items.mapM inner)
  | _ => .error (.ofFilter (.expectedFilters key))

/-- Reads a member of a filter object, the filters in it by `inner`. -/
def readMember (inner : Document → Except ParseError Query) (member : String × Document) :
    Except ParseError Query :=
  let (key, d) := member
  if key = "$and" then readFilterList inner .and key d
  else if key = "$or" then readFilterList inner .or key d
  else if key = "$not" then (inner d).map Query.not
  else if isDollarKey key then .error (.ofFilter (.unknownConnective key))
  else readFieldMember key d

/-- Reads a filter with fewer than `levels` levels of filters nested in it. -/
def readFilter : (levels : Nat) → Document → Except ParseError Query
  | 0, _ => .error (.ofFilter .tooDeep)
  | levels + 1, .object members => do
    joinFilters .and .emptyObject (← members.mapM (readMember (readFilter levels)))
  | _ + 1, _ => .error (.ofFilter .expectedObject)

namespace Query

/-- The query of a filter document. -/
def ofDocument (d : Document) : Except ParseError Query :=
  readFilter (maxNesting + 1) d

/-- Reads the text of a filter document, of which `read?` makes the document. -/
def parseFilterWith (read? : String → Option Document) (text : String) : Except ParseError Query :=
  if maxInputLength < text.length then .error (.ofFilter .tooLong)
  else match read? text with
    | some d => ofDocument d
    | none => .error (.ofFilter .notJson)

/-- Reads the bytes of a filter document, which are text in UTF-8. -/
def parseFilterBytesWith (read? : String → Option Document) (bytes : ByteArray) :
    Except ParseError Query :=
  match String.fromUTF8? bytes with
  | some text => parseFilterWith read? text
  | none => .error (.ofFilter .notUtf8)

end Query

end QueryFilter
