/-!
# Documents

A structured filter arrives as a JSON document.  The members of an object stand in the order of
their keys, and a key occurs once.
-/

namespace QueryFilter

/-- A JSON document. -/
inductive Document where
  | null
  | bool (b : Bool)
  | integer (n : Int)
  | float (x : Float)
  | string (s : String)
  | array (items : List Document)
  | object (members : List (String × Document))

namespace Document

/-- Enters a member into the members of an object, which are in the order of their keys.  The new
member takes the place of one with the same key. -/
def insertMember (key : String) (value : Document) :
    List (String × Document) → List (String × Document)
  | [] => [(key, value)]
  | (k, v) :: members =>
    if key < k then (key, value) :: (k, v) :: members
    else if k < key then (k, v) :: insertMember key value members
    else (key, value) :: members

end Document

end QueryFilter
