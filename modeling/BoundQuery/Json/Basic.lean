import BoundQuery.Options.Basic

/-!
# JSON values

A JSON document as a value. A number written without fraction and exponent stays an integer as long
as it fits 64 bits, signed or unsigned; every other number is a binary number. The members of an
object are kept in the order of their names, each name once.
-/

namespace BoundQuery

/-- A JSON value. -/
inductive Json
  | null
  | bool (b : Bool)
  | int (n : Int)
  | float (x : Binary64)
  | text (s : String)
  | array (items : List Json)
  | object (members : List (String × Json))

namespace Json

/-- An object of the given members; of two members with one name the later counts. -/
def ofMembers (members : List (String × Json)) : Json :=
  .object (members.foldl (fun sorted (name, value) => Options.insertEntry name value sorted) [])

end Json

end BoundQuery
