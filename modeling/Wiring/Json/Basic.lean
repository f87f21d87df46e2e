/-!
# JSON values

Numbers are kept in two kinds.  An `integer` is written without fraction and exponent, and is not
`-0`; every other number is a `real` and stays the text that was read, because nothing here computes
with it.  The fields of an object keep their order and may repeat a name, so that a reader of fields
can refuse a repeated one.
-/

namespace Wiring

inductive Json where
  | null
  | bool (b : Bool)
  | integer (n : Int)
  | real (text : String)
  | string (s : String)
  | array (items : List Json)
  | object (fields : List (String × Json))
  deriving Inhabited

namespace Json

/-- The string, if there is one, and else `null`. -/
def ofString? : Option String → Json
  | some s => string s
  | none => null

def strings (ss : List String) : Json :=
  array (ss.map string)

def natural (n : Nat) : Json :=
  integer n

end Json

end Wiring
