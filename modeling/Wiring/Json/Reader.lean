import Wiring.Json.Token

/-!
# Reading JSON

A text is one value.  The reader takes its tokens one by one and keeps the arrays and objects that
are still open on a stack, innermost first.
-/

namespace Wiring.Json

/-- An array or object that is open: what it holds so far, newest first. -/
inductive Frame where
  | items (done : List Json)
  | fields (done : List (String × Json)) (key : String)

inductive ReadState where
  | value (stack : List Frame)
  | firstItem (stack : List Frame)
  | firstKey (stack : List Frame)
  | nextKey (done : List (String × Json)) (stack : List Frame)
  | separator (done : List (String × Json)) (key : String) (stack : List Frame)
  | after (v : Json) (stack : List Frame)

def beginValue? (stack : List Frame) : Token → Option ReadState
  | .openArray => some (.firstItem stack)
  | .openObject => some (.firstKey stack)
  | .text s => some (.after (.string s) stack)
  | .scalar v => some (.after v stack)
  | _ => none

def step? : ReadState → Token → Option ReadState
  | .value stack, t => beginValue? stack t
  | .firstItem stack, .closeArray => some (.after (.array []) stack)
  | .firstItem stack, t => beginValue? (.items [] :: stack) t
  | .firstKey stack, .closeObject => some (.after (.object []) stack)
  | .firstKey stack, .text key => some (.separator [] key stack)
  | .nextKey done stack, .text key => some (.separator done key stack)
  | .separator done key stack, .colon => some (.value (.fields done key :: stack))
  | .after v (.items done :: stack), .comma => some (.value (.items (v :: done) :: stack))
  | .after v (.items done :: stack), .closeArray =>
    some (.after (.array (v :: done).reverse) stack)
  | .after v (.fields done key :: stack), .comma => some (.nextKey ((key, v) :: done) stack)
  | .after v (.fields done key :: stack), .closeObject =>
    some (.after (.object ((key, v) :: done).reverse) stack)
  | _, _ => none

def ofTokens? (ts : List Token) : Option Json :=
  match ts.foldlM step? (.value []) with
  | some (.after v []) => some v
  | _ => none

def parse? (s : String) : Option Json :=
  (tokens? s).bind ofTokens?

end Wiring.Json
