import Wiring.Json.Basic

/-!
# Reading values out of JSON

A decoder takes a JSON value and gives what it stands for, or nothing.  Records are read field by
field: names that are not asked for are passed over, and a name that is asked for may stand once at
most.  `null` is a value like any other, except that an optional field may be `null` in place of
being absent.
-/

namespace Wiring.Json

abbrev Fields := List (String × Json)

def fields? : Json → Option Fields
  | object fs => some fs
  | _ => none

def string? : Json → Option String
  | string s => some s
  | _ => none

def bool? : Json → Option Bool
  | bool b => some b
  | _ => none

/-- The natural number up to `limit` that a value is. -/
def natural? (limit : Nat) : Json → Option Nat
  | integer (.ofNat n) => if n ≤ limit then some n else none
  | _ => none

/-- The greatest number of 64 bits. -/
def maxWord : Nat :=
  Nat.pow 2 64 - 1

def list? {α : Type} (decode : Json → Option α) : Json → Option (List α)
  | array items => items.mapM decode
  | _ => none

/-- What `decode` reads, or nothing where the value is `null`. -/
def nullable? {α : Type} (decode : Json → Option α) : Json → Option (Option α)
  | null => some none
  | v => (decode v).map some

/-- The case that a value names: by its name, or by an object with the name and `null`. -/
def case? : Json → Option String
  | string s => some s
  | object [(s, null)] => some s
  | _ => none

namespace Fields

/-- The value of a field, if there is one; refuses a field that stands there twice. -/
def find? (fs : Fields) (name : String) : Option (Option Json) :=
  match fs.filter (·.1 == name) with
  | [] => some none
  | [f] => some (some f.2)
  | _ => none

/-- A field that must be there. -/
def required? {α : Type} (fs : Fields) (name : String) (decode : Json → Option α) : Option α :=
  match fs.find? name with
  | some (some v) => decode v
  | _ => none

/-- A field that stands for `default` when it is absent. -/
def getD? {α : Type} (fs : Fields) (name : String) (default : α) (decode : Json → Option α) :
    Option α :=
  match fs.find? name with
  | some (some v) => decode v
  | some none => some default
  | none => none

/-- A field that may be absent or `null`. -/
def optional? {α : Type} (fs : Fields) (name : String) (decode : Json → Option α) :
    Option (Option α) :=
  fs.getD? name none (nullable? decode)

end Fields

end Wiring.Json
