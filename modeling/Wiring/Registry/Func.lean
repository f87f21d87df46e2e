import Wiring.Registry.Signature
import Wiring.Text.Quoted

/-!
# Functions

A function is known by its full name: the path of its package, the name of the type it belongs to if
it is a method on a named type, and its own name, with dots between them.  Its ordinal says in which
unit and at which place it was declared.
-/

namespace Wiring

/-- The place of a declaration: the number of its unit, and its index there. -/
structure Ordinal where
  unit : Nat
  index : Nat
  deriving DecidableEq, Inhabited, Repr

/-- Whether one place comes before another or is the same. -/
def Ordinal.le (a b : Ordinal) : Bool :=
  a.unit < b.unit || (a.unit == b.unit && a.index ≤ b.index)

def funcName (package : Package) (receiver : Option String) (name : String) : String :=
  match receiver with
  | some r => package.path ++ "." ++ r ++ "." ++ name
  | none => package.path ++ "." ++ name

/-- A declared function, with its signature once that was looked up. -/
structure Func where
  decl : FuncDecl
  scope : FileScope
  ordinal : Ordinal
  signature? : Option Signature
  deriving DecidableEq

namespace Func

def name (f : Func) : String :=
  f.decl.name

def package (f : Func) : Package :=
  f.scope.package

def fqn (f : Func) : String :=
  funcName f.package f.decl.receiverBase? f.name

def isExported (f : Func) : Bool :=
  f.decl.exported

def isMethod (f : Func) : Bool :=
  f.decl.isMethod

def file (f : Func) : Option String :=
  f.scope.file

def documentation (f : Func) : Documentation :=
  .ofComments f.scope.marker f.decl.doc

def signature (f : Func) : Signature :=
  f.signature?.getD .empty

def receiver (f : Func) : Option Slot :=
  f.signature.receiver

def params (f : Func) : List Slot :=
  f.signature.params

def returns (f : Func) : List Slot :=
  f.signature.returns

/-- The types of the results in order, errors left out. -/
def producedTypes (f : Func) : List TypeName :=
  (f.returns.filter (!·.isError)).filterMap (·.type?)

/-- Whether a type other than `error` is the type of a result. -/
def produces (f : Func) (t : TypeName) : Bool :=
  !t.isError && f.returns.any fun r => r.type?.any (·.fqn == t.fqn)

def returnsError (f : Func) : Bool :=
  f.returns.any Slot.isError

/-- The full name, the place and whether the signature was looked up. -/
def describe (f : Func) : String :=
  "Func \x7b fqn: " ++ Text.quote f.fqn ++ ", ordinal: DeclOrdinal \x7b unit: " ++
    toString f.ordinal.unit ++ ", index: " ++ toString f.ordinal.index ++ " \x7d, resolved: " ++
    toString f.signature?.isSome ++ " \x7d"

end Func

end Wiring
