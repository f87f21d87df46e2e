import Wiring.KeyedSet
import Wiring.Registry.Func
import Wiring.Settings.Basic

/-!
# The registry

Everything that is known about packages, types and functions, each under its full name and listed in
the order in which it was first referred to.  Whoever asks for a package or a type adds it; the first
declaration of a type and the first function of a full name stay.
-/

namespace Wiring

structure Registry where
  settings : ParserSettings
  packages : KeyedSet Package
  types : KeyedSet TypeEntry
  /-- The functions in the order of arrival. -/
  arrivals : KeyedSet Func
  /-- The number of the next unit. -/
  nextUnit : Nat

namespace Registry

def empty (settings : ParserSettings) : Registry :=
  ⟨settings, .empty, .empty, .empty, 0⟩

instance : Inhabited Registry :=
  ⟨empty .default⟩

/-- The registry in which nothing is known, if its settings are in order. -/
def create (settings : ParserSettings) : Except SettingsError Registry :=
  match settings.validate? with
  | some e => .error e
  | none => .ok (empty settings)

def addPackage (r : Registry) (p : Package) : Registry :=
  { r with packages := r.packages.insert p.path p }

def addType (r : Registry) (t : TypeName) : Registry :=
  { r with types := r.types.insert t.fqn ⟨t, none⟩ }

/-- The form of a type that is listed under its full name. -/
def canonical (r : Registry) (t : TypeName) : TypeName :=
  ((r.types.get? t.fqn).map (·.name)).getD t

/-- The registry in which a known type has a declaration, this one unless it was declared before. -/
def attach (r : Registry) (t : TypeName) (d : TypeDeclaration) : Registry :=
  { r with types := r.types.modify t.fqn (·.declare d) }

/-- The registry in which a type is declared, unless it was declared before. -/
def declare (r : Registry) (t : TypeName) (d : TypeDeclaration) : Registry :=
  (r.addType t).attach t d

/-- The registry that knows a function, unless one of its full name is there. -/
def addFunc (r : Registry) (f : Func) : Registry :=
  { r with arrivals := r.arrivals.insert f.fqn f }

def addTypes (r : Registry) (ts : List TypeName) : Registry :=
  ts.foldl addType r

/-- The registry in which the signature of a listed function is looked up. -/
def resolveSignature (r : Registry) (fqn : String) : Registry :=
  match r.arrivals.get? fqn with
  | some { decl, scope, ordinal, signature? := none } =>
    let r := r.addTypes (scope.mentioned decl)
    let resolved : Func := ⟨decl, scope, ordinal, some (scope.signature r.canonical decl)⟩
    { r with arrivals := r.arrivals.modify fqn fun _ => resolved }
  | _ => r

def resolveSignatures (r : Registry) (fqns : List String) : Registry :=
  fqns.foldl resolveSignature r

def funcs (r : Registry) : List Func :=
  r.arrivals.items.mergeSort fun f g => f.ordinal.le g.ordinal

def findPackage? (r : Registry) (path : String) : Option Package :=
  r.packages.get? path

def findType? (r : Registry) (fqn : String) : Option TypeEntry :=
  r.types.get? fqn

def findFunc? (r : Registry) (fqn : String) : Option Func :=
  r.arrivals.get? fqn

/-- The type of a name in a package, and the registry that knows both. -/
def typeIn (r : Registry) (package : Option String) (name : String) : TypeName × Registry :=
  let p := package.map Package.ofPath
  let r := (p.map r.addPackage).getD r
  let t := TypeName.lookup p name
  let r := r.addType t
  (r.canonical t, r)

/-- The type that a full name stands for, and the registry that knows it. -/
def typeOfFqn (r : Registry) (fqn : String) : TypeName × Registry :=
  match Text.cutLast? '.' fqn.toList with
  | some (path, name) => r.typeIn (some (String.ofList path)) (String.ofList name)
  | none => r.typeIn none fqn

def declarationOf (marker : String) (file : Option String) (d : TypeDecl) : TypeDeclaration :=
  ⟨d.kind, .ofComments marker d.doc, file⟩

/-- Declares a type in a package outside any file. -/
def declareType (r : Registry) (package : String) (d : TypeDecl) : TypeName × Registry :=
  let p := Package.ofPath package
  let t := TypeName.lookup (some p) d.name
  let r := (r.addPackage p).declare t (declarationOf r.settings.marker none d)
  (r.canonical t, r)

/-- The marker and the numbers of packages, types and functions. -/
def describe (r : Registry) : String :=
  "Registry \x7b prefix: " ++ Text.quote r.settings.marker ++ ", packages: " ++
    toString r.packages.size ++ ", types: " ++ toString r.types.size ++ ", funcs: " ++
    toString r.arrivals.size ++ " \x7d"

end Registry

end Wiring
