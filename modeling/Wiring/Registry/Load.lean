import Wiring.Registry.Basic

/-!
# Loading units

A unit is loaded by single steps: one looks up a package or a type and adds it if it is new, one
attaches a declaration to a type, one adds a function.  Several units can be loaded together.  Then a
first pass over all of them adds their packages and declared types in order and notes for every full
name where it is declared first; after it, a step that declares anything is taken only by the unit
that declares it first, so that the order of the steps of different units does not matter.  Signatures
are looked up when all steps are done.
-/

namespace Wiring

/-- One change to a registry while a unit is loaded. -/
inductive LoadStep where
  | package (p : Package)
  | type (t : TypeName)
  | attach (t : TypeName) (d : TypeDeclaration)
  | func (f : Func)

structure LoadStats where
  units : Nat
  types : Nat
  funcs : Nat
  deriving DecidableEq, Repr

namespace LoadStats

def zero : LoadStats :=
  ⟨0, 0, 0⟩

def add (s t : LoadStats) : LoadStats :=
  ⟨s.units + t.units, s.types + t.types, s.funcs + t.funcs⟩

end LoadStats

/-- Where the full names of several units are declared first. -/
structure Claims where
  types : KeyedSet Nat
  funcs : KeyedSet Ordinal

namespace Claims

def empty : Claims :=
  ⟨.empty, .empty⟩

def ownsType (c : Claims) (fqn : String) (unit : Nat) : Bool :=
  (c.types.get? fqn).all (· == unit)

def ownsFunc (c : Claims) (fqn : String) (ordinal : Ordinal) : Bool :=
  (c.funcs.get? fqn).all (· == ordinal)

end Claims

namespace SourceUnit

def package (u : SourceUnit) : Package :=
  .ofPath u.packagePath

/-- The package of a unit and the packages it imports. -/
def packages (u : SourceUnit) : List Package :=
  u.package :: u.imports.map ImportDecl.package

/-- A type that a unit declares, by its full name. -/
def typeName (u : SourceUnit) (d : TypeDecl) : TypeName :=
  .lookup (some u.package) d.name

/-- The functions of a unit with their places, as the unit of this number. -/
def functions (u : SourceUnit) (marker : String) (unit : Nat) : List Func :=
  u.funcs.zipIdx.map fun (d, index) => ⟨d, .ofUnit marker u, ⟨unit, index⟩, none⟩

/-- The types of a unit, and their declarations as far as the unit owns them. -/
def typeSteps (u : SourceUnit) (marker : String) (unit : Nat) (claims : Claims) : List LoadStep :=
  u.types.flatMap fun d =>
    let t := u.typeName d
    .type t :: if claims.ownsType t.fqn unit then
      [.attach t (Registry.declarationOf marker u.filePath d)] else []

def ownFunctions (u : SourceUnit) (marker : String) (unit : Nat) (claims : Claims) : List Func :=
  (u.functions marker unit).filter fun f => claims.ownsFunc f.fqn f.ordinal

/-- The steps that load a unit as the one of this number. -/
def loadSteps (u : SourceUnit) (marker : String) (unit : Nat) (claims : Claims) : List LoadStep :=
  u.packages.map .package ++ u.typeSteps marker unit claims ++
    (u.ownFunctions marker unit claims).map .func

def claimSteps (u : SourceUnit) : List LoadStep :=
  u.packages.map .package ++ u.types.map fun d => .type (u.typeName d)

def claim (claims : Claims) (u : SourceUnit) (marker : String) (unit : Nat) : Claims where
  types := u.types.foldl (fun s d => s.insert (u.typeName d).fqn unit) claims.types
  funcs := (u.functions marker unit).foldl (fun s f => s.insert f.fqn f.ordinal) claims.funcs

def stats (u : SourceUnit) : LoadStats :=
  ⟨1, u.types.length, u.funcs.length⟩

end SourceUnit

def LoadStats.ofUnits (us : List SourceUnit) : LoadStats :=
  us.foldl (fun s u => s.add u.stats) .zero

namespace Registry

def perform (r : Registry) : LoadStep → Registry
  | .package p => r.addPackage p
  | .type t => r.addType t
  | .attach t d => r.attach t d
  | .func f => r.addFunc f

def performAll (r : Registry) (steps : List LoadStep) : Registry :=
  steps.foldl perform r

/-- Loads one unit; what was declared before stays. -/
def load (r : Registry) (u : SourceUnit) : LoadStats × Registry :=
  let unit := r.nextUnit
  let r := { r with nextUnit := unit + 1 }
  let r := r.performAll (u.loadSteps r.settings.marker unit .empty)
  (u.stats, r.resolveSignatures ((u.functions r.settings.marker unit).map Func.fqn))

/-- The claims of units that are numbered from `base` on. -/
def claimsOf (marker : String) (base : Nat) (us : List SourceUnit) : Claims :=
  (us.zipIdx base).foldl (fun c (u, unit) => u.claim c marker unit) .empty

/-- Loads several units together; of several declarations of a full name the first one counts. -/
def loadAll (r : Registry) (us : List SourceUnit) : LoadStats × Registry :=
  let base := r.nextUnit
  let marker := r.settings.marker
  let claims := claimsOf marker base us
  let r := { r with nextUnit := base + us.length }
  let r := r.performAll (us.flatMap SourceUnit.claimSteps)
  let r := r.performAll ((us.zipIdx base).flatMap fun (u, unit) => u.loadSteps marker unit claims)
  (.ofUnits us, r.resolveSignatures (r.funcs.map Func.fqn))

end Registry

end Wiring
