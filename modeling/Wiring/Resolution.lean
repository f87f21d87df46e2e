import Wiring.Registry.Func

/-!
# Resolutions

An order in which constructors are called so that every one comes after those whose results it takes.
A step is a constructor with the constructors it depends on; the producers tell for every type that
was asked for which constructor makes it.
-/

namespace Wiring

/-- A call of a constructor, and the full names of those whose results it takes. -/
structure Step where
  func : Func
  dependencies : List String
  deriving DecidableEq

/-- Constructor calls in order, and the constructor of every type that they make. -/
structure Resolution where
  steps : List Step
  producers : Dict Func
  deriving DecidableEq

namespace Resolution

def empty : Resolution :=
  ⟨[], .empty⟩

instance : Inhabited Resolution :=
  ⟨empty⟩

def funcs (r : Resolution) : List Func :=
  r.steps.map (·.func)

def producer? (r : Resolution) (fqn : String) : Option Func :=
  r.producers.get? fqn

def dependencies (r : Resolution) (func : String) : List String :=
  ((r.steps.find? (·.func.fqn == func)).map (·.dependencies)).getD []

def contains (r : Resolution) (func : String) : Bool :=
  r.steps.any (·.func.fqn == func)

def size (r : Resolution) : Nat :=
  r.steps.length

/-- The resolution in which `f` makes the type and is called, last unless it is called already. -/
def record (r : Resolution) (fqn : String) (f : Func) (dependencies : List String) : Resolution where
  steps := if r.contains f.fqn then r.steps else r.steps ++ [⟨f, dependencies⟩]
  producers := r.producers.insert fqn f

/-- The nodes of the dependency graph: the constructors in call order. -/
def nodes (r : Resolution) : List String :=
  r.funcs.map Func.fqn

/-- The edges of the dependency graph, each from a constructor to one that takes its result. -/
def edges (r : Resolution) : List (String × String) :=
  (r.steps.flatMap fun s =>
    (s.dependencies.filter r.contains).map fun d => (d, s.func.fqn)).eraseDups

end Resolution

end Wiring
