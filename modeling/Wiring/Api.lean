import Wiring.Endpoint
import Wiring.Resolver

/-!
# The endpoints of a registry

Every exported function with an `api` directive is an endpoint, in the order of declaration.  A plan
holds what generated code needs to serve them: the types whose methods are handlers, the constructors
that make these types, and the packages to import.
-/

namespace Wiring

def apiDirective : String :=
  "api"

structure Api where
  endpoints : List Endpoint
  deriving DecidableEq

structure ServicePlan where
  services : List TypeName
  resolution : Resolution
  imports : List Package
  deriving DecidableEq

/-- Packages in the order of first mention, each once. -/
def distinctPackages (ps : List Package) : List Package :=
  (KeyedSet.ofList Package.path ps).items

def distinctTypes (ts : List TypeName) : List TypeName :=
  (KeyedSet.ofList TypeName.fqn ts).items

namespace Api

def handlers (fs : List Func) : List (Func × Directive) :=
  (fs.filter Func.isExported).filterMap fun f =>
    (f.documentation.directives.get? apiDirective).map fun d => (f, d)

/-- The endpoints of a registry, or what is wrong with the first bad handler. -/
def ofRegistry (r : Registry) : Except EndpointError Api := do
  let endpoints ← (handlers r.funcs).mapM fun (f, d) => Endpoint.ofDirective f d
  return ⟨endpoints⟩

def services (a : Api) : List TypeName :=
  distinctTypes (a.endpoints.filterMap Endpoint.service?)

/-- The types of the parameters of a handler and of its receiver. -/
def typesOf (f : Func) : List TypeName :=
  (f.params ++ f.receiver.toList).filterMap (·.type?)

/-- The packages of the types that handlers take. -/
def imports (a : Api) : List Package :=
  distinctPackages <| a.endpoints.flatMap fun e => (typesOf e.handler).filterMap (·.package)

def plan (a : Api) (r : Registry) : Except ResolveError ServicePlan := do
  let services := a.services
  let resolution ← r.resolve services
  return { services, resolution
           imports := distinctPackages (a.imports ++ resolution.funcs.map Func.package) }

end Api

end Wiring
