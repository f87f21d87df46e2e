import Wiring.Api
import Wiring.Json.Basic

/-!
# Reports

What a command shows, as JSON: the whole registry, the constructors of wanted types, or the endpoints
with what they need.  Packages are listed by path and types by full name; everything else keeps its
order.  Fields without content are left out where their absence says the same.
-/

namespace Wiring.Cli.Report

/-- The fields that have a value. -/
def fields (fs : List (String × Option Json)) : Json :=
  .object (fs.filterMap fun (name, v?) => v?.map (name, ·))

/-- A text, if it is not empty. -/
def text? (s : String) : Option Json :=
  if s = "" then none else some (.string s)

def ofDirectives (ds : Dict Directive) : Json :=
  .object (ds.entries.map fun (name, d) =>
    (name, .object (d.params.entries.map fun (key, value) => (key, .string value))))

/-- The text of a documentation and its directives, as far as there are any. -/
def ofDocumentation (d : Documentation) : List (String × Option Json) :=
  [("doc", text? d.text),
    ("directives", if d.directives.isEmpty then none else some (ofDirectives d.directives))]

def ofPackage (p : Package) : Json :=
  fields [("path", some (.string p.path)), ("name", some (.string p.name)),
    ("alias", some (.string p.localAlias))]

def ofType (e : TypeEntry) : Json :=
  let t := e.name
  let d := e.declaration
  fields <|
    [("fqn", some (.string t.fqn)), ("name", some (.string t.name)),
      ("package", t.package.map fun p => .string p.path),
      ("kind", d.map fun d => .string d.kind.word), ("declared", some (.bool d.isSome))] ++
    (d.map fun d => ofDocumentation d.documentation).getD [] ++
    [("file", (d.bind (·.file)).map .string)]

def ofKind (k : SlotKind) : Json :=
  .object
    [("ident", .bool k.ident), ("builtin", .bool k.builtin), ("pointer", .bool k.pointer),
      ("slice", .bool k.slice), ("slice_of_pointer", .bool k.sliceOfPointer), ("map", .bool k.map)]

def ofSlot (s : Slot) : Json :=
  fields
    [("name", text? s.name), ("shape", some (.string s.shape.text)),
      ("type", s.type?.map fun t => .string t.fqn), ("kind", some (ofKind s.kind))]

def ofFunc (f : Func) : Json :=
  fields <|
    [("fqn", some (.string f.fqn)), ("name", some (.string f.name)),
      ("package", some (.string f.package.path)), ("exported", some (.bool f.isExported)),
      ("receiver", f.receiver.map ofSlot), ("params", some (.array (f.params.map ofSlot))),
      ("returns", some (.array (f.returns.map ofSlot)))] ++
    ofDocumentation f.documentation ++ [("file", f.file.map .string)]

def names (ts : List TypeName) : Json :=
  Json.strings (ts.map TypeName.fqn)

def ofResolution (r : Resolution) : Json :=
  .array (r.funcs.map fun f => .object
    [("func", .string f.fqn), ("produces", names f.producedTypes),
      ("depends_on", Json.strings (r.dependencies f.fqn))])

def ofEndpoint (e : Endpoint) : Json :=
  let param (p : EndpointParam) : Json :=
    fields
      [("name", some (.string p.name)), ("source", some (.string p.source.word)),
        ("type", ((e.slotOf? p).bind (·.type?)).map fun t => .string t.fqn)]
  fields
    [("method", some (.string e.method.word)), ("path", some (.string e.path)),
      ("handler", some (.string e.handler.fqn)), ("service", e.service?.map fun t => .string t.fqn),
      ("params", some (.array (e.params.map param))), ("response", e.response?.map ofSlot)]

def ofRegistry (r : Registry) : Json :=
  let packages := r.packages.items.mergeSort fun p q => p.path ≤ q.path
  let types := r.types.items.mergeSort fun a b => a.name.fqn ≤ b.name.fqn
  .object
    [("packages", .array (packages.map ofPackage)), ("types", .array (types.map ofType)),
      ("funcs", .array (r.funcs.map ofFunc))]

def ofTargets (targets : List TypeName) (r : Resolution) : Json :=
  .object [("targets", names targets), ("constructors", ofResolution r)]

def ofApi (a : Api) (plan : ServicePlan) : Json :=
  .object
    [("endpoints", .array (a.endpoints.map ofEndpoint)), ("services", names plan.services),
      ("imports", .array (plan.imports.map ofPackage)),
      ("constructors", ofResolution plan.resolution)]

end Wiring.Cli.Report
