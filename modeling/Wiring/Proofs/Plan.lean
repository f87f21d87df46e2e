import Mathlib
import Wiring.Api
import Wiring.Proofs.Attempt
import Wiring.Proofs.Registry.Listing
import Wiring.Proofs.Resolver.Graph
import Wiring.Proofs.Signature

/-!
# What a plan holds

A plan lists the types whose methods are handlers, calls constructors that make them, and lists the
packages to import.  `plan_serves` says of the first two that every such type is made, after
everything that its constructor takes, and `plan_imports` tells the packages.

A plan can only hold what a handler shows.  The type of a receiver whose shape names none, or names
one behind a qualifier that no import binds, is not there, and nothing is said about it
(`FileScope.Unknown`); the method stays an endpoint and nothing is made for it.  And a handler brings
in the packages of the types that it takes, and not its own one.

Lists of types and of packages are without repetition because each of their elements has a key.  A
package is told by its path; a type is told by its full name because the registry lists it under this
name (`service_eq_of_fqn_eq`).
-/

namespace Wiring

/-! ## Receivers without type -/

namespace FileScope

variable {scope : FileScope} {s : Shape} {c : TypeName → TypeName} {d : FieldDecl}

/-- A file does not tell the type at the core of a shape: there is no name, or one behind a qualifier
that stands for no package. -/
inductive Unknown (scope : FileScope) (s : Shape) : Prop
  | unsupported {text : String} (core : s.core = .unsupported text)
  | unbound {qualifier name : String} (core : s.core = .named (some qualifier) name)
      (free : scope.imports.get? qualifier = none)

theorem meaning?_eq_none_iff : scope.meaning? s = none ↔ scope.Unknown s := by
  have hcore : scope.meaning? s
      = scope.meaningFrom? (SlotKind.unknown.passAll s.wrappers) s.core := meaningFrom?_eq _ _ _
  rw [hcore]
  constructor
  · intro hnone
    rcases s.core_cases with ⟨qualifier, name, hs⟩ | ⟨text, hs⟩
    · cases qualifier with
      | none =>
        rw [hs] at hnone
        cases hnone
      | some qualifier =>
        rw [hs, meaningFrom?, Option.map_eq_none_iff] at hnone
        exact .unbound hs hnone
    · exact .unsupported hs
  · intro hunknown
    cases hunknown with
    | unsupported hs =>
      rw [hs]
      rfl
    | unbound hs hfree =>
      rw [hs, meaningFrom?, hfree]
      rfl

theorem type?_slot_eq_none_iff : (scope.slot c d).type? = none ↔ scope.Unknown d.shape := by
  rw [← meaning?_eq_none_iff]
  simp [slot]

end FileScope

theorem Func.SignedIn.receiver_eq {r : Registry} {f : Func} (h : f.SignedIn r) :
    f.receiver = f.decl.receiver.map (f.scope.slot r.canonical) := by
  rw [Func.receiver, h.signature_eq, FileScope.signature]

/-! ## Types that are made -/

namespace Resolution

/-- The constructor `f` at the place `i` makes a type.  It is no method, and whatever it takes is made
by constructors at earlier places, which are its dependencies. -/
structure Built (d : Resolution) (t : TypeName) (f : Func) (i : Nat) : Prop where
  producer : d.producer? t.fqn = some f
  produces : f.produces t = true
  free : f.isMethod = false
  place : d.funcs[i]? = some f
  earlier : ∀ n ∈ d.dependencies f.fqn, ∃ j < i, d.nodes[j]? = some n
  fed : ∀ p ∈ f.params, ∃ u g, p.type? = some u ∧ d.producer? u.fqn = some g ∧
    g.fqn ∈ d.dependencies f.fqn

end Resolution

namespace Registry

open Resolution

variable {r : Registry} {targets : List TypeName} {d : Resolution} {t : TypeName}

theorem byCalls_loadAll (us : List SourceUnit) : ((empty .default).loadAll us).2.ByCalls := by
  have hempty : (empty .default).ByCalls := @ByCalls.create .default _ (by cbv)
  exact hempty.call (.load .all)

/-- Constructors are no methods. -/
theorem isMethod_eq_false_of_mem_resolver {f : Func} (hf : f ∈ r.resolver.funcs) :
    f.isMethod = false := by
  simpa using (List.mem_filter.1 hf).2

theorem ByCalls.sound_of_resolve (hr : r.ByCalls) (hd : r.resolve targets = .ok d) : d.Sound := by
  apply Resolver.sound_of_resolve _ hd
  intro f hf g hg hname
  exact hr.atRest.reachable.wellFormed.eq_of_fqn_eq (List.mem_of_mem_filter hf)
    (List.mem_of_mem_filter hg) hname

/-- **What is asked for is made** by a constructor that comes after everything it takes. -/
theorem ByCalls.exists_built (hr : r.ByCalls) (hd : r.resolve targets = .ok d) (ht : t ∈ targets) :
    ∃ f i, d.Built t f i := by
  have hsound : d.Sound := hr.sound_of_resolve hd
  obtain ⟨f, hf⟩ := Option.isSome_iff_exists.1 ((Resolver.resolveInto_ok hd).2 t ht)
  obtain ⟨hcalled, hproduces⟩ := hsound.made t f hf
  obtain ⟨i, hi⟩ := List.getElem?_of_mem hcalled
  obtain ⟨u, -, -, hchosen⟩ := (Resolver.producer?_eq_some_iff hd).1 hf
  refine ⟨f, i, hf, hproduces, ?_, hi, ?_, ?_⟩
  · exact isMethod_eq_false_of_mem_resolver (Resolver.mem_funcs_of_producerFor hchosen)
  · intro n hn
    exact hsound.earlier_of_mem_dependencies hi hn
  · intro p hp
    obtain ⟨u, g, j, hu, hg, -, -⟩ := hsound.earlier i f hi p hp
    refine ⟨u, g, hu, hg, ?_⟩
    rw [hsound.dependencies f hcalled, List.mem_eraseDups]
    apply List.mem_filterMap.2
    exact ⟨p, hp, by simp [supplier?, hu, hg]⟩

end Registry

/-! ## Endpoints -/

namespace Api

variable {r : Registry} {a : Api} {e : Endpoint} {p : ServicePlan} {t : TypeName} {q : Package}

/-- The endpoints are those of the handlers, one by one. -/
theorem ofRegistry_eq_ok_iff : ofRegistry r = .ok a ↔
    List.Forall₂ (fun h e => Endpoint.ofDirective h.1 h.2 = .ok e) (handlers r.funcs)
      a.endpoints := by
  rw [ofRegistry, bind_eq_ok_iff]
  simp only [mapM_eq_ok_iff]
  constructor
  · rintro ⟨endpoints, hall, ha⟩
    cases ha
    exact hall
  · intro hall
    exact ⟨a.endpoints, hall, rfl⟩

theorem handler_of_ofDirective {f : Func} {d : Directive} (h : Endpoint.ofDirective f d = .ok e) :
    e.handler = f := by
  rw [Endpoint.ofDirective, bind_eq_ok_iff] at h
  obtain ⟨method, -, h⟩ := h
  obtain ⟨path, -, he⟩ := bind_eq_ok_iff.1 h
  cases he
  rfl

/-- A handler is a function of the registry. -/
theorem handler_mem_funcs (ha : ofRegistry r = .ok a) (he : e ∈ a.endpoints) :
    e.handler ∈ r.funcs := by
  obtain ⟨h, hmem, hh⟩ := exists_mem_of_forall₂ (ofRegistry_eq_ok_iff.1 ha) he
  obtain ⟨f, hf, hd⟩ := List.mem_filterMap.1 hmem
  obtain ⟨d, -, rfl⟩ := Option.map_eq_some_iff.1 hd
  rw [handler_of_ofDirective hh]
  exact List.mem_of_mem_filter hf

/-! ## Services -/

/-- The type that a handler is a method of is the one that is listed under its full name. -/
theorem service_listed (hr : r.ByCalls) (ha : ofRegistry r = .ok a) (he : e ∈ a.endpoints)
    (ht : e.service? = some t) : r.ListsType t := by
  obtain ⟨slot, hslot, htype⟩ := Option.bind_eq_some_iff.1 ht
  have hnamed : r.TypesNamed := hr.atRest.reachable.typesNamed
  have hsigned : e.handler.SignedIn r := hr.atRest.signedIn (handler_mem_funcs ha he)
  apply Registry.listed_of_mem_slots hnamed hsigned _ htype
  simp [Func.slots, hslot]

theorem service_eq_of_fqn_eq (hr : r.ByCalls) (ha : ofRegistry r = .ok a) :
    ∀ t ∈ a.endpoints.filterMap Endpoint.service?,
      ∀ u ∈ a.endpoints.filterMap Endpoint.service?, t.fqn = u.fqn → t = u := by
  intro t ht u hu hname
  obtain ⟨e, he, het⟩ := List.mem_filterMap.1 ht
  obtain ⟨e', he', heu⟩ := List.mem_filterMap.1 hu
  obtain ⟨entry, hentry, rfl⟩ := service_listed hr ha he het
  obtain ⟨entry', hentry', rfl⟩ := service_listed hr ha he' heu
  -- the registry has one entry under the name that both have
  rw [hname, hentry', Option.some.injEq] at hentry
  rw [hentry]

/-- **The services are the types that handlers are methods of.** -/
theorem mem_services_iff (hr : r.ByCalls) (ha : ofRegistry r = .ok a) :
    t ∈ a.services ↔ ∃ e ∈ a.endpoints, e.service? = some t := by
  rw [services, distinctTypes, KeyedSet.mem_items_ofList_iff (service_eq_of_fqn_eq hr ha),
    List.mem_filterMap]

/-- A handler is a method of no known type exactly if its file does not tell the type of its
receiver. -/
theorem service?_eq_none_iff (hr : r.ByCalls) (ha : ofRegistry r = .ok a) (he : e ∈ a.endpoints)
    {d : FieldDecl} (hd : e.handler.decl.receiver = some d) :
    e.service? = none ↔ e.handler.scope.Unknown d.shape := by
  have hsigned : e.handler.SignedIn r := hr.atRest.signedIn (handler_mem_funcs ha he)
  rw [Endpoint.service?, hsigned.receiver_eq, hd]
  exact FileScope.type?_slot_eq_none_iff

end Api

/-! ## Plans -/

/-- What a plan does for the methods among the handlers: the type of every receiver is listed and
made, unless the file does not tell it. -/
structure ServicePlan.Serves (p : ServicePlan) (a : Api) : Prop where
  built : ∀ e ∈ a.endpoints, ∀ d, e.handler.decl.receiver = some d →
    ¬ e.handler.scope.Unknown d.shape →
      ∃ t, e.service? = some t ∧ t ∈ p.services ∧ ∃ f i, p.resolution.Built t f i
  unknown : ∀ e ∈ a.endpoints, ∀ d, e.handler.decl.receiver = some d →
    e.handler.scope.Unknown d.shape → e.service? = none
  /-- Nothing else is listed. -/
  only : ∀ t ∈ p.services, ∃ e ∈ a.endpoints, e.service? = some t
  /-- No constructor is called twice. -/
  once : p.resolution.nodes.Nodup

namespace Api

variable {r : Registry} {a : Api} {p : ServicePlan} {q : Package}

theorem plan_eq_ok_iff : a.plan r = .ok p ↔ p.services = a.services ∧
    r.resolve a.services = .ok p.resolution ∧
    p.imports = distinctPackages (a.imports ++ p.resolution.funcs.map Func.package) := by
  rw [plan, bind_eq_ok_iff]
  constructor
  · rintro ⟨d, hd, hp⟩
    cases hp
    exact ⟨rfl, hd, rfl⟩
  · rintro ⟨hservices, hd, himports⟩
    refine ⟨p.resolution, hd, ?_⟩
    rw [← hservices, ← himports]
    rfl

/-- **A plan makes the type of every method among the handlers**, except where the file of the method
does not tell this type. -/
theorem plan_serves (hr : r.ByCalls) (ha : ofRegistry r = .ok a) (hp : a.plan r = .ok p) :
    p.Serves a := by
  obtain ⟨hservices, hd, -⟩ := plan_eq_ok_iff.1 hp
  refine ⟨?_, ?_, ?_, ?_⟩
  · intro e he d hreceiver hknown
    have hsome : e.service? ≠ none := by
      intro hnone
      exact hknown ((service?_eq_none_iff hr ha he hreceiver).1 hnone)
    obtain ⟨t, ht⟩ := Option.ne_none_iff_exists'.1 hsome
    have hlisted : t ∈ a.services := (mem_services_iff hr ha).2 ⟨e, he, ht⟩
    exact ⟨t, ht, hservices ▸ hlisted, hr.exists_built hd hlisted⟩
  · intro e he d hreceiver hunknown
    exact (service?_eq_none_iff hr ha he hreceiver).2 hunknown
  · intro t ht
    rw [hservices] at ht
    exact (mem_services_iff hr ha).1 ht
  · exact (hr.sound_of_resolve hd).nodup

/-- The endpoints of a registry and a plan for them, if there are both. -/
def planned? (r : Registry) : Option (Api × ServicePlan) :=
  (ofRegistry r).toOption.bind fun a => (a.plan r).toOption.map fun p => (a, p)

theorem planned?_eq_some (h : planned? r = some (a, p)) :
    ofRegistry r = .ok a ∧ a.plan r = .ok p := by
  obtain ⟨a', ha, hplan⟩ := Option.bind_eq_some_iff.1 h
  obtain ⟨p', hp, heq⟩ := Option.map_eq_some_iff.1 hplan
  cases heq
  exact ⟨toOption_eq_some_iff.1 ha, toOption_eq_some_iff.1 hp⟩

/-- A file with a handler on a service that is made from a connection, and the file that opens the
connection. -/
def service : List SourceUnit :=
  [⟨"app", none, [⟨none, "db"⟩, ⟨some "x", "lib"⟩], [],
      [⟨"Run", true, some (.ofName "s" (.pointer (.named none "S"))),
          [.ofName "id" (.named (some "x") "Id")], [], ["//ease:api path=/"]⟩,
        { FuncDecl.ofName "New" with
          params := [.ofName "c" (.pointer (.named (some "db") "C"))]
          returns := [.unnamed (.pointer (.named none "S")), .unnamed (.named none "error")] }]⟩,
    ⟨"db", none, [], [],
      [{ FuncDecl.ofName "Open" with returns := [.unnamed (.pointer (.named none "C"))] }]⟩]

def serving : Registry :=
  ((Registry.empty .default).loadAll service).2

set_option maxRecDepth 8000 in
theorem serves_serving : serving.ByCalls ∧ ∃ a p, ofRegistry serving = .ok a ∧
    a.plan serving = .ok p ∧ p.services.map TypeName.fqn = ["app.S"] ∧
    p.resolution.nodes = ["db.Open", "app.New"] ∧ p.Serves a := by
  have hplanned : (planned? serving).map (fun ap =>
      (ap.2.services.map TypeName.fqn, ap.2.resolution.nodes)) =
        some (["app.S"], ["db.Open", "app.New"]) := by cbv
  have hserving : serving.ByCalls := Registry.byCalls_loadAll service
  obtain ⟨⟨a, p⟩, hap, hview⟩ := Option.map_eq_some_iff.1 hplanned
  obtain ⟨ha, hp⟩ := planned?_eq_some hap
  obtain ⟨hservices, hnodes⟩ := Prod.mk.inj hview
  exact ⟨hserving, a, p, ha, hp, hservices, hnodes, plan_serves hserving ha hp⟩

/-- A file with a handler on a type of a package that no import brings in. -/
def stray : SourceUnit :=
  ⟨"ex.com/app", some "app.go", [⟨none, "ex.com/db"⟩], [],
    [⟨"Run", true, some (.ofName "s" (.pointer (.named (some "store") "Service"))), [], [],
      ["//ease:api path=/run"]⟩]⟩

def straying : Registry :=
  ((Registry.empty .default).loadAll [stray]).2

set_option maxRecDepth 8000 in
/-- Its plan succeeds and makes nothing for the method. -/
theorem plan_straying : straying.ByCalls ∧ ∃ a p, ofRegistry straying = .ok a ∧
    a.plan straying = .ok p ∧ (∃ e ∈ a.endpoints, e.handler.isMethod = true ∧ e.service? = none) ∧
    p.services = [] ∧ p.resolution.steps = [] := by
  have hplanned : (planned? straying).map (fun ap =>
      (ap.1.endpoints.any (fun e => e.handler.isMethod && e.service?.isNone), ap.2.services,
        ap.2.resolution.steps)) = some (true, [], []) := by cbv
  have hstraying : straying.ByCalls := Registry.byCalls_loadAll [stray]
  obtain ⟨⟨a, p⟩, hap, hview⟩ := Option.map_eq_some_iff.1 hplanned
  obtain ⟨ha, hp⟩ := planned?_eq_some hap
  obtain ⟨hany, hrest⟩ := Prod.mk.inj hview
  obtain ⟨hservices, hsteps⟩ := Prod.mk.inj hrest
  refine ⟨hstraying, a, p, ha, hp, ?_, hservices, hsteps⟩
  obtain ⟨e, he, hmethod⟩ := List.any_eq_true.1 hany
  simp only [Bool.and_eq_true, Option.isNone_iff_eq_none] at hmethod
  exact ⟨e, he, hmethod⟩

/-! ## Packages -/

theorem mem_distinctPackages_iff {ps : List Package} : q ∈ distinctPackages ps ↔ q ∈ ps := by
  apply KeyedSet.mem_items_ofList_iff
  rintro ⟨path⟩ - ⟨path'⟩ - hpath
  exact congrArg Package.mk hpath

/-- The type of a parameter of a handler or of its receiver belongs to a package. -/
def Takes (a : Api) (q : Package) : Prop :=
  ∃ e ∈ a.endpoints, ∃ slot ∈ e.handler.params ++ e.handler.receiver.toList, ∃ t,
    slot.type? = some t ∧ t.package = some q

theorem mem_imports_iff : q ∈ a.imports ↔ a.Takes q := by
  simp only [imports, mem_distinctPackages_iff, typesOf, List.mem_flatMap, List.mem_filterMap,
    Takes]
  constructor
  · rintro ⟨e, he, t, ⟨slot, hslot, ht⟩, hq⟩
    exact ⟨e, he, slot, hslot, t, ht, hq⟩
  · rintro ⟨e, he, slot, hslot, t, ht, hq⟩
    exact ⟨e, he, t, ⟨slot, hslot, ht⟩, hq⟩

/-- **The packages of a plan** are those of the types that handlers take and those of the
constructors, each once.  So the package of a method is there if it has the type of the receiver. -/
theorem plan_imports (hp : a.plan r = .ok p) :
    (p.imports.map (·.path)).Nodup ∧
    (∀ q, q ∈ p.imports ↔ a.Takes q ∨ ∃ f ∈ p.resolution.funcs, f.package = q) ∧
    ∀ e ∈ a.endpoints, ∀ t, e.service? = some t → t.package = some e.handler.package →
      e.handler.package ∈ p.imports := by
  obtain ⟨-, -, himports⟩ := plan_eq_ok_iff.1 hp
  have hmem : ∀ q, q ∈ p.imports ↔ a.Takes q ∨ ∃ f ∈ p.resolution.funcs, f.package = q := by
    intro q
    rw [himports, mem_distinctPackages_iff, List.mem_append, mem_imports_iff, List.mem_map]
  refine ⟨?_, hmem, ?_⟩
  · rw [himports]
    exact KeyedSet.nodup_items_ofList
  · intro e he t ht hown
    obtain ⟨slot, hslot, htype⟩ := Option.bind_eq_some_iff.1 ht
    apply (hmem _).2
    left
    exact ⟨e, he, slot, by simp [hslot], t, htype, hown⟩

set_option maxRecDepth 8000 in
theorem imports_serving : ∃ (a : Api) (p : ServicePlan), a.plan serving = .ok p ∧
    p.imports.map (·.path) = ["lib", "app", "db"] ∧
    (p.imports.map (·.path)).Nodup ∧
    (∀ q, q ∈ p.imports ↔ a.Takes q ∨ ∃ f ∈ p.resolution.funcs, f.package = q) ∧
    ∀ e ∈ a.endpoints, ∀ t, e.service? = some t → t.package = some e.handler.package →
      e.handler.package ∈ p.imports := by
  have hplanned : (planned? serving).map (fun ap => ap.2.imports.map (·.path)) =
      some ["lib", "app", "db"] := by cbv
  obtain ⟨⟨a, p⟩, hap, hpaths⟩ := Option.map_eq_some_iff.1 hplanned
  obtain ⟨-, hp⟩ := planned?_eq_some hap
  exact ⟨a, p, hp, hpaths, plan_imports hp⟩

/-- A file with a handler that is no method and takes nothing. -/
def probe : SourceUnit :=
  ⟨"ex.com/app", some "app.go", [], [],
    [⟨"Health", true, none, [], [], ["//ease:api path=/h"]⟩]⟩

def probing : Registry :=
  ((Registry.empty .default).loadAll [probe]).2

set_option maxRecDepth 8000 in
/-- Its plan imports nothing, although the handler is to be called. -/
theorem imports_probing : probing.ByCalls ∧ ∃ a p, ofRegistry probing = .ok a ∧
    a.plan probing = .ok p ∧
    ∃ e ∈ a.endpoints, e.handler.isMethod = false ∧ e.handler.package ∉ p.imports := by
  have hplanned : (planned? probing).map (fun ap =>
      (ap.1.endpoints.any (fun e => !e.handler.isMethod), ap.2.imports)) = some (true, []) := by cbv
  have hprobing : probing.ByCalls := Registry.byCalls_loadAll [probe]
  obtain ⟨⟨a, p⟩, hap, hview⟩ := Option.map_eq_some_iff.1 hplanned
  obtain ⟨ha, hp⟩ := planned?_eq_some hap
  obtain ⟨hany, himports⟩ := Prod.mk.inj hview
  obtain ⟨e, he, hfree⟩ := List.any_eq_true.1 hany
  have hnone : p.imports = [] := himports
  refine ⟨hprobing, a, p, ha, hp, e, he, by simpa using hfree, ?_⟩
  rw [hnone]
  exact List.not_mem_nil

end Api

end Wiring
