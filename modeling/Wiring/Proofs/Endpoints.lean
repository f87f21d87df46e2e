import Mathlib
import Wiring.Proofs.Documentation
import Wiring.Proofs.Plan

/-!
# Which functions become endpoints

A function is marked if it is exported and its comments hold an `api` directive; the last such
directive counts.  `ofRegistry_exact` says what becomes of the marked functions.  Each is one
endpoint, in the order of the declarations, if the directive of each names a known method or none,
and a path.  Otherwise the first one whose directive does not do so is reported, and an unknown method
is reported before a missing path.

The parts of a directive are taken one by one (`methodOf_eq_ok_iff`, `pathOf_eq_ok_iff`), so an error
tells which of them failed (`ofDirective_eq_error_iff`).  Going through the functions stops at the
first error, and the functions come in the order of their places.
-/

namespace Wiring

/-! ## Directives -/

def Method.words : List String :=
  ["OPTIONS", "GET", "POST", "PATCH", "PUT", "DELETE"]

theorem Method.word_injective {m n : Method} (h : m.word = n.word) : m = n := by
  cases m <;> cases n <;> first | rfl | exact absurd h (by decide)

theorem Method.exists_word_eq_iff {w : String} : (∃ m : Method, m.word = w) ↔ w ∈ words := by
  constructor
  · rintro ⟨m, rfl⟩
    cases m <;> decide
  · intro h
    simp only [words, List.mem_cons, List.not_mem_nil, or_false] at h
    rcases h with rfl | rfl | rfl | rfl | rfl | rfl
    exacts [⟨.options, rfl⟩, ⟨.get, rfl⟩, ⟨.post, rfl⟩, ⟨.patch, rfl⟩, ⟨.put, rfl⟩, ⟨.delete, rfl⟩]

theorem Method.ofWord?_eq_some_iff {w : String} {m : Method} :
    ofWord? w = some m ↔ m.word = w := by
  constructor
  · intro h
    simpa using List.find?_some h
  · rintro rfl
    cases m <;> rfl

theorem Method.ofWord?_eq_none_iff {w : String} : ofWord? w = none ↔ w ∉ words := by
  rw [← exists_word_eq_iff, not_exists, Option.eq_none_iff_forall_not_mem]
  simp only [Option.mem_def, ofWord?_eq_some_iff]

namespace Directive

variable {d : Directive}

/-- A directive asks for no method, or for one that there is. -/
def MethodKnown (d : Directive) : Prop :=
  ∀ word, d.param "method" = some word → word ∈ Method.words

def PathGiven (d : Directive) : Prop :=
  ∃ path, d.param "path" = some path ∧ path ≠ ""

end Directive

namespace Endpoint

variable {f : Func} {d : Directive} {e : EndpointError} {m : Method} {path : String}
  {endpoint : Endpoint}

theorem methodOf_eq_ok_iff :
    methodOf f d = .ok m ↔ m.word = (d.param "method").getD "GET" := by
  rw [methodOf]
  cases d.param "method" with
  | none =>
    show Except.ok Method.get = Except.ok m ↔ m.word = Method.get.word
    rw [Except.ok.injEq]
    exact ⟨fun h => h ▸ rfl, fun h => (Method.word_injective h).symm⟩
  | some word =>
    rw [Option.getD_some, ← Method.ofWord?_eq_some_iff]
    dsimp only
    cases Method.ofWord? word <;> simp

/-- A method is refused if it is none of the known ones. -/
theorem methodOf_eq_error_iff : methodOf f d = .error e ↔
    ∃ word, d.param "method" = some word ∧ word ∉ Method.words ∧ e = .badMethod f.fqn word := by
  rw [methodOf]
  cases d.param "method" with
  | none => simp
  | some word =>
    simp only [Option.some.injEq, exists_eq_left', ← Method.ofWord?_eq_none_iff]
    cases Method.ofWord? word <;> simp [eq_comm]

theorem exists_methodOf_eq_ok_iff : (∃ m, methodOf f d = .ok m) ↔ d.MethodKnown := by
  simp only [methodOf_eq_ok_iff, Method.exists_word_eq_iff, Directive.MethodKnown]
  cases d.param "method" with
  | none => simp [Method.words]
  | some word => simp

theorem pathOf_eq_ok_iff : pathOf f d = .ok path ↔ d.param "path" = some path ∧ path ≠ "" := by
  rw [pathOf]
  cases d.param "path" with
  | none => simp
  | some p =>
    by_cases hp : p = ""
    · subst hp
      simp
    · have hne : p.toList.isEmpty = false := by simpa using hp
      simp only [hne, Bool.false_eq_true, if_false, Except.ok.injEq, Option.some.injEq]
      exact ⟨fun h => ⟨h, h ▸ hp⟩, And.left⟩

theorem exists_pathOf_eq_ok_iff : (∃ path, pathOf f d = .ok path) ↔ d.PathGiven := by
  simp only [pathOf_eq_ok_iff, Directive.PathGiven]

theorem pathOf_eq_error_iff : pathOf f d = .error e ↔ ¬ d.PathGiven ∧ e = .noPath f.fqn := by
  have hcases : (∃ path, pathOf f d = .ok path) ∨ pathOf f d = .error (.noPath f.fqn) := by
    rw [pathOf]
    split
    · split
      · exact .inr rfl
      · exact .inl ⟨_, rfl⟩
    · exact .inr rfl
  rw [← exists_pathOf_eq_ok_iff (f := f)]
  rcases hcases with ⟨path, hpath⟩ | herror
  · simp [hpath]
  · simp [herror, eq_comm]

/-- An endpoint as a directive asks for it. -/
structure Reads (endpoint : Endpoint) (f : Func) (d : Directive) : Prop where
  handler : endpoint.handler = f
  method : endpoint.method.word = (d.param "method").getD "GET"
  path : d.param "path" = some endpoint.path

theorem reads_of_ofDirective (h : ofDirective f d = .ok endpoint) : endpoint.Reads f d := by
  rw [ofDirective, bind_eq_ok_iff] at h
  obtain ⟨method, hmethod, h⟩ := h
  obtain ⟨path, hpath, he⟩ := bind_eq_ok_iff.1 h
  cases he
  exact ⟨rfl, methodOf_eq_ok_iff.1 hmethod, (pathOf_eq_ok_iff.1 hpath).1⟩

theorem exists_ofDirective_eq_ok_iff :
    (∃ endpoint, ofDirective f d = .ok endpoint) ↔ d.MethodKnown ∧ d.PathGiven := by
  rw [← exists_methodOf_eq_ok_iff (f := f), ← exists_pathOf_eq_ok_iff (f := f)]
  simp only [ofDirective, bind_eq_ok_iff]
  constructor
  · rintro ⟨_, method, hmethod, path, hpath, -⟩
    exact ⟨⟨method, hmethod⟩, path, hpath⟩
  · rintro ⟨⟨method, hmethod⟩, path, hpath⟩
    exact ⟨_, method, hmethod, path, hpath, rfl⟩

/-- What is wrong with the directive of a function.  An unknown method is told before a missing
path. -/
inductive Offends (f : Func) (d : Directive) : EndpointError → Prop
  | badMethod {word : String} (asked : d.param "method" = some word) (bad : word ∉ Method.words) :
      Offends f d (.badMethod f.fqn word)
  | noPath (known : d.MethodKnown) (missing : ¬ d.PathGiven) : Offends f d (.noPath f.fqn)

/-- **An error tells what is wrong with a directive.** -/
theorem ofDirective_eq_error_iff : ofDirective f d = .error e ↔ Offends f d e := by
  simp only [ofDirective, bind_eq_error_iff, methodOf_eq_error_iff, pathOf_eq_error_iff]
  constructor
  · rintro (⟨word, hword, hbad, rfl⟩ | ⟨m, hm, ⟨hmissing, rfl⟩ | ⟨path, -, h⟩⟩)
    · exact .badMethod hword hbad
    · exact .noPath (exists_methodOf_eq_ok_iff.1 ⟨m, hm⟩) hmissing
    · cases h
  · intro h
    cases h with
    | @badMethod word hword hbad => exact .inl ⟨word, hword, hbad, rfl⟩
    | noPath hknown hmissing =>
      obtain ⟨m, hm⟩ := exists_methodOf_eq_ok_iff.2 hknown
      exact .inr ⟨m, hm, .inl ⟨hmissing, rfl⟩⟩

end Endpoint

/-! ## Marked functions -/

/-- What the last line in the comments of a function that is a directive of this name says. -/
def Func.Says (f : Func) (name : String) (d : Directive) : Prop :=
  Documentation.LastNamed f.scope.marker.toList (Documentation.linesOf f.decl.doc) name d

theorem Func.says_iff {f : Func} {name : String} {d : Directive} :
    f.Says name d ↔ f.documentation.directives.get? name = some d :=
  Documentation.get?_directivesOf_eq_some_iff.symm

theorem Func.Says.unique {f : Func} {name : String} {d d' : Directive} (h : f.Says name d)
    (h' : f.Says name d') : d = d' := by
  rw [Func.says_iff] at h h'
  exact Option.some.inj (h.symm.trans h')

namespace Api

open Endpoint (Offends)

variable {r : Registry} {a : Api} {fs : List Func} {e : EndpointError}

/-- The exported functions with an `api` directive, in the order of their declarations. -/
def marked (r : Registry) : List Func :=
  r.funcs.filter fun f => f.isExported && (f.documentation.directives.get? apiDirective).isSome

theorem mem_marked_iff {f : Func} :
    f ∈ marked r ↔ f ∈ r.funcs ∧ f.isExported = true ∧ ∃ d, f.Says apiDirective d := by
  simp only [marked, List.mem_filter, Bool.and_eq_true, Option.isSome_iff_exists, Func.says_iff]

theorem map_handlers (r : Registry) : (handlers r.funcs).map Prod.fst = marked r := by
  rw [marked]
  induction r.funcs with
  | nil => rfl
  | cons f fs ih =>
    rw [handlers] at ih ⊢
    cases hf : f.isExported <;> cases hd : f.documentation.directives.get? apiDirective <;>
      simp [hf, hd, ih]

theorem says_of_mem_handlers {h : Func × Directive} (hh : h ∈ handlers fs) :
    h.1.Says apiDirective h.2 := by
  obtain ⟨f, -, hf⟩ := List.mem_filterMap.1 hh
  obtain ⟨d, hd, rfl⟩ := Option.map_eq_some_iff.1 hf
  exact Func.says_iff.2 hd

def Admits (f : Func) : Prop :=
  ∀ d, f.Says apiDirective d → d.MethodKnown ∧ d.PathGiven

theorem exists_endpoint_iff {h : Func × Directive} (hh : h ∈ handlers fs) :
    (∃ endpoint, Endpoint.ofDirective h.1 h.2 = .ok endpoint) ↔ Admits h.1 := by
  rw [Endpoint.exists_ofDirective_eq_ok_iff]
  have hsaid := says_of_mem_handlers hh
  constructor
  · intro hgood d hd
    rwa [hd.unique hsaid]
  · intro hadmits
    exact hadmits h.2 hsaid

theorem forall_handlers_iff {l : List (Func × Directive)} (hl : l ⊆ handlers fs) :
    (∀ h ∈ l, ∃ endpoint, Endpoint.ofDirective h.1 h.2 = .ok endpoint) ↔
      ∀ f ∈ l.map Prod.fst, Admits f := by
  rw [List.forall_mem_map]
  apply forall₂_congr
  intro h hh
  exact exists_endpoint_iff (hl hh)

/-! ## Success -/

theorem exists_ofRegistry_eq_ok_iff :
    (∃ a, ofRegistry r = .ok a) ↔ ∀ f ∈ marked r, Admits f := by
  rw [← map_handlers, ← forall_handlers_iff (List.Subset.refl _), ← exists_mapM_eq_ok_iff]
  simp only [ofRegistry, bind_eq_ok_iff]
  constructor
  · rintro ⟨a, endpoints, h, -⟩
    exact ⟨endpoints, h⟩
  · rintro ⟨endpoints, h⟩
    exact ⟨⟨endpoints⟩, endpoints, h, rfl⟩

/-- **Every marked function is one endpoint**, as its directive asks for it. -/
theorem forall₂_endpoints (ha : ofRegistry r = .ok a) :
    List.Forall₂ (fun f e => ∃ d, f.Says apiDirective d ∧ Endpoint.Reads e f d) (marked r)
      a.endpoints := by
  have hboth := (List.forall₂_and_left _ _).2
    ⟨fun h (hh : h ∈ handlers r.funcs) => says_of_mem_handlers hh, ofRegistry_eq_ok_iff.1 ha⟩
  rw [← map_handlers, List.forall₂_map_left_iff]
  apply hboth.imp
  rintro h e ⟨hsaid, he⟩
  exact ⟨h.2, hsaid, Endpoint.reads_of_ofDirective he⟩

/-! ## Failure -/

/-- The first marked function whose directive makes no endpoint, and what is wrong with it. -/
def FirstOffence (r : Registry) (e : EndpointError) : Prop :=
  ∃ before f after d, marked r = before ++ f :: after ∧ (∀ g ∈ before, Admits g) ∧
    f.Says apiDirective d ∧ Offends f d e

/-- **The error is that of the first offender.** -/
theorem ofRegistry_eq_error_iff : ofRegistry r = .error e ↔ FirstOffence r e := by
  have hmapM : ofRegistry r = .error e ↔
      (handlers r.funcs).mapM (fun h => Endpoint.ofDirective h.1 h.2) = .error e := by
    simp only [ofRegistry, bind_eq_error_iff]
    constructor
    · rintro (h | ⟨endpoints, -, h⟩)
      · exact h
      · cases h
    · exact .inl
  rw [hmapM, mapM_eq_error_iff, FirstOffence, ← map_handlers]
  constructor
  · rintro ⟨before, ⟨f, d⟩, after, hsplit, hbefore, hf⟩
    have hsub : before ⊆ handlers r.funcs := by
      rw [hsplit]
      exact List.subset_append_left _ _
    have hmem : (f, d) ∈ handlers r.funcs := by
      rw [hsplit]
      simp
    exact ⟨before.map Prod.fst, f, after.map Prod.fst, d, by simp [hsplit],
      (forall_handlers_iff hsub).1 hbefore, says_of_mem_handlers hmem,
      Endpoint.ofDirective_eq_error_iff.1 hf⟩
  · rintro ⟨before, f, after, d, hsplit, hbefore, hd, hf⟩
    obtain ⟨before', rest, hhandlers, rfl, hrest⟩ := List.map_eq_append_iff.1 hsplit
    obtain ⟨⟨f', d'⟩, after', rfl, rfl, rfl⟩ := List.map_eq_cons_iff.1 hrest
    have hsub : before' ⊆ handlers r.funcs := by
      rw [hhandlers]
      exact List.subset_append_left _ _
    have hmem : (f', d') ∈ handlers r.funcs := by
      rw [hhandlers]
      simp
    obtain rfl : d = d' := hd.unique (says_of_mem_handlers hmem)
    exact ⟨before', (f', d), after', hhandlers, (forall_handlers_iff hsub).2 hbefore,
      Endpoint.ofDirective_eq_error_iff.2 hf⟩

/-! ## Services -/

theorem map_handler_endpoints (ha : ofRegistry r = .ok a) :
    a.endpoints.map Endpoint.handler = marked r := by
  have hall : List.Forall₂ (fun f e => f = Endpoint.handler e) (marked r) a.endpoints := by
    apply (forall₂_endpoints ha).imp
    rintro f e ⟨d, -, he⟩
    exact he.handler.symm
  rw [← List.forall₂_map_right_iff, List.forall₂_eq_eq_eq] at hall
  exact hall.symm

/-- **The services are the types of the receivers**, each at its first occurrence. -/
theorem services_eq (hr : r.ByCalls) (ha : ofRegistry r = .ok a) :
    a.services = ((marked r).filterMap fun f => f.receiver.bind (·.type?)).eraseDups := by
  rw [services, distinctTypes, KeyedSet.items_ofList (service_eq_of_fqn_eq hr ha),
    ← map_handler_endpoints ha, List.filterMap_map]
  rfl

/-! ## All together -/

structure Exact (r : Registry) : Prop where
  mem : ∀ f, f ∈ marked r ↔
    f ∈ r.funcs ∧ f.isExported = true ∧ ∃ d, f.Says apiDirective d
  /-- They stand in the order of their declarations. -/
  order : (marked r).Pairwise fun f g => f.ordinal.Before g.ordinal
  succeeds : (∃ a, ofRegistry r = .ok a) ↔ ∀ f ∈ marked r, Admits f
  endpoints : ∀ a, ofRegistry r = .ok a →
    List.Forall₂ (fun f e => ∃ d, f.Says apiDirective d ∧ Endpoint.Reads e f d) (marked r)
      a.endpoints
  fails : ∀ e, ofRegistry r = .error e ↔ FirstOffence r e
  services : ∀ a, ofRegistry r = .ok a →
    a.services = ((marked r).filterMap fun f => f.receiver.bind (·.type?)).eraseDups

/-- **Every marked function is one endpoint, or the first offender is reported.** -/
theorem ofRegistry_exact (hr : r.ByCalls) : Exact r where
  mem _ := mem_marked_iff
  order := hr.atRest.reachable.wellFormed.pairwise_funcs.filter _
  succeeds := exists_ofRegistry_eq_ok_iff
  endpoints _ ha := forall₂_endpoints ha
  fails _ := ofRegistry_eq_error_iff
  services _ ha := services_eq hr ha

/-- Two files that are loaded one after the other.  The first has a handler with two directives, of
which the first is bad, and a function that is not exported and has a bad one. -/
def office : List SourceUnit :=
  [⟨"app", none, [], [],
      [⟨"Run", true, some (.ofName "s" (.pointer (.named none "S"))), [], [],
          ["//ease:api method=TRACE", "// ease:api path=/run"]⟩,
        ⟨"hide", false, none, [], [], ["//ease:api method=TRACE"]⟩,
        ⟨"Set", true, some (.ofName "s" (.named none "S")), [], [],
          ["/* ease:api method=PUT path=/s */"]⟩]⟩,
    ⟨"db", none, [], [],
      [⟨"Ping", true, none, [], [], ["//ease:api path=/ping"]⟩,
        ⟨"Plain", true, none, [], [], ["// Plain has none."]⟩,
        ⟨"Close", true, some (.ofName "c" (.named none "C")), [], [],
          ["//ease:api method=DELETE path=/c"]⟩]⟩]

/-- A file with one good handler and two bad ones, of which the first has no path either. -/
def fault : SourceUnit :=
  ⟨"app", none, [], [],
    [⟨"Get", true, none, [], [], ["//ease:api path=/"]⟩,
      ⟨"Trace", true, none, [], [], ["//ease:api method=TRACE"]⟩,
      ⟨"Post", true, none, [], [], ["//ease:api method=POST"]⟩]⟩

def staffed : Registry :=
  ((Registry.empty .default).loadEach office).2

def faulty : Registry :=
  ((Registry.empty .default).loadAll [fault]).2

set_option maxRecDepth 8000 in
theorem exact_office : staffed.ByCalls ∧ Exact staffed ∧
    (ofRegistry staffed).toOption.map (fun a =>
      (a.endpoints.map Endpoint.route, a.services.map TypeName.fqn)) =
        some (["GET /run", "PUT /s", "GET /ping", "DELETE /c"], ["app.S", "db.C"]) ∧
    faulty.ByCalls ∧ Exact faulty ∧ FirstOffence faulty (.badMethod "app.Trace" "TRACE") := by
  have hempty : (Registry.empty .default).ByCalls := @Registry.ByCalls.create .default _ (by cbv)
  have hstaffed : staffed.ByCalls := hempty.call (.load .each)
  have hfaulty : faulty.ByCalls := Registry.byCalls_loadAll [fault]
  have hexact := ofRegistry_exact hfaulty
  have herror : (ofRegistry faulty).map (fun _ => ()) = .error (.badMethod "app.Trace" "TRACE") := by
    cbv
  refine ⟨hstaffed, ofRegistry_exact hstaffed, by cbv, hfaulty, hexact, (hexact.fails _).1 ?_⟩
  cases h : ofRegistry faulty with
  | ok a =>
    rw [h] at herror
    cases herror
  | error e =>
    rw [h] at herror
    rw [Except.error.inj herror]

end Api

end Wiring
