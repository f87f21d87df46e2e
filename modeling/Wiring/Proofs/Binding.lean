import Mathlib
import Wiring.Proofs.Endpoints
import Wiring.Proofs.Text

/-!
# What an endpoint takes from a request

Every parameter of a handler except the context of the request is bound to the request, and bound
once (`ofDirective_binds`).  A parameter stands under its place in the handler, so places that are
left out do not shift the others.  Where it is read from rests on its name and on the pieces of the
path between slashes: a piece binds a name only as a whole (`pathBinds_iff`).

The response passes over more results than the built-in error itself.  Only the type at the core of a
result is looked at, so a list of errors or a pointer to one counts as an error
(`response_lintDecl`).
-/

namespace Wiring

/-! ## Slots -/

/-- The built-in error is at the core of the slot, as in `error`, `*error`, `[]error` and
`map[string]error`. -/
def Slot.EndsInError (s : Slot) : Prop :=
  s.type? = some ⟨none, "error"⟩

/-- The slot is the built-in error itself, with nothing around it. -/
def Slot.IsError (s : Slot) : Prop :=
  s.EndsInError ∧ ∃ qualifier name, s.shape = .named qualifier name

/-- The type of a slot is unknown, or is not the context of a request. -/
def Slot.FromRequest (s : Slot) : Prop :=
  ∀ t, s.type? = some t → t.fqn ≠ "context.Context"

/-- No type of a package has the full name of the built-in error. -/
theorem TypeName.isError_iff {t : TypeName} : t.isError = true ↔ t = ⟨none, "error"⟩ := by
  obtain ⟨package, name⟩ := t
  cases package with
  | none => simp [isError, fqn]
  | some p =>
    have hne : p.path ++ "." ++ name ≠ "error" := by
      intro h
      have hbuiltin : isBuiltin (p.path ++ "." ++ name) = true := by
        rw [h]
        decide
      rw [isBuiltin_dotted] at hbuiltin
      cases hbuiltin
    simp [isError, fqn, hne]

namespace Slot

variable {s : Slot}

theorem isError_iff : s.isError = true ↔ s.EndsInError := by
  rw [isError, Option.any_eq_true, EndsInError]
  simp only [TypeName.isError_iff, exists_eq_right]

theorem isContext_eq_false_iff : s.isContext = false ↔ s.FromRequest := by
  rw [isContext, Option.any_eq_false, FromRequest]
  simp [TypeName.isContext]

end Slot

namespace Endpoint

variable {f : Func} {d : Directive} {e : Endpoint} {path name : String} {method : Method}
  {source : ParamSource} {ps : List Slot} {p : EndpointParam} {i : Nat}

/-! ## Sources -/

/-- The name is not empty, and a piece of the path between slashes is `:name` or the name in
braces. -/
def PathHolds (path name : String) : Prop :=
  name ≠ "" ∧ ∃ segment, Text.IsPiece '/' path.toList segment ∧
    (segment = ':' :: name.toList ∨ segment = '\x7b' :: name.toList ++ ['\x7d'])

inductive ReadFrom (path : String) (method : Method) (name : String) : ParamSource → Prop
  | path (held : PathHolds path name) : ReadFrom path method name .path
  | query (free : ¬ PathHolds path name) (isGet : method = .get) : ReadFrom path method name .query
  | body (free : ¬ PathHolds path name) (notGet : method ≠ .get) : ReadFrom path method name .body

theorem pathBinds_iff : pathBinds path name = true ↔ ∃ segment,
    Text.IsPiece '/' path.toList segment ∧
      (segment = ':' :: name.toList ∨ segment = '\x7b' :: name.toList ++ ['\x7d']) := by
  simp only [pathBinds, List.any_eq_true, Text.mem_splitOn_iff, segmentBinds, Bool.or_eq_true,
    beq_iff_eq]

theorem pathHolds_iff :
    (!name.toList.isEmpty && pathBinds path name) = true ↔ PathHolds path name := by
  rw [Bool.and_eq_true, pathBinds_iff, PathHolds]
  simp

theorem sourceOf_eq_iff : sourceOf path method name = source ↔ ReadFrom path method name source := by
  have hread : ReadFrom path method name (sourceOf path method name) := by
    rw [sourceOf]
    split
    · next h => exact .path (pathHolds_iff.1 h)
    · next h =>
      rw [pathHolds_iff] at h
      split
      · next hget => exact .query h hget
      · next hget => exact .body h hget
  constructor
  · rintro rfl
    exact hread
  · intro h
    generalize sourceOf path method name = found at hread
    cases h <;> cases hread <;> first | rfl | contradiction

/-! ## Parameters -/

theorem map_position_paramsOf : (paramsOf path method ps).map EndpointParam.position
    = (ps.zipIdx.filter fun (p, _) => !p.isContext).map Prod.snd := by
  rw [paramsOf, List.map_map]
  rfl

theorem pairwise_position_paramsOf :
    ((paramsOf path method ps).map EndpointParam.position).Pairwise (· < ·) := by
  rw [map_position_paramsOf, List.pairwise_map]
  exact (pairwise_zipIdx ps 0).filter _

/-- A parameter of the endpoint is one of the handler, under its name and its place. -/
theorem mem_paramsOf_iff : p ∈ paramsOf path method ps ↔ ∃ s, ps[p.position]? = some s ∧
    s.FromRequest ∧ p.name = s.name ∧ p.source = sourceOf path method s.name := by
  simp only [paramsOf, List.mem_map, List.mem_filter, Bool.not_eq_true', Prod.exists,
    List.mk_mem_zipIdx_iff_getElem?, Slot.isContext_eq_false_iff]
  constructor
  · rintro ⟨s, i, ⟨hs, hrequest⟩, rfl⟩
    exact ⟨s, hs, hrequest, rfl, rfl⟩
  · rintro ⟨s, hs, hrequest, hname, hsource⟩
    refine ⟨s, p.position, ⟨hs, hrequest⟩, ?_⟩
    rw [← hsource, ← hname]

theorem mem_map_position_iff : i ∈ (paramsOf path method ps).map EndpointParam.position ↔
    ∃ s, ps[i]? = some s ∧ s.FromRequest := by
  rw [List.mem_map]
  constructor
  · rintro ⟨p, hp, rfl⟩
    obtain ⟨s, hs, hrequest, -⟩ := mem_paramsOf_iff.1 hp
    exact ⟨s, hs, hrequest⟩
  · rintro ⟨s, hs, hrequest⟩
    exact ⟨⟨s.name, sourceOf path method s.name, i⟩, mem_paramsOf_iff.2 ⟨s, hs, hrequest, rfl, rfl⟩,
      rfl⟩

/-! ## Endpoints -/

theorem params_of_ofDirective (h : ofDirective f d = .ok e) :
    e.params = paramsOf e.path e.method f.params := by
  rw [ofDirective, bind_eq_ok_iff] at h
  obtain ⟨method, -, h⟩ := h
  obtain ⟨path, -, h⟩ := bind_eq_ok_iff.1 h
  cases h
  rfl

theorem response?_of_ofDirective (h : ofDirective f d = .ok e) :
    e.response? = f.returns.find? (!·.isError) := by
  rw [ofDirective, bind_eq_ok_iff] at h
  obtain ⟨method, -, h⟩ := h
  obtain ⟨path, -, h⟩ := bind_eq_ok_iff.1 h
  cases h
  exact List.find?_eq_bind_findIdx?_getElem?.symm

/-- The response is the first result without the built-in error at its core. -/
theorem response?_eq_some_iff (h : ofDirective f d = .ok e) {s : Slot} :
    e.response? = some s ↔ ∃ before after, f.returns = before ++ s :: after ∧
      (∀ b ∈ before, b.EndsInError) ∧ ¬ s.EndsInError := by
  rw [response?_of_ofDirective h, List.find?_eq_some_iff_append]
  simp only [Bool.not_eq_true', Bool.not_not, Slot.isError_iff, ← Bool.not_eq_true]
  constructor
  · rintro ⟨hs, before, after, hsplit, hbefore⟩
    exact ⟨before, after, hsplit, by simpa [Slot.isError_iff] using hbefore, hs⟩
  · rintro ⟨before, after, hsplit, hbefore, hs⟩
    exact ⟨hs, before, after, hsplit, by simpa [Slot.isError_iff] using hbefore⟩

theorem response?_eq_none_iff (h : ofDirective f d = .ok e) :
    e.response? = none ↔ ∀ s ∈ f.returns, s.EndsInError := by
  rw [response?_of_ofDirective h, List.find?_eq_none]
  simp only [Bool.not_eq_true', Bool.not_eq_false, Slot.isError_iff]

/-- What an endpoint takes from a request, and what it answers. -/
structure Binds (e : Endpoint) (f : Func) : Prop where
  /-- No parameter is bound twice. -/
  increasing : (e.params.map EndpointParam.position).Pairwise (· < ·)
  /-- The context alone is not bound. -/
  positions : ∀ i, i ∈ e.params.map EndpointParam.position ↔
    ∃ s, f.params[i]? = some s ∧ s.FromRequest
  slot : ∀ p ∈ e.params, ∃ s, e.slotOf? p = some s ∧ f.params[p.position]? = some s ∧
    s.name = p.name
  source : ∀ p ∈ e.params, ReadFrom e.path e.method p.name p.source
  response : ∀ s, e.response? = some s ↔ ∃ before after, f.returns = before ++ s :: after ∧
    (∀ b ∈ before, b.EndsInError) ∧ ¬ s.EndsInError
  noResponse : e.response? = none ↔ ∀ s ∈ f.returns, s.EndsInError
  /-- The first result that is not the built-in error itself is the response, unless the error is
  at its core. -/
  firstNonError : ∀ before s after, f.returns = before ++ s :: after → (∀ b ∈ before, b.IsError) →
    ¬ s.IsError → (e.response? = some s ↔ ¬ s.EndsInError)

/-- **Every parameter but the context is bound once**, at its own place and under its own name. -/
theorem ofDirective_binds (h : ofDirective f d = .ok e) : e.Reads f d ∧ e.Binds f := by
  have hreads : e.Reads f d := reads_of_ofDirective h
  have hparams : e.params = paramsOf e.path e.method f.params := params_of_ofDirective h
  refine ⟨hreads, ?_, ?_, ?_, ?_, fun s => response?_eq_some_iff h, response?_eq_none_iff h, ?_⟩
  · rw [hparams]
    exact pairwise_position_paramsOf
  · intro i
    rw [hparams]
    exact mem_map_position_iff
  · intro p hp
    rw [hparams] at hp
    obtain ⟨s, hs, -, hname, -⟩ := mem_paramsOf_iff.1 hp
    refine ⟨s, ?_, hs, hname.symm⟩
    rw [slotOf?, hreads.handler]
    exact hs
  · intro p hp
    rw [hparams] at hp
    obtain ⟨s, -, -, hname, hsource⟩ := mem_paramsOf_iff.1 hp
    rw [← sourceOf_eq_iff, hname]
    exact hsource.symm
  · intro before s after hsplit hbefore _
    rw [response?_eq_some_iff h]
    constructor
    · rintro ⟨-, -, -, -, hs⟩
      exact hs
    · intro hs
      exact ⟨before, after, hsplit, fun b hb => (hbefore b hb).1, hs⟩

/-- A handler that takes the context first and last, and between them a parameter for each form of a
segment, one whose name is but a part of a segment, one without name and one whose type is unknown. -/
def findDecl : FuncDecl :=
  ⟨"Find", true, none,
    [.ofName "ctx" (.named (some "context") "Context"), .ofName "id" (.named none "string"),
      .ofName "day" (.pointer (.named none "Day")), .ofName "page" (.named none "int"),
      .unnamed (.named none "bool"), .ofName "done" (.unsupported "chan int"),
      .ofName "more" (.named (some "context") "Context")],
    [.unnamed (.named none "error"), .unnamed (.pointer (.named none "Row")),
      .unnamed (.named none "error")],
    ["//ease:api path=/:id/\x7bday\x7d/:pages/:"]⟩

def finder : Func :=
  let scope : FileScope := .ofUnit "ease" ⟨"app", none, [⟨none, "context"⟩], [], [findDecl]⟩
  ⟨findDecl, scope, ⟨0, 0⟩, some (scope.signature id findDecl)⟩

def atDay : Directive :=
  ⟨"api", .ofList [("path", "/:id/\x7bday\x7d/:pages/:")]⟩

theorem binds_finder : ∃ e, ofDirective finder atDay = .ok e ∧ e.Reads finder atDay ∧ e.Binds finder ∧
    finder.Says apiDirective atDay ∧
    e.params = [⟨"id", .path, 1⟩, ⟨"day", .path, 2⟩, ⟨"page", .query, 3⟩, ⟨"", .query, 4⟩,
      ⟨"done", .query, 5⟩] ∧ e.response?.map (·.shape.text) = some "*Row" := by
  have hmap : (ofDirective finder atDay).map (fun e => (e.params, e.response?.map (·.shape.text))) =
      .ok ([⟨"id", .path, 1⟩, ⟨"day", .path, 2⟩, ⟨"page", .query, 3⟩, ⟨"", .query, 4⟩,
        ⟨"done", .query, 5⟩], some "*Row") := by
    decide
  cases he : ofDirective finder atDay with
  | error _ =>
    rw [he] at hmap
    cases hmap
  | ok e =>
    rw [he] at hmap
    obtain ⟨hparams, hresponse⟩ := Prod.mk.inj (Except.ok.inj hmap)
    obtain ⟨hreads, hbinds⟩ := ofDirective_binds he
    exact ⟨e, rfl, hreads, hbinds, Func.says_iff.2 (by cbv), hparams, hresponse⟩

/-- A handler whose only result is a list of errors. -/
def lintDecl : FuncDecl :=
  ⟨"Lint", true, none, [], [.unnamed (.slice (.named none "error"))], ["//ease:api path=/lint"]⟩

def linter : Func :=
  let scope : FileScope := .ofUnit "ease" ⟨"app", none, [], [], [lintDecl]⟩
  ⟨lintDecl, scope, ⟨0, 0⟩, some (scope.signature id lintDecl)⟩

/-- **A list of errors is no response**, although it is not the built-in error. -/
theorem response_lintDecl :
    (∀ s ∈ linter.returns, ¬ s.IsError) ∧ linter.returns.map (·.shape.text) = ["[]error"] ∧
    (ofDirective linter ⟨"api", .ofList [("path", "/lint")]⟩).map Endpoint.response? = .ok none := by
  refine ⟨?_, by decide, by decide⟩
  rintro s hs ⟨-, qualifier, name, hshape⟩
  obtain rfl := List.mem_singleton.1 hs
  cases hshape

end Endpoint

end Wiring
