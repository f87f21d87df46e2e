import Mathlib
import Wiring.Proofs.Resolver.WorkingCopy

/-!
# Sessions

A session keeps a registry, a resolution that calls extend or replace, and perhaps a resolver that was
pinned at some time; without one, every call takes the resolver of the registry as it is then.  A
call registers the types that it asks for before it looks for their constructors, so it changes the
registry even when it fails.

This is all that is left of a failure (`step_of_isFailure`).  So in any history failing calls can be
replaced by mere references to their targets, and neither what is kept nor any other answer changes
(`failures_invisible`).  That the search may have been far on its way when it failed does not matter,
since it worked on a copy.
-/

namespace Wiring

/-- A type as a caller refers to it: by the path of a package, if it has one, and its name. -/
structure TypeRef where
  package : Option String
  name : String
  deriving DecidableEq

inductive Request where
  | load (u : SourceUnit)
  | loadAll (us : List SourceUnit)
  | package (path : String)
  | declareType (package : String) (d : TypeDecl)
  /-- Refers to types, which registers them. -/
  | refer (ts : List TypeRef)
  /-- Pins the resolver of the registry as it is. -/
  | snapshot
  /-- Pins a resolver over functions of the registry, with the policy of the registry unless another
  one is given. -/
  | pin (funcs : List String) (policy : Option ProducerPolicy)
  | unpin
  /-- Replaces the resolution by one that makes the targets. -/
  | resolve (targets : List TypeRef)
  /-- Extends the resolution by what makes the targets. -/
  | resolveInto (targets : List TypeRef)
  | candidates (t : TypeRef)
  | producerFor (t : TypeRef)
  | registry
  | funcs
  | producer (type : String)
  | dependencies (func : String)
  | contains (func : String)
  | graph

namespace Request

def targets : Request → List TypeRef
  | resolve ts => ts
  | resolveInto ts => ts
  | _ => []

end Request

inductive Answer where
  | read (stats : LoadStats)
  | package (p : Package)
  | types (ts : List TypeName)
  | policy (p : ProducerPolicy)
  | done
  | resolved (result : Except ResolveError Resolution)
  /-- The error of the call, if it failed, and the resolution after it. -/
  | extended (result : Except ResolveError Unit) (state : Resolution)
  | candidates (fs : List Func)
  | chosen (result : Except ResolveError Func)
  | registry (packages : List Package) (types : List TypeEntry) (funcs : List Func)
  | funcs (fs : List Func)
  | producer (f : Option Func)
  | dependencies (names : List String)
  | contains (b : Bool)
  | graph (nodes : List String) (edges : List (String × String))

namespace Answer

/-- Whether this is the answer of a call for constructors that failed. -/
def isFailure : Answer → Bool
  | resolved (.error _) => true
  | extended (.error _) _ => true
  | _ => false

end Answer

/-- A registry, a running resolution and perhaps a pinned resolver. -/
structure Session where
  registry : Registry
  state : Resolution
  pinned? : Option Resolver

namespace Session

variable {s : Session} {q : Request} {qs qs' : List Request}

def resolver (s : Session) : Resolver :=
  s.pinned?.getD s.registry.resolver

/-- The types that are referred to, and the session in which they are registered. -/
def refer (s : Session) : List TypeRef → List TypeName × Session
  | [] => ([], s)
  | t :: ts =>
    let (name, r) := s.registry.typeIn t.package t.name
    let (names, s) := { s with registry := r }.refer ts
    (name :: names, s)

/-- What a session answers to a request, and the session after it. -/
def step (s : Session) : Request → Answer × Session
  | .load u =>
    let (stats, r) := s.registry.load u
    (.read stats, { s with registry := r })
  | .loadAll us =>
    let (stats, r) := s.registry.loadAll us
    (.read stats, { s with registry := r })
  | .package path =>
    let p := Package.ofPath path
    (.package p, { s with registry := s.registry.addPackage p })
  | .declareType package d =>
    let (t, r) := s.registry.declareType package d
    (.types [t], { s with registry := r })
  | .refer ts =>
    let (names, s) := s.refer ts
    (.types names, s)
  | .snapshot =>
    let r := s.registry.resolver
    (.policy r.policy, { s with pinned? := some r })
  | .pin funcs policy =>
    let r : Resolver :=
      ⟨funcs.filterMap s.registry.findFunc?, policy.getD s.registry.settings.policy⟩
    (.policy r.policy, { s with pinned? := some r })
  | .unpin => (.done, { s with pinned? := none })
  | .resolve ts =>
    let (targets, s) := s.refer ts
    match s.resolver.update .empty targets with
    | (.ok _, d) => (.resolved (.ok d), { s with state := d })
    | (.error e, _) => (.resolved (.error e), s)
  | .resolveInto ts =>
    let (targets, s) := s.refer ts
    let (result, d) := s.resolver.update s.state targets
    (.extended result d, { s with state := d })
  | .candidates t =>
    let (targets, s) := s.refer [t]
    (.candidates (targets.flatMap s.resolver.candidates), s)
  | .producerFor t =>
    let (name, r) := s.registry.typeIn t.package t.name
    let s := { s with registry := r }
    (.chosen (s.resolver.producerFor name), s)
  | .registry =>
    (.registry s.registry.packages.items s.registry.types.items s.registry.funcs, s)
  | .funcs => (.funcs s.state.funcs, s)
  | .producer type => (.producer (s.state.producer? type), s)
  | .dependencies func => (.dependencies (s.state.dependencies func), s)
  | .contains func => (.contains (s.state.contains func), s)
  | .graph => (.graph s.state.nodes s.state.edges, s)

/-- The answers to a history of requests, and the session after it. -/
def run (s : Session) : List Request → List Answer × Session
  | [] => ([], s)
  | q :: qs =>
    let (a, s) := s.step q
    let (as, s) := s.run qs
    (a :: as, s)

/-! ## A failure leaves the references -/

theorem step_resolve (s : Session) (ts : List TypeRef) : s.step (.resolve ts)
    = match (s.refer ts).2.resolver.resolve (s.refer ts).1 with
      | .ok d => (.resolved (.ok d), { (s.refer ts).2 with state := d })
      | .error e => (.resolved (.error e), (s.refer ts).2) := by
  simp only [step, Resolver.resolve, Resolver.update_eq]
  cases (s.refer ts).2.resolver.resolveInto .empty (s.refer ts).1 <;> rfl

theorem step_resolveInto (s : Session) (ts : List TypeRef) : s.step (.resolveInto ts)
    = match (s.refer ts).2.resolver.resolveInto (s.refer ts).2.state (s.refer ts).1 with
      | .ok d => (.extended (.ok ()) d, { (s.refer ts).2 with state := d })
      | .error e => (.extended (.error e) (s.refer ts).2.state, (s.refer ts).2) := by
  simp only [step, Resolver.update_eq]
  cases (s.refer ts).2.resolver.resolveInto (s.refer ts).2.state (s.refer ts).1 <;> rfl

/-- **All that a failing call leaves are the types that it refers to.** -/
theorem step_of_isFailure (hq : (s.step q).1.isFailure = true) :
    (s.step q).2 = (s.step (.refer q.targets)).2 := by
  cases q with
  | resolve ts =>
    rw [step_resolve] at hq ⊢
    cases hd : (s.refer ts).2.resolver.resolve (s.refer ts).1 with
    | ok d => rw [hd] at hq; cases hq
    | error e => rfl
  | resolveInto ts =>
    rw [step_resolveInto] at hq ⊢
    cases hd : (s.refer ts).2.resolver.resolveInto (s.refer ts).2.state (s.refer ts).1 with
    | ok d => rw [hd] at hq; cases hq
    | error e => rfl
  | _ => cases hq

/-- References change the registry only. -/
theorem refer_eq (s : Session) (ts : List TypeRef) :
    (s.refer ts).2 = { s with registry := (s.refer ts).2.registry } := by
  induction ts generalizing s with
  | nil => rfl
  | cons t ts ih => exact ih _

/-- **A failing call leaves the resolution and the pinned resolver as they are.** -/
theorem state_of_isFailure (hq : (s.step q).1.isFailure = true) :
    (s.step q).2.state = s.state ∧ (s.step q).2.pinned? = s.pinned? := by
  rw [step_of_isFailure hq]
  change (s.refer q.targets).2.state = s.state ∧ (s.refer q.targets).2.pinned? = s.pinned?
  rw [refer_eq]
  exact ⟨rfl, rfl⟩

/-! ## Histories -/

/-- Two histories from `s`, of which the second has references to the targets in the place of some
calls that fail in the first. -/
inductive Muted : Session → List Request → List Request → Prop where
  | nil {s : Session} : Muted s [] []
  | keep {s : Session} {qs qs' : List Request} (q : Request) :
      Muted (s.step q).2 qs qs' → Muted s (q :: qs) (q :: qs')
  | mute {s : Session} {q : Request} {qs qs' : List Request} :
      (s.step q).1.isFailure = true → Muted (s.step q).2 qs qs' →
        Muted s (q :: qs) (.refer q.targets :: qs')

/-- A history with references in the place of all calls that fail. -/
def withoutFailures (s : Session) : List Request → List Request
  | [] => []
  | q :: qs =>
    (if (s.step q).1.isFailure then .refer q.targets else q) :: (s.step q).2.withoutFailures qs

theorem muted_withoutFailures (s : Session) (qs : List Request) :
    s.Muted qs (s.withoutFailures qs) := by
  induction qs generalizing s with
  | nil => exact .nil
  | cons q qs ih =>
    rw [withoutFailures]
    split
    case isTrue hq => exact .mute hq (ih _)
    case isFalse => exact .keep q (ih _)

theorem run_cons (s : Session) (q : Request) (qs : List Request) : s.run (q :: qs)
    = ((s.step q).1 :: ((s.step q).2.run qs).1, ((s.step q).2.run qs).2) := rfl

/-- **Failures are invisible.**  When references to the targets take the place of calls that fail, the
history ends in the same session, and every request that is in both histories has the same answer. -/
theorem failures_invisible (h : s.Muted qs qs') : (s.run qs').2 = (s.run qs).2 ∧
    ∀ i : Nat, qs'[i]? = qs[i]? → (s.run qs').1[i]? = (s.run qs).1[i]? := by
  induction h with
  | nil => exact ⟨rfl, fun _ _ => rfl⟩
  | keep q _ ih =>
    obtain ⟨hend, hanswers⟩ := ih
    refine ⟨hend, fun i hi => ?_⟩
    cases i with
    | zero => rfl
    | succ i => exact hanswers i hi
  | @mute s q qs qs' hq _ ih =>
    obtain ⟨hend, hanswers⟩ := ih
    rw [run_cons, run_cons, ← step_of_isFailure hq]
    refine ⟨hend, fun i hi => ?_⟩
    cases i with
    | zero =>
      -- the call is not a reference, but if it were, it would have the same answer
      have hsame : .refer q.targets = q := Option.some.inj hi
      rw [hsame]
      rfl
    | succ i => exact hanswers i hi

/-- The type with a name in the package `p`. -/
def inP (name : String) : TypeRef :=
  ⟨some "p", name⟩

def supply : SourceUnit :=
  ⟨"p", none, [], [],
    [⟨"NewC", true, none, [.unnamed (.named none "B")], [.unnamed (.named none "C")], []⟩]⟩

/-- A session in which `A` is made, `B` can be made from `A`, and nothing makes `C`. -/
def waiting : Session :=
  ((⟨.empty .default, .empty, none⟩ : Session).run
    [.load ⟨"p", none, [], [],
      [⟨"NewA", true, none, [], [.unnamed (.named none "A")], []⟩,
        ⟨"NewB", true, none, [.unnamed (.named none "A")], [.unnamed (.named none "B")], []⟩]⟩,
    .resolveInto [inP "A"], .snapshot]).2

/-- Calls of which the first two fail, and the third as well since the resolver was pinned before
`supply` was loaded. -/
def tries : List Request :=
  [.resolveInto [inP "B", inP "C"], .resolve [inP "C"], .load supply, .resolveInto [inP "C"],
    .contains "p.NewB", .unpin, .resolveInto [inP "C"], .graph]

/-- The same without the first and the third failure. -/
def quiet : List Request :=
  [.refer [inP "B", inP "C"], .resolve [inP "C"], .load supply, .refer [inP "C"],
    .contains "p.NewB", .unpin, .resolveInto [inP "C"], .graph]

set_option maxRecDepth 8000 in
theorem failures_invisible_tries : waiting.Muted tries quiet ∧
    (match waiting.resolver.searchInPlace waiting.state (waiting.refer [inP "B", inP "C"]).1 with
      | .ok _ => none
      | .error h => some (h.error, h.done.nodes))
      = some (.missing "p.C" none, ["p.NewA", "p.NewB"]) ∧
    (waiting.run tries).1[4]? = some (.contains false) ∧
    (waiting.run tries).1[7]? = some (.graph ["p.NewA", "p.NewB", "p.NewC"]
      [("p.NewA", "p.NewB"), ("p.NewB", "p.NewC")]) ∧
    (waiting.run quiet).2 = (waiting.run tries).2 ∧
    ∀ i ∈ [1, 2, 4, 5, 6, 7], (waiting.run quiet).1[i]? = (waiting.run tries).1[i]? := by
  have hmuted : waiting.Muted tries quiet :=
    .mute (by cbv) <| .keep _ <| .keep _ <| .mute (by cbv) <| .keep _ <| .keep _ <| .keep _ <|
      .keep _ .nil
  have hkept : ∀ i ∈ [1, 2, 4, 5, 6, 7], quiet[i]? = tries[i]? := by simp [quiet, tries]
  obtain ⟨hend, hanswers⟩ := failures_invisible hmuted
  exact ⟨hmuted, by cbv, by cbv, by cbv, hend, fun i hi => hanswers i (hkept i hi)⟩

end Session

end Wiring
