import Wiring.Registry.Basic
import Wiring.Resolution

/-!
# Finding constructors

A type is made by a function that has it among its results, and the function needs its parameters to
be made before.  `Resolver.visit` goes down from a type to the parameters of its constructor and comes
back with every constructor placed after those it depends on.

The types on the way from the target to the type in hand stand on a stack, innermost first.  Meeting
one of them again is a cycle.  Every type on the stack is the result of some function, and none stands
there twice; so the descent ends, and `unstacked` counts what is left.
-/

namespace Wiring

/-- Why constructors were not found.  Types and functions are given by their full names. -/
inductive ResolveError where
  | missing (type : String) (requiredBy : Option String)
  /-- A chain of types, each needed to make the one before, that ends where it starts. -/
  | circular (chain : List String)
  | ambiguous (type : String) (candidates : List String)
  deriving DecidableEq, Repr

def ResolveError.message : ResolveError → String
  | missing type none => "could not find a valid constructor for " ++ type
  | missing type (some f) =>
    "could not find a valid constructor for " ++ type ++ " (required by " ++ f ++ ")"
  | circular chain => "circular dependency: " ++ String.intercalate " -> " chain
  | ambiguous type candidates =>
    "ambiguous constructor for " ++ type ++ ": " ++ String.intercalate ", " candidates

/-- The functions that may be constructors, in order, and the choice among several. -/
structure Resolver where
  funcs : List Func
  policy : ProducerPolicy
  deriving DecidableEq

namespace Resolver

def candidates (r : Resolver) (t : TypeName) : List Func :=
  r.funcs.filter (·.produces t)

/-- The constructor of a type that `requiredBy` needs. -/
def pick (r : Resolver) (t : TypeName) (requiredBy : Option String) : Except ResolveError Func :=
  match r.candidates t, r.policy with
  | [], _ => .error (.missing t.fqn requiredBy)
  | [f], _ => .ok f
  | f :: _ :: _, .firstRegistered => .ok f
  | fs, .rejectAmbiguous => .error (.ambiguous t.fqn (fs.map Func.fqn))

def producerFor (r : Resolver) (t : TypeName) : Except ResolveError Func :=
  r.pick t none

/-- The full names of the types that some function has among its results. -/
def returned (r : Resolver) : List String :=
  r.funcs.flatMap fun f => f.returns.filterMap fun s => s.type?.map TypeName.fqn

/-- How many of the returned types are not on the stack. -/
def unstacked (r : Resolver) (stack : List String) : Nat :=
  (r.returned.filter (· ∉ stack)).length

theorem mem_candidates_of_pick {r : Resolver} {t : TypeName} {q : Option String} {f : Func}
    (h : r.pick t q = .ok f) : f ∈ r.candidates t := by
  unfold pick at h
  split at h
  · simp at h
  · next hc _ => simp_all
  · next hc _ => simp_all
  · simp at h

theorem fqn_mem_returned_of_pick {r : Resolver} {t : TypeName} {q : Option String} {f : Func}
    (h : r.pick t q = .ok f) : t.fqn ∈ r.returned := by
  obtain ⟨hf, hp⟩ := List.mem_filter.1 (mem_candidates_of_pick h)
  simp only [Func.produces, Bool.and_eq_true, List.any_eq_true] at hp
  obtain ⟨-, s, hs, hu⟩ := hp
  refine List.mem_flatMap.2 ⟨f, hf, List.mem_filterMap.2 ⟨s, hs, ?_⟩⟩
  cases ht : s.type? with
  | none => simp [ht] at hu
  | some u => simpa [ht] using hu

theorem unstacked_cons_lt {r : Resolver} {n : String} {stack : List String} (hn : n ∈ r.returned)
    (hs : n ∉ stack) : r.unstacked (n :: stack) < r.unstacked stack := by
  unfold unstacked
  have h : r.returned.filter (· ∉ n :: stack)
      = (r.returned.filter (· ∉ stack)).filter (· ≠ n) := by
    rw [List.filter_filter]
    apply List.filter_congr
    intro x _
    by_cases hx : x = n <;> simp [hx, hs]
  rw [h]
  exact List.length_filter_lt_length_iff_exists.2
    ⟨n, List.mem_filter.2 ⟨hn, by simpa using hs⟩, by simp⟩

/-- The types from `n` to the top of the stack and back to `n`. -/
def cycle (n : String) (stack : List String) : List String :=
  n :: (stack.takeWhile (· ≠ n)).reverse ++ [n]

mutual

/-- Adds what makes `t`, which `requiredBy` needs, to the resolution `done`. -/
def visit (r : Resolver) (t : TypeName) (requiredBy : Option String) (stack : List String)
    (done : Resolution) : Except ResolveError Resolution :=
  if (done.producer? t.fqn).isSome then .ok done
  else if _hs : t.fqn ∈ stack then .error (.circular (cycle t.fqn stack))
  else
    match _hp : r.pick t requiredBy with
    | .error e => .error e
    | .ok f => do
      let (done, dependencies) ← r.visitParams f f.params (t.fqn :: stack) done []
      return done.record t.fqn f dependencies
termination_by (r.unstacked stack, 0)
decreasing_by
  exact Prod.Lex.left _ _ (unstacked_cons_lt (fqn_mem_returned_of_pick _hp) _hs)

/-- Adds what makes the parameters `ps` of `f`, and extends the list of its dependencies. -/
def visitParams (r : Resolver) (f : Func) (ps : List Slot) (stack : List String)
    (done : Resolution) (dependencies : List String) :
    Except ResolveError (Resolution × List String) :=
  match ps with
  | [] => .ok (done, dependencies)
  | p :: rest =>
    match p.type? with
    | none => .error (.missing p.shape.text (some f.fqn))
    | some t => do
      let done ← r.visit t (some f.fqn) stack done
      let dependencies :=
        match done.producer? t.fqn with
        | some g => if g.fqn ∈ dependencies then dependencies else dependencies ++ [g.fqn]
        | none => dependencies
      r.visitParams f rest stack done dependencies
termination_by (r.unstacked stack, ps.length + 1)

end

def resolveInto (r : Resolver) (done : Resolution) (targets : List TypeName) :
    Except ResolveError Resolution :=
  targets.foldlM (fun done t => r.visit t none [] done) done

def resolve (r : Resolver) (targets : List TypeName) : Except ResolveError Resolution :=
  r.resolveInto .empty targets

end Resolver

namespace Registry

/-- The constructors of a registry: its functions that are no methods, in order. -/
def resolver (r : Registry) : Resolver :=
  ⟨r.funcs.filter (!·.isMethod), r.settings.policy⟩

def resolve (r : Registry) (targets : List TypeName) : Except ResolveError Resolution :=
  r.resolver.resolve targets

end Registry

end Wiring
