import Mathlib
import Wiring.Proofs.Resolver.Strict

/-!
# Searching on a copy

A search that changes a resolution in place has changed it when it fails: some targets may be made,
constructors of parameters are recorded, and the types on the stack are still under way.  `Halt` is
what such a search leaves, and `visitInPlace` is the search that leaves it.  It goes the same way as
`visit` and fails with the same error (`visitInPlace_eq`), but it stops in the middle: all that was
recorded is there (`visitInPlace_halt`), and all targets before the one that failed are made
(`searchInPlace_halt`).

`update` lets it work on a copy, which takes the place of the resolution when the search succeeds and
is thrown away when it fails.  So nothing of a halt is seen, and `update` does what `resolveInto`
says (`update_eq`).
-/

namespace Wiring

namespace Resolver

open Resolution

variable {r : Resolver} {t : TypeName} {q : Option String} {stack : List String}
  {done d : Resolution} {targets : List TypeName}

/-- What a search in place leaves when it fails: why it failed, what it recorded until then, and the
types that it was about to make, innermost first. -/
structure Halt where
  error : ResolveError
  done : Resolution
  stack : List String

variable {h : Halt}

mutual

/-- Adds what makes `t` to the resolution `done`, in place. -/
def visitInPlace (r : Resolver) (t : TypeName) (requiredBy : Option String) (stack : List String)
    (done : Resolution) : Except Halt Resolution :=
  if (done.producer? t.fqn).isSome then .ok done
  else if _hs : t.fqn ∈ stack then .error ⟨.circular (cycle t.fqn stack), done, stack⟩
  else
    match _hp : r.pick t requiredBy with
    | .error e => .error ⟨e, done, stack⟩
    | .ok f => do
      let (done, dependencies) ← r.visitParamsInPlace f f.params (t.fqn :: stack) done []
      return done.record t.fqn f dependencies
termination_by (r.unstacked stack, 0)
decreasing_by
  exact Prod.Lex.left _ _ (unstacked_cons_lt (fqn_mem_returned_of_pick _hp) _hs)

/-- Adds what makes the parameters `ps` of `f`, in place. -/
def visitParamsInPlace (r : Resolver) (f : Func) (ps : List Slot) (stack : List String)
    (done : Resolution) (dependencies : List String) : Except Halt (Resolution × List String) :=
  match ps with
  | [] => .ok (done, dependencies)
  | p :: rest =>
    match p.type? with
    | none => .error ⟨.missing p.shape.text (some f.fqn), done, stack⟩
    | some t => do
      let done ← r.visitInPlace t (some f.fqn) stack done
      let dependencies :=
        match done.producer? t.fqn with
        | some g => if g.fqn ∈ dependencies then dependencies else dependencies ++ [g.fqn]
        | none => dependencies
      r.visitParamsInPlace f rest stack done dependencies
termination_by (r.unstacked stack, ps.length + 1)

end

def searchInPlace (r : Resolver) (done : Resolution) (targets : List TypeName) :
    Except Halt Resolution :=
  targets.foldlM (fun done t => r.visitInPlace t none [] done) done

/-- A search on a copy of the resolution `d`, which takes the place of `d` if the search succeeds. -/
def update (r : Resolver) (d : Resolution) (targets : List TypeName) :
    Except ResolveError Unit × Resolution :=
  match r.searchInPlace d targets with
  | .ok copy => (.ok (), copy)
  | .error h => (.error h.error, d)

/-! ## The same search -/

/-- **In place, a visit goes the same way and fails with the same error.** -/
theorem visitInPlace_eq (r : Resolver) (t : TypeName) (q : Option String) (stack : List String)
    (done : Resolution) :
    (r.visitInPlace t q stack done).mapError Halt.error = r.visit t q stack done := by
  refine (visitInPlace.mutual_induct_unfolding r
    (fun t q stack done result => result.mapError Halt.error = r.visit t q stack done)
    (fun f ps stack done deps result =>
      result.mapError Halt.error = r.visitParams f ps stack done deps)
    ?made ?cycle ?unchosen ?chosen ?none ?untyped ?param).1 t q stack done
  case made =>
    intro t q stack done hm
    rw [visit, if_pos hm]
    rfl
  case cycle =>
    intro t q stack done hnew hs
    rw [visit, if_neg hnew, dif_pos hs]
    rfl
  case unchosen =>
    intro t q stack done hnew hs e he
    rw [visit_of_unchosen hnew hs he]
    rfl
  case chosen =>
    intro t q stack done hnew hs f hf ih
    rw [visit_of_chosen hnew hs hf, ← ih]
    cases r.visitParamsInPlace f f.params (t.fqn :: stack) done [] <;> rfl
  case none =>
    intro f stack done deps
    rw [visitParams]
    rfl
  case untyped =>
    intro f stack done deps p rest hp
    rw [visitParams, hp]
    rfl
  case param =>
    intro f stack done deps p rest t hp ih ihrest
    rw [visitParams, hp]
    dsimp only
    rw [← ih]
    cases r.visitInPlace t (some f.fqn) stack done with
    | error h => rfl
    | ok d => exact ihrest d

theorem visitInPlace_eq_ok_iff :
    r.visitInPlace t q stack done = .ok d ↔ r.visit t q stack done = .ok d := by
  rw [← visitInPlace_eq]
  cases r.visitInPlace t q stack done <;> simp [Except.mapError]

@[simp] theorem searchInPlace_nil : r.searchInPlace done [] = .ok done := rfl

theorem searchInPlace_cons (t : TypeName) (ts : List TypeName) : r.searchInPlace done (t :: ts)
    = (r.visitInPlace t none [] done).bind fun d => r.searchInPlace d ts := rfl

/-- **In place, a search goes the same way and fails with the same error.** -/
theorem searchInPlace_eq (r : Resolver) (done : Resolution) (targets : List TypeName) :
    (r.searchInPlace done targets).mapError Halt.error = r.resolveInto done targets := by
  induction targets generalizing done with
  | nil => rfl
  | cons t ts ih =>
    rw [searchInPlace_cons, resolveInto_cons, ← visitInPlace_eq]
    cases r.visitInPlace t none [] done with
    | error h => rfl
    | ok d => exact ih d

/-- **On a copy, a search leaves what the search says, and nothing else.** -/
theorem update_eq (r : Resolver) (d : Resolution) (targets : List TypeName) :
    r.update d targets = match r.resolveInto d targets with
      | .ok d' => (.ok (), d')
      | .error e => (.error e, d) := by
  rw [update, ← searchInPlace_eq]
  cases r.searchInPlace d targets <;> rfl

/-! ## What a halt leaves -/

/-- **A visit that fails leaves the constructors that it recorded**, each with all its parameters
made, and a stack that has only grown. -/
theorem visitInPlace_halt (hv : r.visitInPlace t q stack done = .error h) :
    Relation.ReflTransGen (r.Records fun _ => True) done h.done ∧ stack <:+ h.stack := by
  refine (visitInPlace.mutual_induct_unfolding r
    (fun t q stack done result => ∀ h, result = .error h →
      Relation.ReflTransGen (r.Records fun _ => True) done h.done ∧ stack <:+ h.stack)
    (fun f ps stack done deps result => ∀ h, result = .error h →
      Relation.ReflTransGen (r.Records fun _ => True) done h.done ∧ stack <:+ h.stack)
    ?made ?cycle ?unchosen ?chosen ?none ?untyped ?param).1 t q stack done h hv
  case made =>
    rintro t q stack done - h hv
    cases hv
  case cycle =>
    rintro t q stack done - - h hv
    cases hv
    exact ⟨.refl, List.suffix_refl _⟩
  case unchosen =>
    rintro t q stack done - - e - h hv
    cases hv
    exact ⟨.refl, List.suffix_refl _⟩
  case chosen =>
    intro t q stack done hnew hs f hf ih h hv
    cases hp : r.visitParamsInPlace f f.params (t.fqn :: stack) done [] with
    | ok v =>
      rw [hp] at hv
      cases hv
    | error h' =>
      rw [hp] at hv
      cases hv
      obtain ⟨hrun, hstack⟩ := ih h hp
      exact ⟨hrun, (List.suffix_cons _ _).trans hstack⟩
  case none =>
    intro f stack done deps h hv
    cases hv
  case untyped =>
    rintro f stack done deps p rest - h hv
    cases hv
    exact ⟨.refl, List.suffix_refl _⟩
  case param =>
    intro f stack done deps p rest t hp ih ihrest h hv
    cases hone : r.visitInPlace t (some f.fqn) stack done with
    | error h' =>
      rw [hone] at hv
      cases hv
      exact ih h hone
    | ok d =>
      -- the parameter was made, so the visit stopped at a later one
      rw [hone] at hv
      obtain ⟨hrun, hstack⟩ := ihrest d h hv
      have hmade := visit_ok (fun _ _ _ _ => trivial) trivial (visitInPlace_eq_ok_iff.1 hone)
      exact ⟨hmade.1.trans hrun, hstack⟩

/-- **A search that fails has made all targets before the one that it failed at.** -/
theorem searchInPlace_halt (hv : r.searchInPlace done targets = .error h) :
    Relation.ReflTransGen (r.Records fun _ => True) done h.done ∧
      ∃ made failed rest, targets = made ++ failed :: rest ∧
        ∀ t ∈ made, (h.done.producer? t.fqn).isSome := by
  induction targets generalizing done with
  | nil => cases hv
  | cons t ts ih =>
    rw [searchInPlace_cons] at hv
    cases hone : r.visitInPlace t none [] done with
    | error h' =>
      rw [hone] at hv
      cases hv
      exact ⟨(visitInPlace_halt hone).1, [], t, ts, rfl, by simp⟩
    | ok d =>
      rw [hone] at hv
      obtain ⟨hrun, made, failed, rest, rfl, hmade⟩ := ih hv
      obtain ⟨hfirst, hsome, -⟩ :=
        visit_ok (fun _ _ _ _ => trivial) trivial (visitInPlace_eq_ok_iff.1 hone)
      refine ⟨hfirst.trans hrun, t :: made, failed, rest, rfl, fun t' ht' => ?_⟩
      rcases List.mem_cons.1 ht' with rfl | ht'
      · obtain ⟨g, hg⟩ := Option.isSome_iff_exists.1 hsome
        rw [(Records.extends hrun).producers _ g hg]
        rfl
      · exact hmade t' ht'

end Resolver

end Wiring
