import Mathlib
import Wiring.Proofs.Resolver.Search
import Wiring.Registry.Load

/-!
# The descent ends

`visit` calls itself, and what it knows of the calls that are not over is a list of names.  Here the
calls are written out: a `Frame` is a constructor with the parameters that it still waits for, a
`Descent` says where a search stands, frames and resolution included, and `step` does the next
thing.  `step` is no recursion, so nothing about it says that a search comes to an end.

What holds of the stack cannot be read off a result, since a search may fail in the middle; it is
kept by every single step (`InProgress.step`).  While a type is on the stack, others are put on top
of it and recorded when they are taken off.  Only the type on top is ever recorded, and no type is
on the stack twice, so none that is still there is made.

That a search ends is shown call by call (`visiting_gives`): from wherever a visit begins, the steps
come back with what `visit` says of that stack.  The induction is the one that `visit` brings along,
on how many returned types are not on the stack and how many parameters are left.
-/

namespace Wiring

namespace Resolver

open Resolution

/-! ## One step of a search -/

/-- A constructor under way, with the type that it is to make, the parameters that it still waits
for and the constructors of those that are made. -/
structure Frame where
  type : TypeName
  func : Func
  rest : List Slot
  dependencies : List String

/-- The types under way, innermost first. -/
def stackOf (frames : List Frame) : List String :=
  frames.map (·.type.fqn)

/-- The frame with one more parameter made, of type `t`. -/
def Frame.supplied (top : Frame) (t : TypeName) (done : Resolution) : Frame where
  type := top.type
  func := top.func
  rest := top.rest
  dependencies :=
    match done.producer? t.fqn with
    | some g =>
      if g.fqn ∈ top.dependencies then top.dependencies else top.dependencies ++ [g.fqn]
    | none => top.dependencies

inductive Descent where
  /-- The type `t` is asked for. -/
  | visiting (t : TypeName) (requiredBy : Option String) (frames : List Frame) (done : Resolution)
  /-- The constructor on top comes to its next parameter. -/
  | making (top : Frame) (frames : List Frame) (done : Resolution)
  /-- The type `t` is made, and whoever asked for it goes on. -/
  | made (t : TypeName) (frames : List Frame) (done : Resolution)
  | failed (e : ResolveError) (frames : List Frame) (done : Resolution)

namespace Descent

/-- The constructors under way, innermost first. -/
def frames : Descent → List Frame
  | visiting _ _ frames _ => frames
  | making top frames _ => top :: frames
  | made _ frames _ => frames
  | failed _ frames _ => frames

def done : Descent → Resolution
  | visiting _ _ _ done => done
  | making _ _ done => done
  | made _ _ done => done
  | failed _ _ done => done

def stack (m : Descent) : List String :=
  stackOf m.frames

def result? : Descent → Option (Except ResolveError Resolution)
  | made _ [] done => some (.ok done)
  | failed e _ _ => some (.error e)
  | _ => none

end Descent

/-- The next thing that a search does, nothing if it is over. -/
def step (r : Resolver) : Descent → Descent
  | .visiting t q frames done =>
    if (done.producer? t.fqn).isSome then .made t frames done
    else if t.fqn ∈ stackOf frames then
      .failed (.circular (cycle t.fqn (stackOf frames))) frames done
    else
      match r.pick t q with
      | .error e => .failed e frames done
      | .ok f => .making ⟨t, f, f.params, []⟩ frames done
  | .making ⟨t, f, [], deps⟩ frames done => .made t frames (done.record t.fqn f deps)
  | .making ⟨t, f, p :: rest, deps⟩ frames done =>
    match p.type? with
    | none => .failed (.missing p.shape.text (some f.fqn)) (⟨t, f, rest, deps⟩ :: frames) done
    | some u => .visiting u (some f.fqn) (⟨t, f, rest, deps⟩ :: frames) done
  | .made t (top :: frames) done => .making (top.supplied t done) frames done
  | .made t [] done => .made t [] done
  | .failed e frames done => .failed e frames done

variable {r : Resolver} {t : TypeName} {q : Option String} {n : String} {f : Func}
  {stack : List String} {done : Resolution} {m m' m'' : Descent}

/-! ## What stands on the stack -/

/-- What holds of the types under way and of what is recorded meanwhile. -/
structure InProgress (r : Resolver) (stack : List String) (done : Resolution) : Prop where
  nodup : stack.Nodup
  /-- Each is the type of a result of some function. -/
  returned : ∀ n ∈ stack, n ∈ r.returned
  /-- None is made. -/
  unmade : ∀ n ∈ stack, done.producer? n = none

theorem inProgress_nil : r.InProgress [] done :=
  ⟨List.nodup_nil, by simp, by simp⟩

/-- A type for which a constructor was found is put on the stack. -/
theorem InProgress.push (h : r.InProgress stack done) (hnew : done.producer? t.fqn = none)
    (hs : t.fqn ∉ stack) (hf : r.pick t q = .ok f) : r.InProgress (t.fqn :: stack) done where
  nodup := List.nodup_cons.2 ⟨hs, h.nodup⟩
  returned := List.forall_mem_cons.2 ⟨fqn_mem_returned_of_pick hf, h.returned⟩
  unmade := List.forall_mem_cons.2 ⟨hnew, h.unmade⟩

/-- The type on top is recorded and taken off the stack. -/
theorem InProgress.pop (h : r.InProgress (n :: stack) done) (f : Func) (deps : List String) :
    r.InProgress stack (done.record n f deps) where
  nodup := (List.nodup_cons.1 h.nodup).2
  returned := (List.forall_mem_cons.1 h.returned).2
  unmade := by
    intro k hk
    -- what is recorded is not on the stack below
    have hne : k ≠ n := fun he => (List.nodup_cons.1 h.nodup).1 (he ▸ hk)
    rw [producer?_record, if_neg hne]
    exact (List.forall_mem_cons.1 h.unmade).2 k hk

/-- **The stack is no longer than there are types that are returned.** -/
theorem InProgress.length_le (h : r.InProgress stack done) :
    stack.length ≤ r.returned.toFinset.card := by
  rw [← List.toFinset_card_of_nodup h.nodup]
  refine Finset.card_le_card fun n hn => ?_
  exact List.mem_toFinset.2 (h.returned n (List.mem_toFinset.1 hn))

/-- **A step keeps what holds of the stack.** -/
theorem InProgress.step (h : r.InProgress m.stack m.done) :
    r.InProgress (r.step m).stack (r.step m).done := by
  cases m with
  | visiting t q frames done =>
    rw [Resolver.step]
    split
    · exact h
    · next hnew =>
      split
      · exact h
      · next hs =>
        split
        · exact h
        · next f hf =>
          have hnone : done.producer? t.fqn = none := by simpa using hnew
          exact h.push hnone hs hf
  | making top frames done =>
    obtain ⟨t, f, rest, deps⟩ := top
    cases rest with
    | nil => exact h.pop f deps
    | cons p rest =>
      rw [Resolver.step]
      split <;> exact h
  | made t frames done =>
    cases frames with
    | nil => exact h
    | cons top frames => exact h
  | failed e frames done => exact h

/-- **At every moment of a search**, from wherever it begins. -/
theorem InProgress.run (h : r.InProgress m.stack m.done) (n : Nat) :
    r.InProgress (r.step^[n] m).stack (r.step^[n] m).done := by
  induction n with
  | zero => exact h
  | succ n ih =>
    rw [Function.iterate_succ_apply']
    exact ih.step

/-! ## Every visit comes back -/

/-- A search comes from one place to another. -/
def Leads (r : Resolver) (m m' : Descent) : Prop :=
  ∃ n, r.step^[n] m = m'

theorem Leads.refl (m : Descent) : r.Leads m m :=
  ⟨0, rfl⟩

theorem Leads.trans (h : r.Leads m m') (h' : r.Leads m' m'') : r.Leads m m'' := by
  obtain ⟨k, rfl⟩ := h
  obtain ⟨l, rfl⟩ := h'
  exact ⟨l + k, Function.iterate_add_apply r.step l k m⟩

theorem Leads.of_step (h : r.step m = m') : r.Leads m m' :=
  ⟨1, h⟩

/-- A search comes from `m` to what a result says: it fails with the error, or it comes `back` with
the value. -/
def Gives {α : Type} (r : Resolver) (m : Descent) (back : α → Descent) :
    Except ResolveError α → Prop
  | .ok v => r.Leads m (back v)
  | .error e => ∃ frames done, r.Leads m (.failed e frames done)

section

variable {α β : Type} {back : α → Descent} {back' : β → Descent} {x : Except ResolveError α}
  {g : α → Except ResolveError β}

theorem Leads.gives (h : r.Leads m m') (hx : r.Gives m' back x) : r.Gives m back x := by
  cases x with
  | ok v => exact h.trans hx
  | error e =>
    obtain ⟨frames, done, hfail⟩ := hx
    exact ⟨frames, done, h.trans hfail⟩

theorem gives_of_failed {e : ResolveError} {frames : List Frame}
    (h : r.step m = .failed e frames done) : r.Gives m back (.error e) :=
  ⟨frames, done, .of_step h⟩

/-- One search after the other. -/
theorem Gives.bind (hx : r.Gives m back x) (hg : ∀ v, r.Gives (back v) back' (g v)) :
    r.Gives m back' (x.bind g) := by
  cases x with
  | ok v => exact Leads.gives hx (hg v)
  | error e => exact hx

end

/-- **Every visit comes back** with what `visit` says, or fails with the error that it says, whoever
waits for it. -/
theorem visiting_gives (r : Resolver) (t : TypeName) (q : Option String) (frames : List Frame)
    (done : Resolution) : r.Gives (.visiting t q frames done) (.made t frames)
      (r.visit t q (stackOf frames) done) := by
  refine (visit.mutual_induct_unfolding r
    (fun t q stack done result => ∀ frames, stackOf frames = stack →
      r.Gives (.visiting t q frames done) (.made t frames) result)
    (fun f ps stack done deps result => ∀ t frames, stackOf (⟨t, f, ps, deps⟩ :: frames) = stack →
      r.Gives (.making ⟨t, f, ps, deps⟩ frames done)
        (fun v => .making ⟨t, f, [], v.2⟩ frames v.1) result)
    ?made ?cycle ?unchosen ?chosen ?none ?untyped ?param).1 t q (stackOf frames) done frames rfl
  case made =>
    rintro t q - done hmade frames -
    exact Leads.of_step (by rw [step, if_pos hmade])
  case cycle =>
    rintro t q - done hnew hs frames rfl
    exact gives_of_failed (by rw [step, if_neg hnew, if_pos hs])
  case unchosen =>
    rintro t q - done hnew hs e he frames rfl
    exact gives_of_failed (by rw [step, if_neg hnew, if_neg hs, he])
  case chosen =>
    rintro t q - done hnew hs f hf ih frames rfl
    have hpush : r.Leads (.visiting t q frames done) (.making ⟨t, f, f.params, []⟩ frames done) :=
      .of_step (by rw [step, if_neg hnew, if_neg hs, hf])
    -- once nothing is left to make, the constructor is recorded
    refine hpush.gives (Gives.bind (ih t frames rfl) fun v => ?_)
    exact Leads.of_step rfl
  case none =>
    rintro f - done deps t frames rfl
    exact Leads.refl _
  case untyped =>
    rintro f - done deps p rest hp t frames rfl
    exact gives_of_failed (by rw [step, hp])
  case param =>
    rintro f - done deps p rest u hp ih ihrest t frames rfl
    have hask : r.Leads (.making ⟨t, f, p :: rest, deps⟩ frames done)
        (.visiting u (some f.fqn) (⟨t, f, rest, deps⟩ :: frames) done) :=
      .of_step (by rw [step, hp])
    refine hask.gives (Gives.bind (ih (⟨t, f, rest, deps⟩ :: frames) rfl) fun d => ?_)
    have hback : r.Leads (.made u (⟨t, f, rest, deps⟩ :: frames) d)
        (.making (Frame.supplied ⟨t, f, rest, deps⟩ u d) frames d) := .of_step rfl
    exact hback.gives (ihrest d t frames rfl)

/-! ## The end of a search -/

/-- A search that is over stays so. -/
theorem step_of_result? {x : Except ResolveError Resolution} (h : m.result? = some x) :
    r.step m = m := by
  cases m with
  | visiting t q frames done => cases h
  | making top frames done => cases h
  | made t frames done =>
    cases frames with
    | nil => rfl
    | cons top frames => cases h
  | failed e frames done => rfl

theorem iterate_of_result? {x : Except ResolveError Resolution} {k l : Nat}
    (h : (r.step^[k] m).result? = some x) (hkl : k ≤ l) : (r.step^[l] m).result? = some x := by
  obtain ⟨i, rfl⟩ := Nat.exists_eq_add_of_le' hkl
  rw [Function.iterate_add_apply, Function.iterate_fixed (step_of_result? h), h]

theorem Gives.result? {x : Except ResolveError Resolution} (h : r.Gives m (.made t []) x) :
    ∃ k, (r.step^[k] m).result? = some x := by
  cases x with
  | ok d =>
    obtain ⟨k, hk⟩ := h
    exact ⟨k, by rw [hk]; rfl⟩
  | error e =>
    obtain ⟨frames, done, k, hk⟩ := h
    exact ⟨k, by rw [hk]; rfl⟩

/-- **A search ends**, whatever the functions, the policy, the type and what is made already.  Every
visit on the way comes back with what `visit` says of the stack that it finds, the search comes to
the result and does nothing more, and at every moment the types under way are different, returned by
some function and not made, so there are no more of them than types that are returned. -/
theorem visit_ends (r : Resolver) (t : TypeName) (q : Option String) (done : Resolution) :
    (∀ frames, r.Gives (.visiting t q frames done) (.made t frames)
      (r.visit t q (stackOf frames) done)) ∧
    (∃ k, ∀ l ≥ k,
      (r.step^[l] (.visiting t q [] done)).result? = some (r.visit t q [] done)) ∧
    ∀ k, r.InProgress (r.step^[k] (.visiting t q [] done)).stack
        (r.step^[k] (.visiting t q [] done)).done ∧
      (r.step^[k] (.visiting t q [] done)).stack.length ≤ r.returned.toFinset.card := by
  refine ⟨fun frames => visiting_gives r t q frames done, ?_, fun k => ?_⟩
  · obtain ⟨k, hk⟩ := (visiting_gives r t q [] done).result?
    exact ⟨k, fun l hl => iterate_of_result? hk hl⟩
  · have hstart : r.InProgress (Descent.visiting t q [] done).stack done := inProgress_nil
    have hmoment := hstart.run k
    exact ⟨hmoment, hmoment.length_le⟩

/-- Constructors that make `A` from `B`, `B` from `C` and `A`, and `C` from nothing. -/
def entangled : Resolver :=
  Registry.resolver ((Registry.empty .default).load ⟨"p", none, [], [],
    [⟨"NewA", true, none, [.unnamed (.named none "B")], [.unnamed (.named none "A")], []⟩,
      ⟨"NewB", true, none, [.unnamed (.named none "C"), .unnamed (.named none "A")],
        [.unnamed (.named none "B")], []⟩,
      ⟨"NewC", true, none, [], [.unnamed (.named none "C")], []⟩]⟩).2

/-- The search for `A`, with nothing made. -/
def searchEntangled : Descent :=
  .visiting (.lookup (some (.ofPath "p")) "A") none [] .empty

set_option maxRecDepth 4000 in
/-- All types that are returned are on the stack at once, and `C` is made while the other two are
there. -/
theorem visit_ends_entangled : entangled.returned.toFinset.card = 3 ∧
    (entangled.step^[5] searchEntangled).stack = ["p.C", "p.B", "p.A"] ∧
    (entangled.step^[8] searchEntangled).stack = ["p.B", "p.A"] ∧
    ((entangled.step^[8] searchEntangled).done.producer? "p.C").isSome ∧
    entangled.InProgress (entangled.step^[8] searchEntangled).stack
      (entangled.step^[8] searchEntangled).done ∧
    ∃ k, ∀ l ≥ k, (entangled.step^[l] searchEntangled).result?
      = some (.error (.circular ["p.A", "p.B", "p.A"])) := by
  have hreturned : entangled.returned = ["p.A", "p.B", "p.C"] := by cbv
  have hvisit : entangled.visit (.lookup (some (.ofPath "p")) "A") none [] .empty
      = .error (.circular ["p.A", "p.B", "p.A"]) := by cbv
  obtain ⟨-, hend, hmoment⟩ :=
    visit_ends entangled (.lookup (some (.ofPath "p")) "A") none .empty
  refine ⟨by rw [hreturned]; rfl, by cbv, by cbv, by cbv, (hmoment 8).1, ?_⟩
  rwa [hvisit] at hend

end Resolver

end Wiring
