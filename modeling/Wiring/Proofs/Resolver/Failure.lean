import Mathlib
import Wiring.Proofs.Resolver.Search
import Wiring.Registry.Load

/-!
# Errors of a search are truthful

`Truthful` says what each error claims about the graph of types: that a chain of types is a cycle,
that a type has several candidates under the strict policy, that a type or a shape has no
constructor and who asked for it.  The proof goes down with the search and carries two facts along:
the stack is a way from each type to one that its constructor asks for (`Trail`), and whoever asks
is a constructor of a type that is reached, or it is the caller and the type is a target (`Asked`).
The state found at the beginning plays no part.
-/

namespace Wiring

namespace Resolver

variable {r : Resolver} {targets : List TypeName} {t : TypeName} {f : Func} {stack : List String}
  {q : Option String}

def NeedsByName (r : Resolver) (a b : String) : Prop :=
  ∃ t u, t.fqn = a ∧ u.fqn = b ∧ r.Needs t u

/-- What an error says is so. -/
def Truthful (r : Resolver) (targets : List TypeName) : ResolveError → Prop
  | .circular chain =>
    2 ≤ chain.length ∧ chain.head? = chain.getLast? ∧ chain.dropLast.Nodup ∧
      (∃ t, r.Reaches targets t ∧ chain.head? = some t.fqn) ∧ chain.IsChain r.NeedsByName
  | .ambiguous type names =>
    r.policy = .rejectAmbiguous ∧ 2 ≤ names.length ∧
      ∃ t, r.Reaches targets t ∧ t.fqn = type ∧ names = (r.candidates t).map Func.fqn
  | .missing type (some func) =>
    ∃ t f, r.Reaches targets t ∧ r.producerFor t = .ok f ∧ f.fqn = func ∧
      ((∃ p ∈ f.params, ∃ u, p.type? = some u ∧ u.fqn = type ∧ r.candidates u = []) ∨
        ∃ p ∈ f.params, p.type? = none ∧ p.shape.text = type)
  | .missing type none => ∃ t ∈ targets, t.fqn = type ∧ r.candidates t = []

/-- The types on the stack, innermost first: none stands there twice, and each is asked for by the
constructor of the next. -/
structure Trail (r : Resolver) (stack : List String) : Prop where
  nodup : stack.Nodup
  links : stack.IsChain fun b a => r.NeedsByName a b

/-- Who asks for `t` does so rightly. -/
def Asked (r : Resolver) (targets : List TypeName) (t : TypeName) : Option String → Prop
  | none => t ∈ targets
  | some func => ∃ s f, r.Reaches targets s ∧ r.producerFor s = .ok f ∧ f.fqn = func ∧
      ∃ p ∈ f.params, p.type? = some t

theorem Asked.reaches (h : r.Asked targets t q) : r.Reaches targets t := by
  cases q with
  | none => exact reaches_of_mem h
  | some func =>
    obtain ⟨s, f, hs, hf, -, p, hp, ht⟩ := h
    exact hs.needs ⟨f, hf, p, hp, ht⟩

theorem trail_cons {n : String} (h : r.Trail stack) (hn : n ∉ stack)
    (hlink : ∀ m ∈ stack.head?, r.NeedsByName m n) : r.Trail (n :: stack) :=
  ⟨List.nodup_cons.2 ⟨hn, h.nodup⟩, List.isChain_cons.2 ⟨hlink, h.links⟩⟩

/-! ## Cycles -/

/-- The stack down to `n`. -/
theorem takeWhile_prefix_of_mem {n : String} (h : n ∈ stack) :
    stack.takeWhile (· ≠ n) ++ [n] <+: stack := by
  induction stack with
  | nil => simp at h
  | cons m rest ih =>
    by_cases hm : m = n
    · subst hm
      simp
    · have hrest : n ∈ rest := (List.mem_cons.1 h).resolve_left (Ne.symm hm)
      rw [List.takeWhile_cons_of_pos (by simpa using hm), List.cons_append]
      exact List.cons_prefix_cons.2 ⟨rfl, ih hrest⟩

theorem nodup_cons_takeWhile {n : String} (h : stack.Nodup) :
    (n :: (stack.takeWhile (· ≠ n)).reverse).Nodup := by
  have hpart := h.sublist (List.takeWhile_sublist (· ≠ n))
  refine List.nodup_cons.2 ⟨fun hn => ?_, List.nodup_reverse.2 hpart⟩
  have := List.mem_takeWhile_imp (List.mem_reverse.1 hn)
  simp at this

/-- **A type met again closes a cycle.** -/
theorem truthful_cycle (h : r.Trail stack) (ht : r.Reaches targets t) (hmem : t.fqn ∈ stack)
    (hlink : ∀ m ∈ stack.head?, r.NeedsByName m t.fqn) :
    r.Truthful targets (.circular (cycle t.fqn stack)) := by
  have hchain : (t.fqn :: (stack.takeWhile (· ≠ t.fqn) ++ [t.fqn])).IsChain
      fun b a => r.NeedsByName a b := by
    have hpre := takeWhile_prefix_of_mem hmem
    refine List.isChain_cons.2 ⟨fun m hm => hlink m ?_, h.links.prefix hpre⟩
    obtain ⟨rest, hrest⟩ := hpre
    rw [← hrest, List.head?_append, hm]
    rfl
  refine ⟨?_, ?_, ?_, ⟨t, ht, rfl⟩, ?_⟩
  · simp [cycle]
  · rw [cycle, List.getLast?_concat]
    rfl
  · rw [cycle, List.dropLast_concat]
    exact nodup_cons_takeWhile h.nodup
  · rw [← List.isChain_reverse, List.reverse_cons] at hchain
    simpa [cycle, List.reverse_append] using hchain

/-! ## The descent -/

theorem truthful_of_pick_error {e : ResolveError} (hq : r.Asked targets t q)
    (h : r.pick t q = .error e) : r.Truthful targets e := by
  rcases pick_eq_error_iff.1 h with ⟨hnone, rfl⟩ | ⟨hpolicy, hlen, rfl⟩
  · cases q with
    | none => exact ⟨t, hq, rfl, hnone⟩
    | some func =>
      obtain ⟨s, f, hs, hf, hfunc, p, hp, hpt⟩ := hq
      exact ⟨s, f, hs, hf, hfunc, .inl ⟨p, hp, t, hpt, rfl, hnone⟩⟩
  · exact ⟨hpolicy, by simpa using hlen, t, hq.reaches, rfl, rfl⟩

/-- **A visit that is asked for rightly fails with a truthful error**, from any state. -/
theorem visit_truthful {done : Resolution} {e : ResolveError} (hstack : r.Trail stack)
    (hq : r.Asked targets t q) (hlink : ∀ m ∈ stack.head?, r.NeedsByName m t.fqn)
    (h : r.visit t q stack done = .error e) : r.Truthful targets e := by
  refine (visit.mutual_induct_unfolding r
    (fun t q stack done result => r.Trail stack → r.Asked targets t q →
      (∀ m ∈ stack.head?, r.NeedsByName m t.fqn) → ∀ e, result = .error e → r.Truthful targets e)
    (fun f ps stack done deps result => ∀ s, r.Trail stack → stack.head? = some s.fqn →
      r.Reaches targets s → r.producerFor s = .ok f → ps ⊆ f.params →
        ∀ e, result = .error e → r.Truthful targets e)
    ?made ?cycle ?unchosen ?chosen ?none ?untyped ?param).1 t q stack done hstack hq hlink e h
  case made =>
    rintro t q stack done hm - - - e h
    cases h
  case cycle =>
    rintro t q stack done - hmem hstack hq hlink e h
    cases h
    exact truthful_cycle hstack hq.reaches hmem hlink
  case unchosen =>
    rintro t q stack done - - e he - hq - e' h
    cases h
    exact truthful_of_pick_error hq he
  case chosen =>
    intro t q stack done hnew hs f hf ih hstack hq hlink e h
    cases hv : r.visitParams f f.params (t.fqn :: stack) done [] with
    | ok v => rw [hv] at h; cases h
    | error e' =>
      rw [hv] at h ih
      cases h
      exact ih t (trail_cons hstack hs hlink) rfl hq.reaches (pick_eq_ok_iff.1 hf)
        (List.Subset.refl _) e rfl
  case none =>
    rintro f stack done deps s - - - - - e h
    cases h
  case untyped =>
    rintro f stack done deps p rest hp s - - hs hf hps e h
    cases h
    exact ⟨s, f, hs, hf, rfl, .inr ⟨p, hps (by simp), hp, rfl⟩⟩
  case param =>
    intro f stack done deps p rest t hp ih ihrest s hstack hhead hs hf hps e h
    have hpf : p ∈ f.params := hps (by simp)
    cases hv : r.visit t (some f.fqn) stack done with
    | error e' =>
      rw [hv] at h ih
      cases h
      refine ih hstack ⟨s, f, hs, hf, rfl, p, hpf, hp⟩ (fun m hm => ?_) e rfl
      -- the constructor under way makes the type on top of the stack
      obtain rfl : s.fqn = m := by rw [hhead] at hm; exact Option.some.inj hm
      exact ⟨s, t, rfl, rfl, f, hf, p, hpf, hp⟩
    | ok d₁ =>
      rw [hv] at h
      exact ihrest d₁ s hstack hhead hs hf
        (fun p' hp' => hps (List.mem_cons_of_mem _ hp')) e h

/-- **A call that fails fails with a truthful error**, from any state. -/
theorem resolveInto_truthful {done : Resolution} {ts : List TypeName} {e : ResolveError}
    (hts : ts ⊆ targets) (h : r.resolveInto done ts = .error e) : r.Truthful targets e := by
  induction ts generalizing done with
  | nil => cases h
  | cons t ts ih =>
    rw [resolveInto_cons] at h
    cases hv : r.visit t none [] done with
    | error e' =>
      rw [hv] at h
      cases h
      exact visit_truthful ⟨List.nodup_nil, .nil⟩ (hts (by simp)) (by simp) hv
    | ok d =>
      rw [hv] at h
      exact ih (fun t' ht' => hts (List.mem_cons_of_mem _ ht')) h

/-- **An error of a call is truthful**, whatever the call found made. -/
theorem truthful_of_resolveInto_eq_error {done : Resolution} {e : ResolveError}
    (h : r.resolveInto done targets = .error e) : r.Truthful targets e :=
  resolveInto_truthful (List.Subset.refl _) h

/-- Constructors that make `A` from `B` and `B` from `A`. -/
def crossed : Resolver :=
  Registry.resolver ((Registry.empty .default).load ⟨"p", none, [], [],
    [⟨"NewA", true, none, [.unnamed (.named none "B")], [.unnamed (.named none "A")], []⟩,
      ⟨"NewB", true, none, [.unnamed (.named none "A")], [.unnamed (.named none "B")], []⟩]⟩).2

theorem truthful_crossed :
    crossed.resolveInto .empty [.lookup (some (.ofPath "p")) "A"]
      = .error (.circular ["p.A", "p.B", "p.A"]) ∧
    crossed.Truthful [.lookup (some (.ofPath "p")) "A"] (.circular ["p.A", "p.B", "p.A"]) := by
  have h : crossed.resolveInto .empty [.lookup (some (.ofPath "p")) "A"]
      = .error (.circular ["p.A", "p.B", "p.A"]) := by cbv
  exact ⟨h, truthful_of_resolveInto_eq_error h⟩

end Resolver

end Wiring
