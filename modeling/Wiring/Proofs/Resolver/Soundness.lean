import Mathlib
import Wiring.Proofs.Registry.Reachable
import Wiring.Proofs.Resolver.Search

/-!
# Resolutions are call orders

`Resolution.Sound` says what a resolution promises: no constructor is called twice, the parameters
of each are made by constructors called before it, these are what its dependencies name, and a
constructor that makes a type is called and has the type among its results.  One step of a search
keeps all of it (`Sound.step`), so every call does, whatever resolver it is made with, as long as
the constructors come from one `pool` in which a full name stands for one function.

That a constructor under way is not entered again through another of its results needs no argument
of its own: it would have to make its own parameters first, and `Records` only records a constructor
whose parameters are made.
-/

namespace Wiring

namespace Resolution

open Resolver (produces_congr)

variable {d d' : Resolution} {pool : List Func} {f g : Func} {k : String} {deps : List String}

/-- A call order in which every constructor comes after those whose results it takes. -/
structure Sound (d : Resolution) : Prop where
  nodup : (d.funcs.map Func.fqn).Nodup
  /-- Each parameter is made by a constructor at an earlier place. -/
  earlier : ∀ (i : Nat) (f : Func), d.funcs[i]? = some f → ∀ p ∈ f.params, ∃ t g j,
    p.type? = some t ∧ d.producer? t.fqn = some g ∧ j < i ∧ d.funcs[j]? = some g
  dependencies : ∀ f ∈ d.funcs, d.dependencies f.fqn = (d.suppliers f.params).eraseDups
  made : ∀ (t : TypeName) (g : Func),
    d.producer? t.fqn = some g → g ∈ d.funcs ∧ g.produces t = true

theorem sound_empty : empty.Sound where
  nodup := List.nodup_nil
  earlier := by simp [funcs, empty]
  dependencies := by simp [funcs, empty]
  made := by simp

/-- A full name stands for one function. -/
def Distinct (pool : List Func) : Prop :=
  ∀ f ∈ pool, ∀ g ∈ pool, f.fqn = g.fqn → f = g

/-! ## One step -/

theorem funcs_record_of_contains (h : d.contains f.fqn = true) :
    (d.record k f deps).funcs = d.funcs := by
  rw [funcs, steps_record_of_contains h, funcs]

theorem funcs_record_of_not_contains (h : d.contains f.fqn = false) :
    (d.record k f deps).funcs = d.funcs ++ [f] := by
  rw [funcs, steps_record_of_not_contains h, List.map_append, funcs]
  rfl

theorem supplier?_isSome_of_earlier (h : d.Sound) (hf : f ∈ d.funcs) :
    ∀ p ∈ f.params, (d.supplier? p).isSome := by
  intro p hp
  obtain ⟨i, hi⟩ := List.getElem?_of_mem hf
  obtain ⟨t, g, -, ht, hg, -⟩ := h.earlier i f hi p hp
  simp [supplier?, ht, hg]

theorem dependencies_record_of_contains (h : d.contains f.fqn = true) (n : String) :
    (d.record k f deps).dependencies n = d.dependencies n := by
  rw [Resolution.dependencies, steps_record_of_contains h, Resolution.dependencies]

theorem dependencies_record_of_mem (hg : g ∈ d.funcs) :
    (d.record k f deps).dependencies g.fqn = d.dependencies g.fqn := by
  cases hc : d.contains f.fqn with
  | true => exact dependencies_record_of_contains hc _
  | false =>
    obtain ⟨s, hs, rfl⟩ := List.mem_map.1 hg
    have hfound : (d.steps.find? (·.func.fqn == s.func.fqn)).isSome :=
      List.find?_isSome.2 ⟨s, hs, by simp⟩
    obtain ⟨s', hs'⟩ := Option.isSome_iff_exists.1 hfound
    rw [Resolution.dependencies, steps_record_of_not_contains hc, List.find?_append, hs',
      Resolution.dependencies, hs']
    rfl

theorem dependencies_record_self (h : d.contains f.fqn = false) :
    (d.record k f deps).dependencies f.fqn = deps := by
  have hnone : d.steps.find? (·.func.fqn == f.fqn) = none :=
    List.find?_eq_none.2 fun s hs hf => by
      rw [contains, List.any_eq_false] at h
      exact h s hs hf
  rw [Resolution.dependencies, steps_record_of_not_contains h, List.find?_append, hnone]
  simp

/-- A constructor that is called already keeps its place, and only one more type is made by it. -/
theorem Sound.record_of_mem {t : TypeName} (h : d.Sound) (hf : f ∈ d.funcs)
    (hprod : f.produces t = true) (hnew : d.producer? t.fqn = none) :
    (d.record t.fqn f deps).Sound := by
  have hc : d.contains f.fqn = true := contains_iff.2 ⟨f, hf, rfl⟩
  have hext : d.Extends (d.record t.fqn f deps) := extends_record hnew
  refine ⟨?_, ?_, ?_, ?_⟩ <;> rw [funcs_record_of_contains hc]
  · exact h.nodup
  · intro i g hi p hp
    obtain ⟨u, g', j, hu, hg', hj, hjg⟩ := h.earlier i g hi p hp
    exact ⟨u, g', j, hu, hext.producers _ _ hg', hj, hjg⟩
  · intro g hg
    rw [dependencies_record_of_mem hg, h.dependencies g hg,
      hext.suppliers_eq (supplier?_isSome_of_earlier h hg)]
  · intro u g hg
    rw [producer?_record] at hg
    split at hg
    · next he =>
      cases hg
      exact ⟨hf, (produces_congr he f).trans hprod⟩
    · exact h.made u g hg

/-- A constructor that was not called so far is called last. -/
theorem Sound.record_of_not_contains {t : TypeName} (h : d.Sound) (hc : d.contains f.fqn = false)
    (hprod : f.produces t = true) (hnew : d.producer? t.fqn = none)
    (hsup : ∀ p ∈ f.params, (d.supplier? p).isSome) :
    (d.record t.fqn f (d.suppliers f.params).eraseDups).Sound := by
  have hext : d.Extends (d.record t.fqn f (d.suppliers f.params).eraseDups) := extends_record hnew
  refine ⟨?_, ?_, ?_, ?_⟩ <;> rw [funcs_record_of_not_contains hc]
  · rw [List.map_append, List.nodup_append]
    refine ⟨h.nodup, by simp, fun n hn n' hn' he => ?_⟩
    obtain ⟨g, hg, rfl⟩ := List.mem_map.1 hn
    have hgf : g.fqn = f.fqn := he.trans (by simpa using hn')
    rw [contains_iff.2 ⟨g, hg, hgf⟩] at hc
    cases hc
  · intro i g hi p hp
    rcases Nat.lt_or_ge i d.funcs.length with hlt | hge
    · rw [List.getElem?_append_left hlt] at hi
      obtain ⟨u, g', j, hu, hg', hj, hjg⟩ := h.earlier i g hi p hp
      refine ⟨u, g', j, hu, hext.producers _ _ hg', hj, ?_⟩
      rw [List.getElem?_append_left (by omega), hjg]
    · -- at the new place stands `f`, whose parameters are made by constructors called before
      rw [List.getElem?_append_right hge, List.getElem?_singleton] at hi
      obtain ⟨-, rfl⟩ : i - d.funcs.length = 0 ∧ f = g := by simpa using hi
      obtain ⟨g', hg'⟩ := Option.isSome_iff_exists.1 (hsup p hp)
      obtain ⟨u, hu, hug⟩ := Option.bind_eq_some_iff.1 hg'
      obtain ⟨j, hj, hjg⟩ := List.getElem_of_mem (h.made u g' hug).1
      refine ⟨u, g', j, hu, hext.producers _ _ hug, by omega, ?_⟩
      rw [List.getElem?_append_left hj, List.getElem?_eq_getElem hj, hjg]
  · intro g hg
    rcases List.mem_append.1 hg with hg | hg
    · rw [dependencies_record_of_mem hg, h.dependencies g hg,
        hext.suppliers_eq (supplier?_isSome_of_earlier h hg)]
    · obtain rfl := List.mem_singleton.1 hg
      rw [dependencies_record_self hc, hext.suppliers_eq hsup]
  · intro u g hg
    rw [producer?_record] at hg
    split at hg
    · next he =>
      cases hg
      exact ⟨by simp, (produces_congr he f).trans hprod⟩
    · exact ⟨List.mem_append_left _ (h.made u g hg).1, (h.made u g hg).2⟩

/-- **A step keeps a resolution sound.** -/
theorem Sound.step {r : Resolver} {R : TypeName → Prop} (h : d.Sound) (hpool : Distinct pool)
    (hr : r.funcs ⊆ pool) (hd : d.funcs ⊆ pool) (hs : r.Records R d d') :
    d'.Sound ∧ d'.funcs ⊆ pool := by
  obtain ⟨-, hchosen, hnew, hsup⟩ := hs
  rename_i f
  have hf : f ∈ pool := hr (Resolver.mem_funcs_of_producerFor hchosen)
  have hprod := Resolver.produces_of_producerFor hchosen
  cases hc : d.contains f.fqn with
  | true =>
    obtain ⟨g, hg, hgf⟩ := contains_iff.1 hc
    obtain rfl := hpool g (hd hg) f hf hgf
    exact ⟨h.record_of_mem hg hprod hnew, (funcs_record_of_contains hc).symm ▸ hd⟩
  | false =>
    refine ⟨h.record_of_not_contains hc hprod hnew hsup, ?_⟩
    rw [funcs_record_of_not_contains hc]
    exact List.append_subset.2 ⟨hd, by simpa using hf⟩

theorem Sound.run {r : Resolver} {R : TypeName → Prop} (h : d.Sound) (hpool : Distinct pool)
    (hr : r.funcs ⊆ pool) (hd : d.funcs ⊆ pool) (hs : Relation.ReflTransGen (r.Records R) d d') :
    d'.Sound ∧ d'.funcs ⊆ pool := by
  induction hs with
  | refl => exact ⟨h, hd⟩
  | tail _ hs ih => exact ih.1.step hpool hr ih.2 hs

/-! ## Calls in a row -/

/-- What a call leaves: the resolution that it asked for or, if it fails, the one that was there. -/
def call (d : Resolution) (r : Resolver) (targets : List TypeName) : Resolution :=
  match r.resolveInto d targets with
  | .ok d' => d'
  | .error _ => d

def calls (d : Resolution) (cs : List (Resolver × List TypeName)) : Resolution :=
  cs.foldl (fun d c => d.call c.1 c.2) d

theorem Sound.call {r : Resolver} (h : d.Sound) (hpool : Distinct pool) (hr : r.funcs ⊆ pool)
    (hd : d.funcs ⊆ pool) (targets : List TypeName) :
    (d.call r targets).Sound ∧ (d.call r targets).funcs ⊆ pool := by
  unfold Resolution.call
  split
  · next d' hok => exact h.run hpool hr hd (Resolver.resolveInto_ok hok).1
  · exact ⟨h, hd⟩

/-- **Calls in a row keep a resolution sound**, whatever resolvers they are made with. -/
theorem Sound.calls {cs : List (Resolver × List TypeName)} (h : d.Sound) (hpool : Distinct pool)
    (hcs : ∀ c ∈ cs, c.1.funcs ⊆ pool) (hd : d.funcs ⊆ pool) :
    (d.calls cs).Sound ∧ (d.calls cs).funcs ⊆ pool := by
  induction cs generalizing d with
  | nil => exact ⟨h, hd⟩
  | cons c cs ih =>
    obtain ⟨h', hd'⟩ := h.call hpool (hcs c (by simp)) hd c.2
    exact ih h' (fun c hc => hcs c (List.mem_cons_of_mem _ hc)) hd'

/-- **From nothing, calls leave a sound resolution**, and a call that succeeds makes its targets. -/
theorem calls_sound {reg : Registry} (hreg : reg.Reachable) {cs : List (Resolver × List TypeName)}
    (hcs : ∀ c ∈ cs, c.1.funcs ⊆ reg.funcs) :
    (empty.calls cs).Sound ∧ ∀ (r : Resolver) (targets : List TypeName) (d : Resolution),
      r.resolveInto (empty.calls cs) targets = .ok d →
        ∀ t ∈ targets, (d.producer? t.fqn).isSome := by
  have hpool : Distinct reg.funcs := fun f hf g hg => hreg.wellFormed.eq_of_fqn_eq hf hg
  refine ⟨(sound_empty.calls hpool hcs (List.nil_subset _)).1, fun r targets d hd => ?_⟩
  exact (Resolver.resolveInto_ok hd).2

/-- A registry with a constructor of `A` and one that makes `B` from `A`. -/
def twoSteps : Registry :=
  ((Registry.empty .default).load ⟨"p", none, [], [],
    [⟨"NewA", true, none, [], [.unnamed (.named none "A")], []⟩,
      ⟨"NewB", true, none, [.unnamed (.named none "A")], [.unnamed (.named none "B")], []⟩]⟩).2

/-- A call that fails, one with a resolver of its own, and one that makes `B`. -/
def mixedCalls : List (Resolver × List TypeName) :=
  [(twoSteps.resolver, [.lookup (some (.ofPath "p")) "A", .lookup (some (.ofPath "p")) "C"]),
    (⟨twoSteps.funcs, .rejectAmbiguous⟩, [.lookup (some (.ofPath "p")) "A"]),
    (twoSteps.resolver, [.lookup (some (.ofPath "p")) "B"])]

set_option maxRecDepth 4000 in
theorem sound_mixedCalls : twoSteps.Reachable ∧ (∀ c ∈ mixedCalls, c.1.funcs ⊆ twoSteps.funcs) ∧
    (empty.calls mixedCalls).nodes = ["p.NewA", "p.NewB"] ∧ (empty.calls mixedCalls).Sound := by
  have hreg : twoSteps.Reachable := (@Registry.Reachable.create .default _ (by cbv)).load _
  have hcs : ∀ c ∈ mixedCalls, c.1.funcs ⊆ twoSteps.funcs := by
    intro c hc
    rcases List.mem_cons.1 hc with rfl | hc
    · exact List.filter_subset_self _
    · rcases List.mem_cons.1 hc with rfl | hc
      · exact List.Subset.refl _
      · rw [List.mem_singleton.1 hc]
        exact List.filter_subset_self _
  exact ⟨hreg, hcs, by cbv, (calls_sound hreg hcs).1⟩

end Resolution

end Wiring
