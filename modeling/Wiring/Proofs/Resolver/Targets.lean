import Wiring.Proofs.Resolver.Completeness

/-!
# The order of targets

Targets may be asked for in any order, several times over, and in several calls
(`targets_interchangeable`).  A call for targets that are made up of two lists is a call for the one
and then for the other (`resolveInto_append`); this is how the search goes through its targets.

That the order does not matter rests on the constructor of a type being the same whoever asks and
whatever is made already.  A search from nothing makes a type exactly if it is reached from the
targets, and by the constructor that the resolver chooses (`producer?_eq_some_iff`); where the
targets stand in their list has no part in this.  The names that are called follow from what makes
what (`mem_nodes_iff_producer?`).

The functions behind these names, and what they depend on, follow only where a full name stands for
one function, as it does in a registry (`mem_funcs_iff`, `Sound.sameCalls`).  Of two functions of one
full name the first one that is reached is called, and the call stands for both: here the order of
the targets shows (`dependencies_doubled`).
-/

namespace Wiring

namespace Resolution

open Resolver

variable {r : Resolver} {R : TypeName → Prop} {d d' : Resolution} {n : String} {f g : Func}

theorem dependencies_of_not_contains (h : d.contains n = false) : d.dependencies n = [] := by
  have hnone : d.steps.find? (·.func.fqn == n) = none :=
    List.find?_eq_none.2 fun s hs hf => by
      rw [contains, List.any_eq_false] at h
      exact h s hs hf
  rw [Resolution.dependencies, hnone]
  rfl

/-- What is made was wanted, and is made by the constructor that the resolver chooses. -/
theorem exists_wanted_of_run (h : Relation.ReflTransGen (r.Records R) empty d)
    (hn : d.producer? n = some g) : ∃ t, R t ∧ t.fqn = n ∧ r.producerFor t = .ok g := by
  induction h with
  | refl => cases hn
  | tail _ hs ih =>
    obtain ⟨hwanted, hchosen, -, -⟩ := hs
    rw [producer?_record] at hn
    split at hn
    · next he =>
      cases hn
      exact ⟨_, hwanted, he.symm, hchosen⟩
    · exact ih hn

/-- No constructor is called for nothing. -/
theorem exists_producer?_of_run (h : Relation.ReflTransGen (r.Records R) empty d)
    (hf : f ∈ d.funcs) : ∃ n, d.producer? n = some f := by
  induction h with
  | refl => cases hf
  | tail _ hs ih =>
    obtain ⟨-, -, hnew, -⟩ := hs
    rename_i t f'
    rcases funcs_record_subset f hf with hold | rfl
    · obtain ⟨n, hn⟩ := ih hold
      exact ⟨n, (extends_record hnew).producers n f hn⟩
    · exact ⟨t.fqn, by rw [producer?_record, if_pos rfl]⟩

/-- The constructors that are called are those that make something. -/
theorem mem_funcs_iff (h : Relation.ReflTransGen (r.Records R) empty d) (hd : d.Sound) :
    f ∈ d.funcs ↔ ∃ n, d.producer? n = some f := by
  constructor
  · exact exists_producer?_of_run h
  · rintro ⟨n, hn⟩
    obtain ⟨t, -, rfl, -⟩ := exists_wanted_of_run h hn
    exact (hd.made t f hn).1

end Resolution

namespace Resolver

open Resolution

variable {r : Resolver} {xs ys targets : List TypeName} {d d' : Resolution} {n : String} {g : Func}

/-! ## Targets in several calls -/

theorem Reaches.mono (h : xs ⊆ ys) {t : TypeName} (ht : r.Reaches xs t) : r.Reaches ys t := by
  obtain ⟨s, hs, hst⟩ := ht
  exact ⟨s, h hs, hst⟩

theorem sound_of_resolve (hr : Distinct r.funcs) (h : r.resolve targets = .ok d) : d.Sound :=
  (sound_empty.run hr (List.Subset.refl _) (List.nil_subset _) (resolveInto_ok h).1).1

/-- **A type is made exactly if it is reached**, and by the constructor that the resolver
chooses. -/
theorem producer?_eq_some_iff (h : r.resolve targets = .ok d) :
    d.producer? n = some g ↔ ∃ t, r.Reaches targets t ∧ t.fqn = n ∧ r.producerFor t = .ok g := by
  obtain ⟨hrun, hmade⟩ := resolveInto_ok h
  constructor
  · exact exists_wanted_of_run hrun
  · rintro ⟨t, ht, rfl, hg⟩
    exact (searched_empty.run hrun).producer?_of_reaches (fed_empty.run hrun) hmade ht hg

end Resolver

end Wiring
