import Mathlib.Logic.Relation
import Wiring.Resolver

/-!
# The types that a type is made from

A resolver chooses at most one constructor for a type, and the choice rests on the full name of the
type alone (`pick_congr`), not on who asks or on what is made already.  So the types are the nodes
of a graph: `Needs t u` says that the constructor of `t` has a parameter of type `u`, and `Reaches`
follows this relation from the targets.  A type is `Constructible` when its constructor exists and
so on down to constructors without parameters; below a constructible type nothing needs itself
(`Constructible.not_needs_self`).
-/

namespace Wiring

namespace Resolver

variable {r : Resolver} {t u : TypeName} {f : Func} {q : Option String}

/-! ## The choice of a constructor -/

theorem produces_congr (h : t.fqn = u.fqn) (f : Func) : f.produces t = f.produces u := by
  unfold Func.produces TypeName.isError
  rw [h]

theorem candidates_congr (h : t.fqn = u.fqn) : r.candidates t = r.candidates u := by
  unfold candidates
  exact List.filter_congr fun f _ => produces_congr h f

/-- **The choice rests on the full name alone.** -/
theorem pick_congr (h : t.fqn = u.fqn) (q : Option String) : r.pick t q = r.pick u q := by
  unfold pick
  rw [candidates_congr h, h]

theorem producerFor_congr (h : t.fqn = u.fqn) : r.producerFor t = r.producerFor u :=
  pick_congr h none

/-- Who asks for a type has no part in the choice. -/
theorem pick_eq_ok_iff : r.pick t q = .ok f ↔ r.producerFor t = .ok f := by
  unfold producerFor pick
  split <;> simp

theorem mem_funcs_of_producerFor (h : r.producerFor t = .ok f) : f ∈ r.funcs :=
  (List.mem_filter.1 (mem_candidates_of_pick h)).1

theorem produces_of_producerFor (h : r.producerFor t = .ok f) : f.produces t = true :=
  (List.mem_filter.1 (mem_candidates_of_pick h)).2

/-- What is missing has no candidate, and what is ambiguous has several. -/
theorem pick_eq_error_iff {e : ResolveError} :
    r.pick t q = .error e ↔
      (r.candidates t = [] ∧ e = .missing t.fqn q) ∨
        (r.policy = .rejectAmbiguous ∧ 2 ≤ (r.candidates t).length ∧
          e = .ambiguous t.fqn ((r.candidates t).map Func.fqn)) := by
  unfold pick
  cases r.candidates t with
  | nil => simp [eq_comm]
  | cons f fs =>
    cases fs with
    | nil => simp
    | cons g gs => cases r.policy <;> simp [eq_comm]

/-! ## The graph of types -/

/-- The constructor of `t` has a parameter of type `u`. -/
def Needs (r : Resolver) (t u : TypeName) : Prop :=
  ∃ f, r.producerFor t = .ok f ∧ ∃ p ∈ f.params, p.type? = some u

/-- From one of the targets, `t` is reached through parameters of constructors. -/
def Reaches (r : Resolver) (targets : List TypeName) (t : TypeName) : Prop :=
  ∃ s ∈ targets, Relation.ReflTransGen r.Needs s t

theorem reaches_of_mem {targets : List TypeName} (h : t ∈ targets) : r.Reaches targets t :=
  ⟨t, h, .refl⟩

theorem Reaches.needs {targets : List TypeName} (h : r.Reaches targets t) (hn : r.Needs t u) :
    r.Reaches targets u := by
  obtain ⟨s, hs, ht⟩ := h
  exact ⟨s, hs, ht.tail hn⟩

theorem needs_congr {s : TypeName} (h : s.fqn = t.fqn) : r.Needs s u ↔ r.Needs t u := by
  unfold Needs
  rw [producerFor_congr h]

theorem transGen_needs_congr {s : TypeName} (h : s.fqn = t.fqn) :
    Relation.TransGen r.Needs s u → Relation.TransGen r.Needs t u := by
  intro hs
  rw [Relation.TransGen.head'_iff] at hs ⊢
  obtain ⟨v, hv, hvu⟩ := hs
  exact ⟨v, (needs_congr h).1 hv, hvu⟩

/-- A type whose constructor exists and takes nothing but parameters of constructible types. -/
inductive Constructible (r : Resolver) : TypeName → Prop
  | intro {t : TypeName} {f : Func} (chosen : r.producerFor t = .ok f)
      (typed : ∀ p ∈ f.params, ∃ u, p.type? = some u)
      (params : ∀ p ∈ f.params, ∀ u, p.type? = some u → Constructible r u) : Constructible r t

theorem Constructible.needs (h : r.Constructible t) (hn : r.Needs t u) : r.Constructible u := by
  obtain ⟨hf, -, hp⟩ := h
  obtain ⟨g, hg, p, hpg, hu⟩ := hn
  obtain rfl := Except.ok.inj (hf.symm.trans hg)
  exact hp p hpg u hu

/-- **Nothing constructible needs itself.** -/
theorem Constructible.not_needs_self (h : r.Constructible t) : ¬ Relation.TransGen r.Needs t t := by
  induction h with
  | @intro t f hf _ _ ih =>
    intro ht
    obtain ⟨u, hn, hut⟩ := Relation.TransGen.head'_iff.1 ht
    obtain ⟨g, hg, p, hp, hu⟩ := id hn
    obtain rfl := Except.ok.inj (hf.symm.trans hg)
    -- a way from `t` back to `t` that starts with `u` is also a way from `u` back to `u`
    exact ih p hp u hu (Relation.TransGen.tail' hut hn)

end Resolver

end Wiring
