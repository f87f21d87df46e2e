import Wiring.Proofs.FirstOccurrence
import Wiring.Proofs.Resolver.Dependency

/-!
# A successful search, step by step

`visit` goes down and comes back, but what it leaves is simple: it records constructors one after
the other, each at a moment when all its parameters are made.  `Records` is one such step, and a
successful visit is a sequence of them (`visit_ok`).  What every step keeps is then kept by every
search.

The step also says that the type was not made before.  This is where the stack comes in: a type on
the stack is not made by anything that is done while it stands there, since whoever asks for it
again runs into the cycle check.
-/

namespace Wiring

namespace Resolution

variable {d d' : Resolution} {n k : String} {f g : Func} {deps : List String}

def supplier? (d : Resolution) (p : Slot) : Option Func :=
  p.type?.bind fun t => d.producer? t.fqn

/-- The full names of the constructors that make several parameters, in the order of the parameters.
-/
def suppliers (d : Resolution) (ps : List Slot) : List String :=
  ps.filterMap fun p => (d.supplier? p).map Func.fqn

/-- A later resolution: constructors were added at the end, and what was made is made as before. -/
structure Extends (d d' : Resolution) : Prop where
  steps : d.steps <+: d'.steps
  producers : ∀ n g, d.producer? n = some g → d'.producer? n = some g

theorem Extends.refl (d : Resolution) : d.Extends d :=
  ⟨List.prefix_refl _, fun _ _ => id⟩

theorem Extends.trans {d'' : Resolution} (h : d.Extends d') (h' : d'.Extends d'') :
    d.Extends d'' :=
  ⟨h.steps.trans h'.steps, fun n g hg => h'.producers n g (h.producers n g hg)⟩

theorem Extends.supplier? {p : Slot} (h : d.Extends d') (hp : d.supplier? p = some g) :
    d'.supplier? p = some g := by
  obtain ⟨t, ht, hg⟩ := Option.bind_eq_some_iff.1 hp
  exact Option.bind_eq_some_iff.2 ⟨t, ht, h.producers _ _ hg⟩

/-- Parameters that are made stay made by the same constructors. -/
theorem Extends.suppliers_eq {ps : List Slot} (h : d.Extends d')
    (hps : ∀ p ∈ ps, (d.supplier? p).isSome) : d'.suppliers ps = d.suppliers ps := by
  refine List.filterMap_congr fun p hp => ?_
  obtain ⟨g, hg⟩ := Option.isSome_iff_exists.1 (hps p hp)
  rw [hg, h.supplier? hg]

@[simp] theorem producer?_empty : empty.producer? n = none := rfl

@[simp] theorem producer?_record :
    (d.record k f deps).producer? n = if n = k then some f else d.producer? n :=
  Dict.get?_insert d.producers k f n

theorem steps_record_of_contains (h : d.contains f.fqn = true) :
    (d.record k f deps).steps = d.steps := by
  simp [record, h]

theorem steps_record_of_not_contains (h : d.contains f.fqn = false) :
    (d.record k f deps).steps = d.steps ++ [⟨f, deps⟩] := by
  simp [record, h]

theorem contains_iff : d.contains n = true ↔ ∃ g ∈ d.funcs, g.fqn = n := by
  simp only [contains, funcs, List.any_eq_true, beq_iff_eq, List.mem_map, exists_exists_and_eq_and]

theorem extends_record (h : d.producer? k = none) : d.Extends (d.record k f deps) := by
  refine ⟨?_, fun n g hg => ?_⟩
  · cases hc : d.contains f.fqn with
    | true => exact (steps_record_of_contains hc).symm ▸ List.prefix_refl _
    | false =>
      rw [steps_record_of_not_contains hc]
      exact List.prefix_append _ _
  · have hn : n ≠ k := fun he => by rw [he, h] at hg; cases hg
    rw [producer?_record, if_neg hn, hg]

end Resolution

namespace Resolver

open Resolution

variable {r : Resolver} {R : TypeName → Prop} {done d : Resolution}

/-- One step of a search: a constructor of a type in `R` that is not made yet is recorded, with all
its parameters made. -/
inductive Records (r : Resolver) (R : TypeName → Prop) : Resolution → Resolution → Prop
  | record {d : Resolution} {t : TypeName} {f : Func} (wanted : R t)
      (chosen : r.producerFor t = .ok f) (new : d.producer? t.fqn = none)
      (supplied : ∀ p ∈ f.params, (d.supplier? p).isSome) :
      Records r R d (d.record t.fqn f (d.suppliers f.params).eraseDups)

theorem Records.extends (h : Relation.ReflTransGen (r.Records R) done d) : done.Extends d := by
  induction h with
  | refl => exact .refl _
  | tail _ hs ih =>
    obtain ⟨-, -, hnew, -⟩ := hs
    exact ih.trans (extends_record hnew)

/-- **A successful visit is a sequence of steps.**  It makes the type, and it makes nothing that
stands on the stack. -/
theorem visit_ok {t : TypeName} {q : Option String} {stack : List String}
    (hR : ∀ t u, R t → r.Needs t u → R u) (ht : R t) (h : r.visit t q stack done = .ok d) :
    Relation.ReflTransGen (r.Records R) done d ∧ (d.producer? t.fqn).isSome ∧
      ∀ n ∈ stack, done.producer? n = none → d.producer? n = none := by
  refine (visit.mutual_induct_unfolding r
    (fun t _ stack done result => R t → ∀ d, result = .ok d →
      Relation.ReflTransGen (r.Records R) done d ∧ (d.producer? t.fqn).isSome ∧
        ∀ n ∈ stack, done.producer? n = none → d.producer? n = none)
    (fun _ ps stack done deps result => (∀ p ∈ ps, ∀ u, p.type? = some u → R u) →
      ∀ d deps', result = .ok (d, deps') →
        Relation.ReflTransGen (r.Records R) done d ∧
          (∀ n ∈ stack, done.producer? n = none → d.producer? n = none) ∧
          (∀ p ∈ ps, (d.supplier? p).isSome) ∧
          ∀ names : List String, deps = names.eraseDups →
            deps' = (names ++ d.suppliers ps).eraseDups)
    ?made ?cycle ?unchosen ?chosen ?none ?untyped ?param).1 t q stack done ht d h
  case made =>
    rintro t q stack done hm - d h
    cases h
    exact ⟨.refl, hm, fun _ _ => id⟩
  case cycle =>
    rintro t q stack done - - - d h
    cases h
  case unchosen =>
    rintro t q stack done - - e - - d h
    cases h
  case chosen =>
    intro t q stack done hnew hs f hf ih ht d h
    have hchosen := pick_eq_ok_iff.1 hf
    cases hv : r.visitParams f f.params (t.fqn :: stack) done [] with
    | error e => rw [hv] at h; cases h
    | ok v =>
      obtain ⟨d₁, deps⟩ := v
      rw [hv] at h ih
      cases h
      obtain ⟨hrun, hstack, hsupplied, hdeps⟩ := ih
        (fun p hp u hu => hR t u ht ⟨f, hchosen, p, hp, hu⟩) d₁ deps rfl
      have hd : deps = (d₁.suppliers f.params).eraseDups := hdeps [] rfl
      -- `t` stood on the stack meanwhile, so it is still not made
      have hfresh : d₁.producer? t.fqn = none :=
        hstack t.fqn (by simp) (by simpa using hnew)
      refine ⟨hd ▸ hrun.tail (.record ht hchosen hfresh hsupplied), by simp, fun n hn hnone => ?_⟩
      have hne : n ≠ t.fqn := fun he => hs (he ▸ hn)
      rw [producer?_record, if_neg hne]
      exact hstack n (List.mem_cons_of_mem _ hn) hnone
  case none =>
    rintro f stack done deps - d deps' h
    cases h
    exact ⟨.refl, fun _ _ => id, by simp, fun names hn => by simpa [suppliers] using hn⟩
  case untyped =>
    rintro f stack done deps p rest hp - d deps' h
    cases h
  case param =>
    intro f stack done deps p rest t hp ih ihrest hps d deps' h
    cases hv : r.visit t (some f.fqn) stack done with
    | error e => rw [hv] at h; cases h
    | ok d₁ =>
      rw [hv] at h ih
      obtain ⟨hrun, hmade, hstack⟩ := ih (hps p (by simp) t hp) d₁ rfl
      obtain ⟨g, hg⟩ := Option.isSome_iff_exists.1 hmade
      obtain ⟨hrun', hstack', hsupplied, hdeps⟩ := ihrest d₁
        (fun p hp => hps p (List.mem_cons_of_mem _ hp)) d deps' h
      have hsup : d.supplier? p = some g := by
        rw [supplier?, hp]
        exact (Records.extends hrun').producers _ _ hg
      refine ⟨hrun.trans hrun', fun n hn hnone => hstack' n hn (hstack n hn hnone), ?_, ?_⟩
      · intro p' hp'
        rcases List.mem_cons.1 hp' with rfl | hp'
        · simp [hsup]
        · exact hsupplied p' hp'
      · intro names hn
        have hsplit : d.suppliers (p :: rest) = [g.fqn] ++ d.suppliers rest := by
          simp [suppliers, hsup]
        rw [hsplit, ← List.append_assoc]
        refine hdeps (names ++ [g.fqn]) ?_
        rw [hg, eraseDups_append_singleton, hn]
        simp

@[simp] theorem resolveInto_nil : r.resolveInto done [] = .ok done := rfl

theorem resolveInto_cons (t : TypeName) (ts : List TypeName) :
    r.resolveInto done (t :: ts) = (r.visit t none [] done).bind fun d => r.resolveInto d ts := rfl

/-- **A successful call is a sequence of steps**, and it makes its targets. -/
theorem resolveInto_ok {targets : List TypeName} (h : r.resolveInto done targets = .ok d) :
    Relation.ReflTransGen (r.Records (r.Reaches targets)) done d ∧
      ∀ t ∈ targets, (d.producer? t.fqn).isSome := by
  have aux : ∀ (ts : List TypeName) (done : Resolution), (∀ t ∈ ts, r.Reaches targets t) →
      r.resolveInto done ts = .ok d →
        Relation.ReflTransGen (r.Records (r.Reaches targets)) done d ∧
          ∀ t ∈ ts, (d.producer? t.fqn).isSome := by
    intro ts
    induction ts with
    | nil =>
      intro done _ h
      cases h
      exact ⟨.refl, by simp⟩
    | cons t ts ih =>
      intro done hts h
      rw [resolveInto_cons] at h
      cases hv : r.visit t none [] done with
      | error e => rw [hv] at h; cases h
      | ok d₁ =>
        rw [hv] at h
        obtain ⟨hrun, hmade, -⟩ := visit_ok (fun t u => Reaches.needs) (hts t (by simp)) hv
        obtain ⟨hrun', hmade'⟩ := ih d₁ (fun t ht => hts t (List.mem_cons_of_mem _ ht)) h
        refine ⟨hrun.trans hrun', fun t' ht' => ?_⟩
        rcases List.mem_cons.1 ht' with rfl | ht'
        · obtain ⟨g, hg⟩ := Option.isSome_iff_exists.1 hmade
          exact Option.isSome_iff_exists.2 ⟨g, (Records.extends hrun').producers _ _ hg⟩
        · exact hmade' t' ht'
  exact aux targets done (fun t => reaches_of_mem) h

end Resolver

end Wiring
