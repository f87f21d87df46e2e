import Wiring.Proofs.Registry.Reachable
import Wiring.Proofs.Resolver.Soundness

/-!
# What can be made is found, and nothing else

A visit to a constructible type succeeds, whatever is made already: its constructor is chosen, its
parameters are constructible again, and no type is met twice on the way down, because every type on
the stack needs the type in hand and nothing constructible needs itself (`visit_complete`).  In the
other direction, what a search records is constructible, with the one constructor that the resolver
chooses, and is closed under `Needs` (`Resolution.Searched`).  So the constructors that are listed
are those of the types that are reached, all of them and no others.
-/

namespace Wiring

namespace Resolver

open Resolution

variable {r : Resolver} {t u : TypeName} {f : Func} {q : Option String} {stack : List String}
  {done d d' : Resolution} {targets : List TypeName}

theorem constructible_congr (h : t.fqn = u.fqn) (ht : r.Constructible t) : r.Constructible u := by
  obtain ⟨hf, htyped, hparams⟩ := ht
  exact .intro (producerFor_congr h ▸ hf) htyped hparams

/-! ## What can be made is found -/

/-- Every type on the stack needs `t` in the end. -/
def Above (r : Resolver) (stack : List String) (t : TypeName) : Prop :=
  ∀ n ∈ stack, ∃ s, s.fqn = n ∧ Relation.TransGen r.Needs s t

theorem Above.cons (h : r.Above stack t) (hn : r.Needs t u) : r.Above (t.fqn :: stack) u := by
  intro n hmem
  rcases List.mem_cons.1 hmem with rfl | hmem
  · exact ⟨t, rfl, .single hn⟩
  · obtain ⟨s, hs, hst⟩ := h n hmem
    exact ⟨s, hs, hst.tail hn⟩

/-- **A visit to a constructible type succeeds**, whatever is made already. -/
theorem visit_complete (ht : r.Constructible t) (hstack : r.Above stack t) :
    ∃ d, r.visit t q stack done = .ok d := by
  refine (visit.mutual_induct_unfolding r
    (fun t _ stack _ result => r.Constructible t → r.Above stack t → ∃ d, result = .ok d)
    (fun _ ps stack _ _ result => (∀ p ∈ ps, ∃ u, p.type? = some u) →
      (∀ p ∈ ps, ∀ u, p.type? = some u → r.Constructible u ∧ r.Above stack u) →
        ∃ v, result = .ok v)
    ?made ?cycle ?unchosen ?chosen ?none ?untyped ?param).1 t q stack done ht hstack
  case made =>
    exact fun t q stack done _ _ _ => ⟨done, rfl⟩
  case cycle =>
    intro t q stack done _ hmem ht hstack
    -- met again, `t` would need itself
    obtain ⟨s, hs, hst⟩ := hstack _ hmem
    exact absurd (transGen_needs_congr hs hst) ht.not_needs_self
  case unchosen =>
    intro t q stack done _ _ e he ht _
    obtain ⟨hf, -, -⟩ := ht
    rw [pick_eq_ok_iff.2 hf] at he
    cases he
  case chosen =>
    intro t q stack done _ _ f hf ih ht hstack
    have hchosen := pick_eq_ok_iff.1 hf
    obtain ⟨hf', htyped, hparams⟩ := id ht
    obtain rfl := Except.ok.inj (hchosen.symm.trans hf')
    obtain ⟨⟨d, deps⟩, hv⟩ := ih htyped fun p hp u hu =>
      ⟨hparams p hp u hu, hstack.cons ⟨f, hchosen, p, hp, hu⟩⟩
    exact ⟨d.record t.fqn f deps, by rw [hv]; rfl⟩
  case none =>
    exact fun f stack done deps _ _ => ⟨(done, deps), rfl⟩
  case untyped =>
    intro f stack done deps p rest hp htyped _
    obtain ⟨u, hu⟩ := htyped p (by simp)
    rw [hp] at hu
    cases hu
  case param =>
    intro f stack done deps p rest t hp ih ihrest htyped hps
    obtain ⟨ht, hstack⟩ := hps p (by simp) t hp
    obtain ⟨d, hv⟩ := ih ht hstack
    obtain ⟨v, hrest⟩ := ihrest d (fun p hp => htyped p (List.mem_cons_of_mem _ hp))
      fun p hp => hps p (List.mem_cons_of_mem _ hp)
    exact ⟨v, by rw [hv]; exact hrest⟩

/-- **A call for constructible targets succeeds**, whatever is made already. -/
theorem resolveInto_complete (h : ∀ t ∈ targets, r.Constructible t) :
    ∃ d, r.resolveInto done targets = .ok d := by
  induction targets generalizing done with
  | nil => exact ⟨done, rfl⟩
  | cons t ts ih =>
    have hnone : r.Above [] t := fun n hn => absurd hn List.not_mem_nil
    obtain ⟨d, hv⟩ : ∃ d, r.visit t none [] done = .ok d := visit_complete (h t (by simp)) hnone
    obtain ⟨d', hd'⟩ := @ih d fun t' ht' => h t' (List.mem_cons_of_mem _ ht')
    exact ⟨d', by rw [resolveInto_cons, hv]; exact hd'⟩

end Resolver

namespace Resolution

open Resolver

variable {r : Resolver} {R : TypeName → Prop} {d d' : Resolution} {t u : TypeName}

/-! ## What is found can be made -/

/-- A resolution that one resolver made from nothing, looking for types in `R`. -/
structure Searched (r : Resolver) (R : TypeName → Prop) (d : Resolution) : Prop where
  chosen : ∀ (t : TypeName) (g : Func), d.producer? t.fqn = some g → r.producerFor t = .ok g
  constructible : ∀ t : TypeName, (d.producer? t.fqn).isSome → r.Constructible t
  wanted : ∀ f ∈ d.funcs, ∃ t, R t ∧ r.producerFor t = .ok f

theorem searched_empty : empty.Searched r R where
  chosen := by simp
  constructible := by simp
  wanted := by simp [funcs, empty]

theorem funcs_record_subset {k : String} {f : Func} {deps : List String} :
    ∀ g ∈ (d.record k f deps).funcs, g ∈ d.funcs ∨ g = f := by
  intro g hg
  cases hc : d.contains f.fqn with
  | true => exact .inl (funcs_record_of_contains hc ▸ hg)
  | false =>
    rw [funcs_record_of_not_contains hc] at hg
    simpa using hg

/-- **A step keeps a search sound.** -/
theorem Searched.step (h : d.Searched r R) (hs : r.Records R d d') : d'.Searched r R := by
  obtain ⟨hwanted, hchosen, hnew, hsup⟩ := hs
  rename_i t f
  have hmade : ∀ p ∈ f.params, ∃ u, p.type? = some u ∧ r.Constructible u := by
    intro p hp
    obtain ⟨g, hg⟩ := Option.isSome_iff_exists.1 (hsup p hp)
    obtain ⟨u, hu, hug⟩ := Option.bind_eq_some_iff.1 hg
    exact ⟨u, hu, h.constructible u (Option.isSome_iff_exists.2 ⟨g, hug⟩)⟩
  have ht : r.Constructible t := by
    refine .intro hchosen (fun p hp => ?_) (fun p hp u hu => ?_)
    · exact (hmade p hp).imp fun u hu => hu.1
    · obtain ⟨u', hu', hc⟩ := hmade p hp
      obtain rfl := Option.some.inj (hu.symm.trans hu')
      exact hc
  refine ⟨fun s g hg => ?_, fun s hs => ?_, fun g hg => ?_⟩
  · rw [producer?_record] at hg
    split at hg
    · next he =>
      cases hg
      exact (producerFor_congr he).trans hchosen
    · exact h.chosen s g hg
  · rw [producer?_record] at hs
    split at hs
    · next he => exact constructible_congr he.symm ht
    · exact h.constructible s hs
  · rcases funcs_record_subset g hg with hg | rfl
    · exact h.wanted g hg
    · exact ⟨t, hwanted, hchosen⟩

theorem Searched.run (h : d.Searched r R) (hs : Relation.ReflTransGen (r.Records R) d d') :
    d'.Searched r R := by
  induction hs with
  | refl => exact h
  | tail _ hs ih => exact ih.step hs

/-- Whatever makes a type has its own parameters made. -/
def Fed (d : Resolution) : Prop :=
  ∀ (t : TypeName) (g : Func), d.producer? t.fqn = some g → ∀ p ∈ g.params, (d.supplier? p).isSome

theorem Sound.fed (h : d.Sound) : d.Fed :=
  fun t g hg => supplier?_isSome_of_earlier h (h.made t g hg).1

theorem fed_empty : empty.Fed := by
  intro t g hg
  cases hg

theorem Extends.isSome_supplier? {p : Slot} (h : d.Extends d') (hp : (d.supplier? p).isSome) :
    (d'.supplier? p).isSome := by
  obtain ⟨g, hg⟩ := Option.isSome_iff_exists.1 hp
  exact Option.isSome_iff_exists.2 ⟨g, h.supplier? hg⟩

theorem Fed.run (h : d.Fed) (hs : Relation.ReflTransGen (r.Records R) d d') : d'.Fed := by
  induction hs with
  | refl => exact h
  | tail _ hs ih =>
    intro t g hg p hp
    obtain ⟨-, -, hnew, hsup⟩ := hs
    rw [producer?_record] at hg
    split at hg
    · cases hg
      exact (extends_record hnew).isSome_supplier? (hsup p hp)
    · exact (extends_record hnew).isSome_supplier? (ih t g hg p hp)

/-- What is made has everything made that it needs. -/
theorem Searched.needs (h : d.Searched r R) (hd : d.Fed) (ht : (d.producer? t.fqn).isSome)
    (hn : r.Needs t u) : (d.producer? u.fqn).isSome := by
  obtain ⟨g, hg⟩ := Option.isSome_iff_exists.1 ht
  obtain ⟨f, hf, p, hp, hu⟩ := hn
  obtain rfl := Except.ok.inj ((h.chosen t g hg).symm.trans hf)
  have hsup := hd t g hg p hp
  rw [supplier?, hu] at hsup
  exact hsup

/-- What is reached is made, if the targets are. -/
theorem Searched.producer?_of_reaches {targets : List TypeName} {f : Func} (h : d.Searched r R)
    (hd : d.Fed) (htargets : ∀ t ∈ targets, (d.producer? t.fqn).isSome)
    (ht : r.Reaches targets t) (hf : r.producerFor t = .ok f) : d.producer? t.fqn = some f := by
  obtain ⟨s, hs, hst⟩ := ht
  have hmade : (d.producer? t.fqn).isSome := by
    clear hf
    -- along the way from a target, what is needed is made
    induction hst with
    | refl => exact htargets s hs
    | tail _ hn ih => exact h.needs hd ih hn
  obtain ⟨g, hg⟩ := Option.isSome_iff_exists.1 hmade
  obtain rfl := Except.ok.inj ((h.chosen t g hg).symm.trans hf)
  exact hg

/-- **What is reached is called.** -/
theorem Searched.mem_funcs {targets : List TypeName} {f : Func} (h : d.Searched r R) (hd : d.Sound)
    (htargets : ∀ t ∈ targets, (d.producer? t.fqn).isSome) (ht : r.Reaches targets t)
    (hf : r.producerFor t = .ok f) : f ∈ d.funcs :=
  (hd.made t f (h.producer?_of_reaches hd.fed htargets ht hf)).1

end Resolution

namespace Resolver

open Resolution

variable {r : Resolver} {targets : List TypeName}

/-- **A call succeeds exactly if its targets are constructible**, and then it lists exactly the
constructors of the types that are reached from them. -/
theorem resolve_iff_constructible {reg : Registry} (hreg : reg.Reachable)
    (hr : r.funcs ⊆ reg.funcs) (targets : List TypeName) :
    ((∃ d, r.resolve targets = .ok d) ↔ ∀ t ∈ targets, r.Constructible t) ∧
      ∀ d, r.resolve targets = .ok d →
        ∀ f, f ∈ d.funcs ↔ ∃ t, r.Reaches targets t ∧ r.producerFor t = .ok f := by
  refine ⟨⟨?_, resolveInto_complete⟩, fun d hd f => ?_⟩
  · rintro ⟨d, hd⟩ t ht
    obtain ⟨hrun, hmade⟩ := resolveInto_ok hd
    exact (searched_empty.run hrun).constructible t (hmade t ht)
  · obtain ⟨hrun, hmade⟩ := resolveInto_ok hd
    have hsearched := searched_empty.run hrun
    have hsound := (sound_empty.run (fun f hf g hg => hreg.wellFormed.eq_of_fqn_eq hf hg) hr
      (List.nil_subset _) hrun).1
    constructor
    · exact hsearched.wanted f
    · rintro ⟨t, ht, hf⟩
      exact hsearched.mem_funcs hsound hmade ht hf

/-- A registry in which `D` is made from `B` and `C`, and both of these from `A`; nothing needs `E`.
-/
def diamond : Registry :=
  ((Registry.empty .default).load ⟨"p", none, [], [],
    [⟨"NewA", true, none, [], [.unnamed (.named none "A")], []⟩,
      ⟨"NewB", true, none, [.unnamed (.named none "A")], [.unnamed (.named none "B")], []⟩,
      ⟨"NewC", true, none, [.unnamed (.named none "A")], [.unnamed (.named none "C")], []⟩,
      ⟨"NewD", true, none, [.unnamed (.named none "B"), .unnamed (.named none "C")],
        [.unnamed (.named none "D")], []⟩,
      ⟨"NewE", true, none, [.unnamed (.named none "D")], [.unnamed (.named none "E")], []⟩]⟩).2

set_option maxRecDepth 4000 in
theorem constructible_diamond : diamond.Reachable ∧ diamond.resolver.funcs ⊆ diamond.funcs ∧
    (diamond.resolver.resolve [.lookup (some (.ofPath "p")) "D"]).map Resolution.nodes
      = .ok ["p.NewA", "p.NewB", "p.NewC", "p.NewD"] ∧
    diamond.resolver.Constructible (.lookup (some (.ofPath "p")) "D") := by
  have hreg : diamond.Reachable := (@Registry.Reachable.create .default _ (by cbv)).load _
  have hfuncs : diamond.resolver.funcs ⊆ diamond.funcs := List.filter_subset_self _
  have hok : (diamond.resolver.resolve [.lookup (some (.ofPath "p")) "D"]).map Resolution.nodes
      = .ok ["p.NewA", "p.NewB", "p.NewC", "p.NewD"] := by cbv
  refine ⟨hreg, hfuncs, hok, ?_⟩
  cases hd : diamond.resolver.resolve [.lookup (some (.ofPath "p")) "D"] with
  | error e => rw [hd] at hok; cases hok
  | ok d => exact (resolve_iff_constructible hreg hfuncs _).1.1 ⟨d, hd⟩ _ (by simp)

end Resolver

end Wiring
