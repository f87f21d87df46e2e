import Wiring.Proofs.Registry.Extension
import Wiring.Proofs.Resolver.Search

/-!
# A search that succeeded is not changed by what comes later

A search asks its resolver for constructors and for nothing else.  So a resolver that chooses the
same constructor wherever one was chosen before (`Keeps`) takes the same steps over again
(`visit_replay`), with the same errors avoided and the same resolution at the end.

Under the policy `firstRegistered` a registry that only grew is such a resolver: new functions are
listed behind those that were there, so the first candidate of a type stays the first
(`keeps_of_prefix`).  Under `rejectAmbiguous` it is not, since a second candidate spoils the first.
-/

namespace Wiring

namespace Resolver

variable {r r' : Resolver} {t : TypeName} {f : Func} {q : Option String} {stack : List String}
  {done d : Resolution} {targets : List TypeName}

/-- Wherever one resolver chooses a constructor, the other one chooses the same. -/
def Keeps (r r' : Resolver) : Prop :=
  ∀ t f, r.producerFor t = .ok f → r'.producerFor t = .ok f

theorem producerFor_eq_ok_iff_head? (h : r.policy = .firstRegistered) :
    r.producerFor t = .ok f ↔ (r.candidates t).head? = some f := by
  unfold producerFor pick
  rw [h]
  cases r.candidates t with
  | nil => simp
  | cons g gs => cases gs <;> simp

/-- **Candidates that come last do not change the choice.** -/
theorem keeps_of_prefix (h : r.policy = .firstRegistered) (h' : r'.policy = .firstRegistered)
    (hfuncs : r.funcs <+: r'.funcs) : r.Keeps r' := by
  intro t f hf
  rw [producerFor_eq_ok_iff_head? h] at hf
  rw [producerFor_eq_ok_iff_head? h']
  have hcandidates : r.candidates t <+: r'.candidates t := hfuncs.filter _
  obtain ⟨rest, hrest⟩ := hcandidates
  rw [← hrest, List.head?_append, hf, Option.some_or]

/-! ## The steps of a search -/

theorem visit_of_chosen (hnew : ¬ (done.producer? t.fqn).isSome = true) (hs : t.fqn ∉ stack)
    (hf : r.pick t q = .ok f) : r.visit t q stack done
      = (r.visitParams f f.params (t.fqn :: stack) done []).bind fun v =>
          .ok (v.1.record t.fqn f v.2) := by
  rw [visit, if_neg hnew, dif_neg hs]
  split
  · next e he =>
    rw [hf] at he
    cases he
  · next g hg =>
    obtain rfl := Except.ok.inj (hf.symm.trans hg)
    rfl

/-- **A visit is taken over again.** -/
theorem visit_replay (hk : r.Keeps r') (h : r.visit t q stack done = .ok d) :
    r'.visit t q stack done = .ok d := by
  refine (visit.mutual_induct_unfolding r
    (fun t q stack done result => ∀ d, result = .ok d → r'.visit t q stack done = .ok d)
    (fun f ps stack done deps result => ∀ v, result = .ok v →
      r'.visitParams f ps stack done deps = .ok v)
    ?made ?cycle ?unchosen ?chosen ?none ?untyped ?param).1 t q stack done d h
  case made =>
    intro t q stack done hm d h
    rw [visit, if_pos hm, ← h]
  case cycle =>
    rintro t q stack done - - d h
    cases h
  case unchosen =>
    rintro t q stack done - - e - d h
    cases h
  case chosen =>
    intro t q stack done hnew hs f hf ih d h
    have hchosen : r'.pick t q = .ok f := pick_eq_ok_iff.2 (hk t f (pick_eq_ok_iff.1 hf))
    rw [visit_of_chosen hnew hs hchosen]
    cases hv : r.visitParams f f.params (t.fqn :: stack) done [] with
    | error e => rw [hv] at h; cases h
    | ok v =>
      rw [hv] at h
      rw [ih v hv]
      exact h
  case none =>
    intro f stack done deps v h
    rw [visitParams, ← h]
  case untyped =>
    rintro f stack done deps p rest - v h
    cases h
  case param =>
    intro f stack done deps p rest t hp ih ihrest v h
    rw [visitParams, hp]
    dsimp only
    cases hv : r.visit t (some f.fqn) stack done with
    | error e => rw [hv] at h; cases h
    | ok d =>
      rw [hv] at h
      have hrest := ihrest d v h
      rw [ih d hv]
      exact hrest

theorem resolveInto_replay (hk : r.Keeps r') (h : r.resolveInto done targets = .ok d) :
    r'.resolveInto done targets = .ok d := by
  induction targets generalizing done with
  | nil => exact h
  | cons t ts ih =>
    rw [resolveInto_cons] at h ⊢
    cases hv : r.visit t none [] done with
    | error e => rw [hv] at h; cases h
    | ok d₁ =>
      rw [hv] at h
      rw [visit_replay hk hv]
      exact ih h

end Resolver

namespace Registry

variable {r s : Registry} {targets : List TypeName} {d : Resolution}

/-- **A resolution that succeeded stays what it is, whatever is called.** -/
theorem ByCalls.resolve_stable (hr : r.ByCalls) (hpolicy : r.settings.policy = .firstRegistered)
    (hd : r.resolve targets = .ok d) (h : Relation.ReflTransGen Call r s) :
    s.resolve targets = .ok d := by
  have hpolicy' : s.settings.policy = .firstRegistered := by
    rw [(hr.atRest.calls h).2, hpolicy]
  have hfuncs : r.resolver.funcs <+: s.resolver.funcs := (Extends.calls hr.atRest h).funcs.filter _
  exact Resolver.resolveInto_replay (Resolver.keeps_of_prefix hpolicy hpolicy' hfuncs) hd

/-- A function without parameters, or with one, that makes a type of its own package. -/
def makes (name type : String) (needs : Option String) : FuncDecl :=
  { FuncDecl.ofName name with
    params := needs.toList.map fun n => .unnamed (.named none n)
    returns := [.unnamed (.named none type)] }

/-- A registry with a constructor of `A` and one that makes `B` from `A`. -/
def workshop : Registry :=
  ((empty .default).loadAll [⟨"p", some "m.go", [], [],
    [makes "NewA" "A" none, makes "NewB" "B" (some "A")]⟩]).2

/-- The same registry after it was asked for another type and after two more files, of which the
first declares `A`, `NewB` once more, and a rival of each constructor. -/
def largerWorkshop : Registry :=
  ((workshop.typeIn (some "a") "C").2.loadAll
    [⟨"p", some "a.go", [], [⟨"A", .struct, []⟩],
        [makes "LateA" "A" (some "B"), makes "NewB" "B" none, makes "LateB" "B" none]⟩,
      ⟨"a", some "c.go", [], [], [makes "NewC" "C" none]⟩]).2

theorem calls_largerWorkshop : Relation.ReflTransGen Call workshop largerWorkshop :=
  (Relation.ReflTransGen.single (.typeIn (some "a") "C")).tail (.load .all)

set_option maxRecDepth 4000 in
/-- Each of `A` and `B` has one more candidate at the end, and nothing else is chosen. -/
theorem resolve_stable_largerWorkshop : workshop.ByCalls ∧
    workshop.settings.policy = .firstRegistered ∧
    (∃ d, workshop.resolve [.lookup (some (.ofPath "p")) "B"] = .ok d ∧
      largerWorkshop.resolve [.lookup (some (.ofPath "p")) "B"] = .ok d ∧
      d.nodes = ["p.NewA", "p.NewB"]) ∧
    (largerWorkshop.resolver.candidates (.lookup (some (.ofPath "p")) "A")).map Func.fqn
      = ["p.NewA", "p.LateA"] ∧
    (largerWorkshop.resolver.candidates (.lookup (some (.ofPath "p")) "B")).map Func.fqn
      = ["p.NewB", "p.LateB"] := by
  have hempty : (empty .default).ByCalls := @ByCalls.create .default _ (by cbv)
  have hworkshop : workshop.ByCalls := hempty.call (.load .all)
  have hpolicy : workshop.settings.policy = .firstRegistered := by cbv
  have hnodes : (workshop.resolve [.lookup (some (.ofPath "p")) "B"]).map Resolution.nodes
      = .ok ["p.NewA", "p.NewB"] := by cbv
  refine ⟨hworkshop, hpolicy, ?_, by cbv, by cbv⟩
  cases hd : workshop.resolve [.lookup (some (.ofPath "p")) "B"] with
  | error e =>
    rw [hd] at hnodes
    cases hnodes
  | ok d =>
    rw [hd] at hnodes
    exact ⟨d, rfl, hworkshop.resolve_stable hpolicy hd calls_largerWorkshop, Except.ok.inj hnodes⟩

end Registry

end Wiring
