import Mathlib
import Wiring.Proofs.Registry.Listing
import Wiring.Proofs.Resolver.Strict

/-!
# The candidates of a type

A function is asked for a type by full name (`Func.produces`), and it tells the types of its results
as the registry lists them (`Func.producedTypes`).  Both come to the same, because every type that a
signature holds is the listed one: so a full name belongs to a single type among all the results
(`ByCalls.produces_iff`).  The candidates stand in the order of their declarations, however their
files were loaded, and `ByCalls.chooses` says which of them a policy chooses.
-/

namespace Wiring

theorem Func.mem_producedTypes_iff {f : Func} {t : TypeName} : t ∈ f.producedTypes ↔
    t.isError = false ∧ ∃ s ∈ f.returns, s.type? = some t := by
  simp only [producedTypes, List.mem_filterMap, List.mem_filter, Bool.not_eq_true']
  constructor
  · rintro ⟨s, ⟨hs, herror⟩, ht⟩
    refine ⟨?_, s, hs, ht⟩
    rw [Slot.isError, ht] at herror
    exact herror
  · rintro ⟨herror, s, hs, ht⟩
    refine ⟨s, ⟨hs, ?_⟩, ht⟩
    rw [Slot.isError, ht]
    exact herror

theorem Func.produces_iff {f : Func} {t : TypeName} : f.produces t = true ↔
    t.isError = false ∧ ∃ s ∈ f.returns, ∃ u, s.type? = some u ∧ u.fqn = t.fqn := by
  simp only [produces, Bool.and_eq_true, Bool.not_eq_true', List.any_eq_true, Option.any_eq_true,
    beq_iff_eq]

namespace Registry

variable {r : Registry} {t u : TypeName} {f : Func}

theorem ListsType.canonical_eq (ht : r.ListsType t) (h : u.fqn = t.fqn) : r.canonical u = t := by
  obtain ⟨e, he, rfl⟩ := ht
  rw [Registry.canonical_eq, h, he]
  rfl

theorem fqn_canonical (hr : r.TypesNamed) (t : TypeName) : (r.canonical t).fqn = t.fqn := by
  rw [Registry.canonical_eq]
  cases he : r.findType? t.fqn with
  | none => rfl
  | some e => exact hr _ e he

/-- **A function produces a type if the listed form of the type is among those that it tells.** -/
theorem ByCalls.produces_iff (hr : r.ByCalls) (hf : f ∈ r.funcs) (t : TypeName) :
    f.produces t = true ↔ r.canonical t ∈ f.producedTypes := by
  have hfqn : (r.canonical t).fqn = t.fqn := fqn_canonical hr.atRest.reachable.typesNamed t
  have herror : (r.canonical t).isError = t.isError := by
    rw [TypeName.isError, hfqn, TypeName.isError]
  rw [Func.produces_iff, Func.mem_producedTypes_iff, herror]
  refine and_congr_right fun _ => exists_congr fun s => and_congr_right fun hs => ?_
  constructor
  · rintro ⟨u, hu, hname⟩
    have hlisted : r.ListsType u :=
      hr.consistent.slotType f hf s (List.mem_append_right _ hs) u hu
    rw [hlisted.canonical_eq hname.symm]
    exact hu
  · intro hs
    exact ⟨_, hs, hfqn⟩

/-- The first of several functions in the order of their places is before all others. -/
theorem head?_eq_some_iff_before {l : List Func}
    (hl : l.Pairwise fun f g => f.ordinal.Before g.ordinal) :
    l.head? = some f ↔ f ∈ l ∧ ∀ g ∈ l, g = f ∨ f.ordinal.Before g.ordinal := by
  cases l with
  | nil => simp
  | cons g l =>
    obtain ⟨hg, -⟩ := List.pairwise_cons.1 hl
    rw [List.head?_cons, Option.some.injEq]
    constructor
    · rintro rfl
      refine ⟨List.mem_cons_self, fun h hh => ?_⟩
      exact (List.mem_cons.1 hh).imp_right (hg h)
    · rintro ⟨hf, hfirst⟩
      rcases List.mem_cons.1 hf with rfl | hf
      · rfl
      · rcases hfirst g List.mem_cons_self with heq | hbefore
        · exact heq
        · -- two places are not each before the other
          have hafter := hg f hf
          unfold Ordinal.Before at hbefore hafter
          omega

/-- What can be chosen to make a type, and what is chosen. -/
structure Chooses (r : Registry) (t : TypeName) : Prop where
  produces : ∀ f ∈ r.funcs, f.produces t = true ↔ r.canonical t ∈ f.producedTypes
  mem : ∀ f, f ∈ r.resolver.candidates t ↔
    f ∈ r.funcs ∧ f.isMethod = false ∧ r.canonical t ∈ f.producedTypes
  /-- They stand in the order of their declarations. -/
  order : (r.resolver.candidates t).Pairwise fun f g => f.ordinal.Before g.ordinal
  error : t = ⟨none, "error"⟩ → r.resolver.candidates t = []
  /-- Something is chosen if there is a choice. -/
  chosen : r.settings.policy = .firstRegistered → r.resolver.candidates t ≠ [] →
    ∃ f, r.resolver.producerFor t = .ok f
  first : r.settings.policy = .firstRegistered → ∀ f, r.resolver.producerFor t = .ok f ↔
    f ∈ r.resolver.candidates t ∧
      ∀ g ∈ r.resolver.candidates t, g = f ∨ f.ordinal.Before g.ordinal
  only : r.settings.policy = .rejectAmbiguous → ∀ f, r.resolver.producerFor t = .ok f ↔
    r.resolver.candidates t = [f]

/-- **The first of the candidates is chosen, or the only one**, in whatever steps the registry came
about.  A type that is listed is its own listed form. -/
theorem ByCalls.chooses (hr : r.ByCalls) (t : TypeName) :
    r.Chooses t ∧ (r.ListsType t → r.canonical t = t) := by
  have horder : (r.resolver.candidates t).Pairwise fun f g => f.ordinal.Before g.ordinal :=
    (hr.consistent.order.filter _).filter _
  refine ⟨⟨fun f hf => hr.produces_iff hf t, fun f => ?_, horder, ?_, ?_, ?_, ?_⟩,
    fun ht => ht.canonical_eq rfl⟩
  · show f ∈ (r.funcs.filter (!·.isMethod)).filter (·.produces t) ↔ _
    rw [List.mem_filter, List.mem_filter, Bool.not_eq_true', and_assoc]
    exact and_congr_right fun hf => and_congr_right fun _ => hr.produces_iff hf t
  · rintro rfl
    exact List.filter_eq_nil_iff.2 fun f _ => by simp [Func.produces, TypeName.isError, TypeName.fqn]
  · intro hpolicy hne
    exact ⟨_, (Resolver.producerFor_eq_ok_iff_head? hpolicy).2 (List.head?_eq_some_head hne)⟩
  · intro hpolicy f
    rw [Resolver.producerFor_eq_ok_iff_head? hpolicy, head?_eq_some_iff_before horder]
  · intro hpolicy f
    exact ⟨Resolver.candidates_eq_of_producerFor hpolicy, Resolver.producerFor_of_candidates_eq⟩

/-- A registry that loaded one file, and then two at once that declare `NewA` again, another function
that makes `A`, and a method that returns `A`. -/
def foundry (policy : ProducerPolicy) : Registry :=
  let first := ((empty { ParserSettings.default with policy }).loadEach
    [⟨"p", none, [], [], [{ makes "NewA" "A" none with
        returns := [.unnamed (.named none "error"), .unnamed (.pointer (.named none "A"))] },
      makes "NewB" "B" none]⟩]).2
  (first.loadAll [⟨"p", none, [], [], [makes "NewA" "A" none, makes "LateA" "A" none]⟩,
    ⟨"q", none, [⟨none, "p"⟩], [], [{ FuncDecl.ofName "Copy" with
        receiver := some (.ofName "c" (.named none "C"))
        returns := [.unnamed (.named (some "p") "A")] }]⟩]).2

theorem byCalls_foundry (policy : ProducerPolicy) : (foundry policy).ByCalls := by
  have hempty : (empty { ParserSettings.default with policy }).ByCalls :=
    @ByCalls.create { ParserSettings.default with policy } _ (by cases policy <;> cbv)
  exact (hempty.call (.load .each)).call (.load .all)

set_option maxRecDepth 4000 in
/-- The method is no candidate, and what was declared again is one candidate only. -/
theorem chooses_foundry :
    (foundry .firstRegistered).ByCalls ∧ (foundry .firstRegistered).Chooses ⟨none, "p.A"⟩ ∧
    ((foundry .firstRegistered).resolver.producerFor ⟨none, "p.A"⟩).map Func.fqn = .ok "p.NewA" ∧
    (foundry .rejectAmbiguous).ByCalls ∧ (foundry .rejectAmbiguous).Chooses ⟨none, "p.A"⟩ ∧
    ((foundry .rejectAmbiguous).resolver.producerFor ⟨none, "p.A"⟩).map Func.fqn =
      .error (.ambiguous "p.A" ["p.NewA", "p.LateA"]) := by
  obtain ⟨hfirst, -⟩ := (byCalls_foundry .firstRegistered).chooses ⟨none, "p.A"⟩
  obtain ⟨honly, -⟩ := (byCalls_foundry .rejectAmbiguous).chooses ⟨none, "p.A"⟩
  exact ⟨byCalls_foundry _, hfirst, by cbv, byCalls_foundry _, honly, by cbv⟩

end Registry

end Wiring
