import Wiring.Proofs.Registry.Extension

/-!
# A signature fits its registry

A signature is looked up once and kept.  It never gets out of date (`Func.SignedIn`): the types that
the function mentions are listed, and the signature is the one that the registry would give the
function now.  For a type stays in the form in which it was listed first, and a signature rests on
nothing else (`SignedIn.mono`, `Reachable.signedIn`).
-/

namespace Wiring

namespace FileScope

variable {scope : FileScope} {c c' : TypeName → TypeName}

/-- A signature rests on the forms of the types that the function mentions. -/
theorem signature_congr {d : FuncDecl} (h : ∀ t ∈ scope.mentioned d, c t = c' t) :
    scope.signature c d = scope.signature c' d := by
  have hslot : ∀ f ∈ fieldsOf d, scope.slot c f = scope.slot c' f := by
    intro f hf
    cases hm : scope.meaning? f.shape with
    | none => simp only [slot, hm, Option.map_none]
    | some m =>
      obtain ⟨t, k⟩ := m
      have ht : t ∈ scope.mentioned d := List.mem_filterMap.2 ⟨f, hf, by rw [hm]; rfl⟩
      simp only [slot, hm, Option.map_some, h t ht]
  have hreceiver : d.receiver.map (scope.slot c) = d.receiver.map (scope.slot c') :=
    Option.map_congr fun f hf => hslot f (by simp [fieldsOf, hf])
  have hparams : d.params.map (scope.slot c) = d.params.map (scope.slot c') :=
    List.map_congr_left fun f hf => hslot f (by simp [fieldsOf, hf])
  have hreturns : d.returns.map (scope.slot c) = d.returns.map (scope.slot c') :=
    List.map_congr_left fun f hf => hslot f (by simp [fieldsOf, hf])
  rw [signature, signature, hreceiver, hparams, hreturns]

end FileScope

/-- The types that a function mentions are listed, and its signature is the one that the registry
gives it. -/
structure Func.SignedIn (r : Registry) (f : Func) : Prop where
  listed : ∀ n, f.Mentions n → (r.findType? n).isSome
  signature : f.signature? = some (f.scope.signature r.canonical f.decl)

theorem Func.SignedIn.signature_eq {r : Registry} {f : Func} (h : f.SignedIn r) :
    f.signature = f.scope.signature r.canonical f.decl := by
  rw [Func.signature, h.signature, Option.getD_some]

namespace Registry

variable {r s : Registry}

theorem canonical_eq (r : Registry) (t : TypeName) :
    r.canonical t = ((r.findType? t.fqn).map (·.name)).getD t := rfl

theorem TypesKept.canonical_eq (h : r.TypesKept s) {t : TypeName}
    (ht : (r.findType? t.fqn).isSome) : s.canonical t = r.canonical t := by
  obtain ⟨e, he⟩ := Option.isSome_iff_exists.1 ht
  obtain ⟨e', he', hlater⟩ := h.findType? he
  rw [Registry.canonical_eq, Registry.canonical_eq, he, he', Option.map_some, Option.map_some,
    hlater.name]

end Registry

theorem Func.SignedIn.mono {r s : Registry} {f : Func} (h : f.SignedIn r) (hs : r.TypesKept s) :
    f.SignedIn s := by
  refine ⟨fun n hn => ?_, ?_⟩
  · obtain ⟨e, he⟩ := Option.isSome_iff_exists.1 (h.listed n hn)
    obtain ⟨e', he', -⟩ := hs.findType? he
    rw [he']
    rfl
  · rw [h.signature, FileScope.signature_congr fun t ht => ?_]
    exact (hs.canonical_eq (h.listed _ ⟨t, ht, rfl⟩)).symm

namespace Registry

variable {r : Registry} {f : Func}

/-- **A signature that is there fits the registry.** -/
theorem Reachable.signedIn (h : r.Reachable) :
    ∀ n f, r.findFunc? n = some f → f.signature?.isSome → f.SignedIn r := by
  induction h with
  | create h =>
    rw [eq_empty_of_create h]
    intro n f hf
    cases hf
  | reserve _ k ih => exact fun n f hf hs => (ih n f hf hs).mono (.of_types_eq rfl)
  | @perform r _ a fits ih =>
    intro n f hf hs
    cases a with
    | func g =>
      have hadd : (r.addFunc g).findFunc? n = some f := hf
      rw [findFunc?_addFunc, Option.or_eq_some_iff] at hadd
      rcases hadd with hold | ⟨-, hnew⟩
      · exact (ih n f hold hs).mono (.of_types_eq rfl)
      · -- a function is added without signature
        split at hnew
        · obtain rfl := Option.some.inj hnew
          obtain ⟨⟨u, hu⟩, -⟩ := fits
          rw [functions_eq] at hu
          obtain ⟨e, -, rfl⟩ := List.mem_map.1 hu
          cases hs
        · cases hnew
    | package p => exact (ih n f hf hs).mono (.perform r _)
    | type t => exact (ih n f hf hs).mono (.perform r _)
    | attach t d => exact (ih n f hf hs).mono (.perform r _)
  | @resolve r _ m ih =>
    intro n f hf hs
    have hkept : r.TypesKept (r.resolveSignature m) := .resolveSignature r m
    rcases r.resolveSignature_cases m with heq | ⟨g, hg, -, htypes, hfind⟩
    · rw [heq] at hf ⊢
      exact ih n f hf hs
    · rw [hfind] at hf
      by_cases hn : n = m
      · rw [if_pos hn, Option.some.injEq] at hf
        subst hf
        have hforms : (r.resolveSignature m).canonical = (r.withMentioned g).canonical := by
          funext t
          rw [Registry.canonical_eq, Registry.canonical_eq, findType?, htypes, findType?]
        refine ⟨fun k hk => ?_, by rw [hforms]; rfl⟩
        rw [findType?, htypes]
        exact (isSome_findType?_withMentioned r g k).2 (.inr hk)
      · rw [if_neg hn] at hf
        exact (ih n f hf hs).mono hkept

/-- When no call is under way, all signatures fit. -/
theorem AtRest.signedIn (hr : r.AtRest) (hf : f ∈ r.funcs) : f.SignedIn r := by
  have hfind := (mem_funcs_iff_findFunc? hr.reachable.wellFormed).1 hf
  exact hr.reachable.signedIn _ f hfind (hr.settled _ f hfind)

end Registry

end Wiring
