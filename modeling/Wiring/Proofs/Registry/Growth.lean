import Wiring.Proofs.Registry.Rest
import Wiring.Proofs.Registry.View

/-!
# How a registry grows while units are loaded

`Grown us r s` says what loading the units `us` can have made of a settled registry `r`, whichever
of their steps were done and whichever signatures were looked up so far.  Everything that was listed
is listed still, types in the same form and functions with the same signature.  A type that is new
is plain, and it is declared in a unit or mentioned by a new function.  The signature of a new
function is the one that `r` itself would have given it, as far as a view tells.

A step of a unit keeps this (`Grown.perform`), and so does looking up a signature
(`Grown.resolveSignature`), so it holds at the end of every load.  In the end all signatures are
there, and then the new types are exactly those that are declared or mentioned
(`Grown.isSome_findType?_iff`).
-/

namespace Wiring

/-- A full name is among the types that the signature of a function refers to. -/
def Func.Mentions (f : Func) (n : String) : Prop :=
  ∃ t ∈ f.scope.mentioned f.decl, t.fqn = n

/-- One of several units declares a type of this full name. -/
def DeclaresType (us : List SourceUnit) (n : String) : Prop :=
  ∃ u ∈ us, ∃ d ∈ u.types, u.typeFqn d = n

namespace Registry

variable {r s s' : Registry} {us : List SourceUnit} {n : String}

/-! ## Types -/

theorem findType?_addTypes (r : Registry) (ts : List TypeName) (n : String) :
    (r.addTypes ts).findType? n
      = (r.findType? n).or ((ts.find? fun t => t.fqn == n).map fun t => ⟨t, none⟩) := by
  rw [addTypes_eq, findType?, KeyedSet.get?_insertAll, KeyedSet.lookup_map, findType?]

theorem findType?_attach (r : Registry) (t : TypeName) (d : TypeDeclaration) (n : String) :
    (r.attach t d).findType? n
      = if n = t.fqn then (r.findType? n).map (·.declare d) else r.findType? n := by
  rw [findType?, attach, KeyedSet.get?_modify, findType?]

theorem findFunc?_addFunc (r : Registry) (f : Func) (n : String) :
    (r.addFunc f).findFunc? n = (r.findFunc? n).or (if n = f.fqn then some f else none) := by
  rw [findFunc?, addFunc, KeyedSet.get?_insert, findFunc?]

/-- The types of one registry are listed in another in the same form, and what is new there is
plain. -/
structure TypesFrom (r s : Registry) : Prop where
  forms : ∀ n e, r.findType? n = some e → ∃ e', s.findType? n = some e' ∧ e'.name = e.name
  plain : ∀ n e, r.findType? n = none → s.findType? n = some e → e.name.fqn = n ∧ e.name.Plain

namespace TypesFrom

theorem of_types_eq (h : s.types = r.types) : r.TypesFrom s := by
  have hfind : ∀ n, s.findType? n = r.findType? n := fun n => by rw [findType?, h, findType?]
  refine ⟨fun n e he => ⟨e, (hfind n).trans he, rfl⟩, fun n e hnone he => ?_⟩
  rw [hfind, hnone] at he
  cases he

theorem trans (h : r.TypesFrom s) (h' : s.TypesFrom s') : r.TypesFrom s' := by
  refine ⟨fun n e he => ?_, fun n e hnone he => ?_⟩
  · obtain ⟨e₁, he₁, hname₁⟩ := h.forms n e he
    obtain ⟨e₂, he₂, hname₂⟩ := h'.forms n e₁ he₁
    exact ⟨e₂, he₂, hname₂.trans hname₁⟩
  · cases hs : s.findType? n with
    | none => exact h'.plain n e hs he
    | some e₁ =>
      obtain ⟨e₂, he₂, hname⟩ := h'.forms n e₁ hs
      rw [he, Option.some.injEq] at he₂
      rw [he₂, hname]
      exact h.plain n e₁ hnone hs

theorem addTypes {ts : List TypeName} (h : ∀ t ∈ ts, t.Plain) : r.TypesFrom (r.addTypes ts) := by
  refine ⟨fun n e he => ⟨e, ?_, rfl⟩, fun n e hnone he => ?_⟩
  · rw [findType?_addTypes, he, Option.some_or]
  · rw [findType?_addTypes, hnone, Option.none_or, Option.map_eq_some_iff] at he
    obtain ⟨t, ht, rfl⟩ := he
    have hname := List.find?_some ht
    exact ⟨beq_iff_eq.1 hname, h t (List.mem_of_find?_eq_some ht)⟩

theorem attach (t : TypeName) (d : TypeDeclaration) : r.TypesFrom (r.attach t d) := by
  refine ⟨fun n e he => ?_, fun n e hnone he => ?_⟩
  · rw [findType?_attach, he]
    by_cases hn : n = t.fqn
    · exact ⟨e.declare d, by rw [if_pos hn, Option.map_some], rfl⟩
    · exact ⟨e, by rw [if_neg hn], rfl⟩
  · rw [findType?_attach, hnone] at he
    split at he <;> cases he

theorem isSome (h : r.TypesFrom s) (hn : (r.findType? n).isSome) : (s.findType? n).isSome := by
  obtain ⟨e, he⟩ := Option.isSome_iff_exists.1 hn
  obtain ⟨e', he', -⟩ := h.forms n e he
  rw [he']
  rfl

/-- **What is added later does not change what a plain type is listed as.** -/
theorem sameForms (h : r.TypesFrom s) : TypeName.SameForms s.canonical r.canonical := by
  intro t ht
  have hcanonical : ∀ r : Registry, r.canonical t = ((r.findType? t.fqn).map (·.name)).getD t :=
    fun _ => rfl
  rw [hcanonical, hcanonical]
  cases hr : r.findType? t.fqn with
  | some e =>
    obtain ⟨e', he', hname⟩ := h.forms _ e hr
    rw [he', Option.map_some, Option.map_some, hname]
    exact ⟨rfl, rfl⟩
  | none =>
    cases hs : s.findType? t.fqn with
    | none => exact ⟨rfl, rfl⟩
    | some e =>
      obtain ⟨hfqn, hplain⟩ := h.plain _ e hr hs
      exact ⟨hfqn, hplain.isGlobal_eq ht hfqn⟩

end TypesFrom

/-! ## Types and functions -/

/-- Why a type is listed: it was listed before, a unit declares it, or a new function mentions
it. -/
inductive Reason (us : List SourceUnit) (r s : Registry) (n : String) : Prop
  | listed (h : (r.findType? n).isSome)
  | declared (h : DeclaresType us n)
  | mentioned {m : String} {f : Func} (hnew : r.findFunc? m = none) (hf : s.findFunc? m = some f)
      (hn : f.Mentions n)

theorem Reason.mono (h : Reason us r s n) (hstill : ∀ m f, s.findFunc? m = some f →
    ∃ f', s'.findFunc? m = some f' ∧ ∀ n, f.Mentions n → f'.Mentions n) : Reason us r s' n := by
  cases h with
  | listed h => exact .listed h
  | declared h => exact .declared h
  | mentioned hnew hf hn =>
    obtain ⟨f', hf', hn'⟩ := hstill _ _ hf
    exact .mentioned hnew hf' (hn' n hn)

/-- What loading units can have made of a registry so far. -/
structure Grown (us : List SourceUnit) (r s : Registry) : Prop where
  types : r.TypesFrom s
  kept : ∀ m f, r.findFunc? m = some f → s.findFunc? m = some f
  signed : ∀ m f, r.findFunc? m = none → s.findFunc? m = some f →
    f.signature? = none ∨ f.SignedAs r.canonical
  mentioned : ∀ m f, r.findFunc? m = none → s.findFunc? m = some f → f.signature?.isSome →
    ∀ n, f.Mentions n → (s.findType? n).isSome
  reason : ∀ n, (s.findType? n).isSome → Reason us r s n

end Registry

/-- A step looks up a type that a unit declares, or it adds a function without signature, or it is
of another sort. -/
def LoadStep.Of (us : List SourceUnit) : LoadStep → Prop
  | type t => t.Plain ∧ DeclaresType us t.fqn
  | func f => f.signature? = none
  | _ => True

namespace SourceUnit

theorem of_loadSteps {us : List SourceUnit} {u : SourceUnit} (hu : u ∈ us) {marker : String}
    {k : Nat} {c : Claims} {a : LoadStep} (ha : a ∈ u.loadSteps marker k c) : a.Of us := by
  rcases mem_loadSteps ha with ⟨p, -, rfl⟩ | ⟨d, hd, rfl | rfl⟩ | ⟨e, -, rfl⟩
  · trivial
  · exact ⟨TypeName.plain_lookup _ _, u, hu, d, hd, rfl⟩
  · trivial
  · rfl

theorem of_claimSteps {us : List SourceUnit} {u : SourceUnit} (hu : u ∈ us) {a : LoadStep}
    (ha : a ∈ u.claimSteps) : a.Of us := by
  rcases List.mem_append.1 ha with ha | ha
  · obtain ⟨p, -, rfl⟩ := List.mem_map.1 ha
    trivial
  · obtain ⟨d, hd, rfl⟩ := List.mem_map.1 ha
    exact ⟨TypeName.plain_lookup _ _, u, hu, d, hd, rfl⟩

end SourceUnit

namespace Registry

variable {r s s' : Registry} {us : List SourceUnit} {n : String}

namespace Grown

theorem refl (us : List SourceUnit) (r : Registry) : Grown us r r where
  types := .of_types_eq rfl
  kept _ _ hf := hf
  signed m f hnone hf := by rw [hnone] at hf; cases hf
  mentioned m f hnone hf := by rw [hnone] at hf; cases hf
  reason n hn := .listed hn

/-- A change that leaves the functions alone, and adds only types that are declared. -/
theorem of_types (h : Grown us r s) (hfuncs : ∀ m, s'.findFunc? m = s.findFunc? m)
    (htypes : s.TypesFrom s')
    (hnew : ∀ n, (s'.findType? n).isSome → (s.findType? n).isSome ∨ DeclaresType us n) :
    Grown us r s' where
  types := h.types.trans htypes
  kept m f hf := (hfuncs m).trans (h.kept m f hf)
  signed m f hnone hf := h.signed m f hnone ((hfuncs m).symm.trans hf)
  mentioned m f hnone hf hs n hn :=
    htypes.isSome (h.mentioned m f hnone ((hfuncs m).symm.trans hf) hs n hn)
  reason n hn := by
    rcases hnew n hn with hold | hdeclared
    · exact (h.reason n hold).mono fun m f hf => ⟨f, (hfuncs m).trans hf, fun _ hn => hn⟩
    · exact .declared hdeclared

/-- A function without signature. -/
theorem addFunc (h : Grown us r s) {f : Func} (hf : f.signature? = none) :
    Grown us r (s.addFunc f) := by
  have hfind := findFunc?_addFunc s f
  have hold : ∀ m g, s.findFunc? m = some g → (s.addFunc f).findFunc? m = some g := by
    intro m g hg
    rw [hfind, hg, Option.some_or]
  -- a function that was not listed is `f` itself, which has no signature
  have hcases : ∀ m g, (s.addFunc f).findFunc? m = some g →
      s.findFunc? m = some g ∨ g.signature? = none := by
    intro m g hg
    rw [hfind] at hg
    cases hs : s.findFunc? m with
    | some g' =>
      rw [hs, Option.some_or] at hg
      exact .inl hg
    | none =>
      rw [hs, Option.none_or] at hg
      split at hg
      · rw [← Option.some.inj hg]
        exact .inr hf
      · cases hg
  refine ⟨h.types.trans (.of_types_eq rfl), fun m g hg => hold m g (h.kept m g hg), ?_, ?_, ?_⟩
  · intro m g hnone hg
    rcases hcases m g hg with hg | hg
    · exact h.signed m g hnone hg
    · exact .inl hg
  · intro m g hnone hg hsome n hn
    rcases hcases m g hg with hg | hg
    · exact h.mentioned m g hnone hg hsome n hn
    · rw [hg] at hsome
      cases hsome
  · exact fun n hn => (h.reason n hn).mono fun m g hg => ⟨g, hold m g hg, fun _ hn => hn⟩

/-- **A step of a unit.** -/
theorem perform (h : Grown us r s) {a : LoadStep} (ha : a.Of us) : Grown us r (s.perform a) := by
  cases a with
  | package p => exact h.of_types (fun _ => rfl) (.of_types_eq rfl) fun n hn => .inl hn
  | attach t d =>
    refine h.of_types (fun _ => rfl) (.attach t d) fun n hn => ?_
    left
    have hattach : ((s.attach t d).findType? n).isSome := hn
    rw [findType?_attach] at hattach
    split at hattach
    · rwa [Option.isSome_map] at hattach
    · exact hattach
  | type t =>
    have hadd : s.perform (.type t) = s.addTypes [t] := rfl
    rw [hadd]
    refine h.of_types (fun _ => ?_) (.addTypes ?_) fun n hn => ?_
    · rw [addTypes_eq]
      rfl
    · intro t' ht'
      rw [List.mem_singleton.1 ht']
      exact ha.1
    · rw [findType?_addTypes, Option.isSome_or, Bool.or_eq_true] at hn
      refine hn.imp_right fun hn => ?_
      rw [Option.isSome_map, List.find?_isSome] at hn
      obtain ⟨t', ht', hname⟩ := hn
      rw [List.mem_singleton.1 ht', beq_iff_eq] at hname
      exact hname ▸ ha.2
  | func f => exact h.addFunc ha

theorem performAll (h : Grown us r s) {steps : List LoadStep} (hsteps : ∀ a ∈ steps, a.Of us) :
    Grown us r (s.performAll steps) := by
  induction steps generalizing s with
  | nil => exact h
  | cons a steps ih =>
    exact ih (h.perform (hsteps a (by simp))) fun b hb => hsteps b (List.mem_cons_of_mem _ hb)

end Grown

/-- Looking up a signature changes nothing, or it gives a function without signature its own, after
the types that it mentions were added. -/
theorem resolveSignature_cases (s : Registry) (m : String) : s.resolveSignature m = s ∨
    ∃ f, s.findFunc? m = some f ∧ f.signature? = none ∧
      (s.resolveSignature m).types = (s.withMentioned f).types ∧
      ∀ k, (s.resolveSignature m).findFunc? k
        = if k = m then some ((s.withMentioned f).signed f) else s.findFunc? k := by
  cases hf : s.findFunc? m with
  | none =>
    left
    have hget : s.arrivals.get? m = none := hf
    rw [resolveSignature_eq, hget]
  | some f =>
    have hget : s.arrivals.get? m = some f := hf
    by_cases hs : f.signature?.isSome = true
    · left
      rw [resolveSignature_eq, hget]
      exact if_pos hs
    · right
      refine ⟨f, rfl, by simpa using hs, ?_, fun k => ?_⟩
      · rw [resolveSignature_eq, hget]
        dsimp only
        rw [if_neg hs]
      · rw [findFunc?_resolveSignature]
        by_cases hk : k = m
        · subst hk
          rw [if_pos rfl, if_pos rfl, hf, Option.map_some, settle, if_neg hs]
        · rw [if_neg hk, if_neg hk]

theorem isSome_findType?_withMentioned (s : Registry) (f : Func) (n : String) :
    ((s.withMentioned f).findType? n).isSome ↔ (s.findType? n).isSome ∨ f.Mentions n := by
  rw [withMentioned, findType?_addTypes, Option.isSome_or, Bool.or_eq_true, Option.isSome_map,
    List.find?_isSome]
  simp [Func.Mentions]

theorem TypesFrom.withMentioned (s : Registry) (f : Func) : s.TypesFrom (s.withMentioned f) :=
  .addTypes fun _ ht => FileScope.plain_of_mem_mentioned ht

theorem TypesFrom.resolveSignature (s : Registry) (m : String) :
    s.TypesFrom (s.resolveSignature m) := by
  rcases s.resolveSignature_cases m with heq | ⟨f, -, -, htypes, -⟩
  · rw [heq]
    exact .of_types_eq rfl
  · exact (withMentioned s f).trans (.of_types_eq htypes)

theorem TypesFrom.resolveSignatures (s : Registry) (names : List String) :
    s.TypesFrom (s.resolveSignatures names) := by
  induction names generalizing s with
  | nil => exact .of_types_eq rfl
  | cons m names ih => exact (TypesFrom.resolveSignature s m).trans (ih _)

namespace Grown

/-- **Looking up a signature.** -/
theorem resolveSignature (h : Grown us r s) (hr : r.Settled) (m : String) :
    Grown us r (s.resolveSignature m) := by
  rcases s.resolveSignature_cases m with heq | ⟨f, hf, hnone, htypes, hfind⟩
  · rw [heq]
    exact h
  -- all signatures of `r` are there, so a function that lacks its own was added later
  have hnew : r.findFunc? m = none := by
    cases hrm : r.findFunc? m with
    | none => rfl
    | some g =>
      have hg := hr m g hrm
      rw [h.kept m g hrm, Option.some.injEq] at hf
      rw [hf, hnone] at hg
      cases hg
  have hgrow : s.TypesFrom (s.withMentioned f) := .withMentioned s f
  have hsome : ∀ n, ((s.resolveSignature m).findType? n).isSome
      ↔ (s.findType? n).isSome ∨ f.Mentions n := by
    intro n
    rw [findType?, htypes]
    exact isSome_findType?_withMentioned s f n
  have hsigned : ((s.withMentioned f).signed f).SignedAs r.canonical :=
    ⟨(s.withMentioned f).canonical, (h.types.trans hgrow).sameForms, rfl⟩
  refine ⟨h.types.trans (.resolveSignature s m), ?_, ?_, ?_, ?_⟩
  · intro k g hg
    rw [hfind]
    by_cases hk : k = m
    · rw [hk, hnew] at hg
      cases hg
    · rw [if_neg hk]
      exact h.kept k g hg
  · intro k g hknone hg
    rw [hfind] at hg
    by_cases hk : k = m
    · rw [if_pos hk, Option.some.injEq] at hg
      exact .inr (hg ▸ hsigned)
    · rw [if_neg hk] at hg
      exact h.signed k g hknone hg
  · intro k g hknone hg hgs n hn
    rw [hsome]
    rw [hfind] at hg
    by_cases hk : k = m
    · rw [if_pos hk, Option.some.injEq] at hg
      rw [← hg] at hn
      exact .inr hn
    · rw [if_neg hk] at hg
      exact .inl (h.mentioned k g hknone hg hgs n hn)
  · -- the function that was given its signature mentions what it mentioned before
    have hstill : ∀ k g, s.findFunc? k = some g → ∃ g',
        (s.resolveSignature m).findFunc? k = some g' ∧ ∀ n, g.Mentions n → g'.Mentions n := by
      intro k g hg
      by_cases hk : k = m
      · subst hk
        obtain rfl : f = g := Option.some.inj (hf.symm.trans hg)
        exact ⟨_, (hfind k).trans (if_pos rfl), fun n hn => hn⟩
      · exact ⟨g, ((hfind k).trans (if_neg hk)).trans hg, fun n hn => hn⟩
    intro n hn
    rcases (hsome n).1 hn with hold | hmentions
    · exact (h.reason n hold).mono hstill
    · obtain ⟨g', hg', hm'⟩ := hstill m f hf
      exact .mentioned hnew hg' (hm' n hmentions)

theorem resolveSignatures (h : Grown us r s) (hr : r.Settled) (names : List String) :
    Grown us r (s.resolveSignatures names) := by
  induction names generalizing s with
  | nil => exact h
  | cons m names ih => exact ih (h.resolveSignature hr m)

/-- **Loading one of the units.** -/
theorem load (h : Grown us r s) (hr : r.Settled) {u : SourceUnit} (hu : u ∈ us) :
    Grown us r (s.load u).2 := by
  rw [load_eq]
  have hreserve : Grown us r (s.reserve 1) :=
    h.of_types (fun _ => rfl) (.of_types_eq rfl) fun n hn => .inl hn
  exact (hreserve.performAll fun a ha => SourceUnit.of_loadSteps hu ha).resolveSignatures hr _

/-- **Loading all of the units together.** -/
theorem loadAll (hr : r.Settled) (us : List SourceUnit) : Grown us r (r.loadAll us).2 := by
  rw [loadAll_eq]
  have hreserve : Grown us r (r.reserve us.length) :=
    (refl us r).of_types (fun _ => rfl) (.of_types_eq rfl) fun n hn => .inl hn
  have hclaimed : Grown us r (r.claimed us) := by
    refine hreserve.performAll fun a ha => ?_
    obtain ⟨u, hu, ha⟩ := List.mem_flatMap.1 ha
    exact SourceUnit.of_claimSteps hu ha
  refine (hclaimed.performAll fun a ha => ?_).resolveSignatures hr _
  rw [flatten_tasks] at ha
  obtain ⟨⟨u, k⟩, hu, ha⟩ := List.mem_flatMap.1 ha
  exact SourceUnit.of_loadSteps (List.fst_mem_of_mem_zipIdx hu) ha

/-! ## At the end -/

/-- **When all signatures are there, a type is listed only for a reason.** -/
theorem isSome_findType?_iff (h : Grown us r s) (hs : s.Settled)
    (hdeclared : ∀ n, DeclaresType us n → (s.findType? n).isSome) (n : String) :
    (s.findType? n).isSome ↔ Reason us r s n := by
  constructor
  · exact h.reason n
  · intro hreason
    cases hreason with
    | listed hr => exact h.types.isSome hr
    | declared hd => exact hdeclared n hd
    | mentioned hnew hf hn => exact h.mentioned _ _ hnew hf (hs _ _ hf) n hn

/-- **When all signatures are there, a function looks the same whichever way it was loaded.** -/
theorem map_view_eq (h : Grown us r s) (h' : Grown us r s') (hs : s.Settled) (hs' : s'.Settled)
    {m : String} (hbare : (s.findFunc? m).map Func.bare = (s'.findFunc? m).map Func.bare) :
    (s.findFunc? m).map Func.view = (s'.findFunc? m).map Func.view := by
  cases hr : r.findFunc? m with
  | some f => rw [h.kept m f hr, h'.kept m f hr]
  | none =>
    cases hf : s.findFunc? m with
    | none =>
      rw [hf, Option.map_none, eq_comm, Option.map_eq_none_iff] at hbare
      rw [hbare]
    | some f =>
      rw [hf, Option.map_some, eq_comm, Option.map_eq_some_iff] at hbare
      obtain ⟨g, hg, hgf⟩ := hbare
      have hnosign : ∀ {f : Func}, f.signature?.isSome → f.signature? ≠ none := by
        intro f hf hnone
        rw [hnone] at hf
        cases hf
      have hfs := (h.signed m f hr hf).resolve_left (hnosign (hs m f hf))
      have hgs := (h'.signed m g hr hg).resolve_left (hnosign (hs' m g hg))
      rw [hg, Option.map_some, Option.map_some, Func.view_signed_congr hfs hgs hgf.symm]

end Grown

end Registry

end Wiring
