import Wiring.Proofs.Registry.Growth
import Wiring.Proofs.Registry.Schedule

/-!
# Loading together and loading one by one

Units that are loaded together leave what they leave when they are loaded one after the other
(`agrees_loadEach`): the same packages and functions in the same order, types under the same full
names with the same declarations, and the same numbers.  Only the order of the types may differ,
since a unit that is loaded alone has its signatures looked up before the next unit is read.

Both ways keep the first declaration of a full name, one by claims and the other by the order of
arrival, so both leave what a search in the list of all declarations finds first
(`bare_findFunc?_loadEach`, `declaration?_loadEach`; for the batch, `findFunc?_batch` and
`declaration?_batch`).  The signatures and the full names of the types then follow from `Grown`.
-/

namespace Wiring

namespace Registry

variable {r s : Registry} {us : List SourceUnit} {u : SourceUnit} {n : String}

def loadEach (r : Registry) : List SourceUnit → LoadStats × Registry
  | [] => (.zero, r)
  | u :: us =>
    let one := r.load u
    let rest := one.2.loadEach us
    (one.1.add rest.1, rest.2)

def typeFqns (r : Registry) : List String :=
  r.types.items.map fun e => e.name.fqn

/-- What is seen of two registries is the same, but for the order of the types. -/
structure Agrees (r s : Registry) : Prop where
  packages : r.packages = s.packages
  funcs : r.funcs.map Func.view = s.funcs.map Func.view
  types : ∀ n, n ∈ r.typeFqns ↔ n ∈ s.typeFqns
  declarations : ∀ n, r.declaration? n = s.declaration? n

/-! ## Types under their full names -/

def TypesNamed (r : Registry) : Prop :=
  ∀ n e, r.findType? n = some e → e.name.fqn = n

theorem TypesNamed.addTypes (h : r.TypesNamed) (ts : List TypeName) :
    (r.addTypes ts).TypesNamed := by
  intro n e he
  rw [findType?_addTypes] at he
  cases hr : r.findType? n with
  | some e' =>
    rw [hr, Option.some_or, Option.some.injEq] at he
    exact he ▸ h n e' hr
  | none =>
    rw [hr, Option.none_or, Option.map_eq_some_iff] at he
    obtain ⟨t, ht, rfl⟩ := he
    have hname := List.find?_some ht
    exact beq_iff_eq.1 hname

theorem TypesNamed.perform (h : r.TypesNamed) (a : LoadStep) : (r.perform a).TypesNamed := by
  cases a with
  | package p => exact h
  | func f => exact h
  | type t => exact h.addTypes [t]
  | attach t d =>
    intro n e he
    have hattach : (r.attach t d).findType? n = some e := he
    rw [findType?_attach] at hattach
    split at hattach
    · obtain ⟨e', he', rfl⟩ := Option.map_eq_some_iff.1 hattach
      exact h n e' he'
    · exact h n e hattach

theorem TypesNamed.resolveSignature (h : r.TypesNamed) (m : String) :
    (r.resolveSignature m).TypesNamed := by
  rcases r.resolveSignature_cases m with heq | ⟨f, -, -, htypes, -⟩
  · rw [heq]
    exact h
  · intro n e he
    rw [findType?, htypes] at he
    exact h.addTypes _ n e he

theorem Reachable.typesNamed (h : r.Reachable) : r.TypesNamed := by
  induction h with
  | create h =>
    rw [eq_empty_of_create h]
    intro n e he
    cases he
  | reserve _ _ ih => exact ih
  | @perform _ _ a _ ih => exact ih.perform a
  | resolve _ m ih => exact ih.resolveSignature m

theorem TypesNamed.mem_typeFqns_iff (h : r.TypesNamed) :
    n ∈ r.typeFqns ↔ (r.findType? n).isSome := by
  rw [typeFqns, KeyedSet.items, List.map_map, List.mem_map, Option.isSome_iff_exists]
  constructor
  · rintro ⟨⟨k, e⟩, hmem, hname⟩
    have hget : r.findType? k = some e := KeyedSet.get?_eq_some_iff.2 hmem
    obtain rfl : k = n := (h k e hget).symm.trans hname
    exact ⟨e, hget⟩
  · rintro ⟨e, he⟩
    exact ⟨(n, e), KeyedSet.get?_eq_some_iff.1 he, h n e he⟩

/-! ## Functions in the order of their places -/

/-- Registries that find the same list the same, whatever part of the functions is looked at. -/
theorem map_funcs_eq {β : Type} {g : Func → β} {place : β → Ordinal}
    (hplace : ∀ f, place (g f) = f.ordinal) (hr : r.WellFormed)
    (h : ∀ m, (r.findFunc? m).map g = (s.findFunc? m).map g) :
    r.funcs.map g = s.funcs.map g := by
  have hnodup : ∀ r : Registry, (r.arrivals.entries.map fun e => (e.1, g e.2)).Nodup := by
    intro r
    refine List.Nodup.of_map Prod.fst ?_
    rw [List.map_map]
    exact r.arrivals.nodup
  have hmem : ∀ (r : Registry) (e : String × β),
      e ∈ (r.arrivals.entries.map fun e => (e.1, g e.2)) ↔ (r.findFunc? e.1).map g = some e.2 := by
    rintro r ⟨m, v⟩
    rw [List.mem_map, Option.map_eq_some_iff]
    constructor
    · rintro ⟨⟨m', f⟩, hf, he⟩
      cases he
      exact ⟨f, KeyedSet.get?_eq_some_iff.2 hf, rfl⟩
    · rintro ⟨f, hf, rfl⟩
      exact ⟨(m, f), KeyedSet.get?_eq_some_iff.1 hf, rfl⟩
  have hentries : (r.arrivals.entries.map fun e => (e.1, g e.2)).Perm
      (s.arrivals.entries.map fun e => (e.1, g e.2)) := by
    rw [List.perm_ext_iff_of_nodup (hnodup r) (hnodup s)]
    intro e
    rw [hmem, hmem, h]
  have hitems : ∀ r : Registry,
      (r.arrivals.entries.map fun e => (e.1, g e.2)).map Prod.snd = r.arrivals.items.map g := by
    intro r
    rw [KeyedSet.items, List.map_map, List.map_map]
    rfl
  have hperm : (r.funcs.map g).Perm (s.funcs.map g) := by
    have hsnd := hentries.map Prod.snd
    rw [hitems, hitems] at hsnd
    exact (perm_funcs.map g).trans (hsnd.trans (perm_funcs.map g).symm)
  have hsorted : ∀ r : Registry,
      (r.funcs.map g).Pairwise fun a b => (place a).le (place b) = true := by
    intro r
    rw [List.pairwise_map]
    simpa only [hplace] using sorted_funcs (r := r)
  -- no two functions have the same place, so there is one order for them
  refine hperm.eq_of_pairwise (fun a b ha hb hab hba => ?_) (hsorted r) (hsorted s)
  obtain ⟨f, hf, rfl⟩ := List.mem_map.1 ha
  obtain ⟨f', hf', rfl⟩ := List.mem_map.1 (hperm.mem_iff.2 hb)
  rw [hplace, hplace] at hab hba
  rw [hr.eq_of_ordinal_eq hf hf' (Ordinal.le_antisymm hab hba)]

/-! ## What loading one unit leaves -/

theorem settings_load (r : Registry) (u : SourceUnit) : (r.load u).2.settings = r.settings := by
  rw [load_eq, settings_resolveSignatures, taken, settings_performAll]
  rfl

theorem nextUnit_load (r : Registry) (u : SourceUnit) :
    (r.load u).2.nextUnit = r.nextUnit + 1 := by
  rw [load_eq, nextUnit_resolveSignatures, taken, nextUnit_performAll]
  rfl

theorem packages_load (r : Registry) (u : SourceUnit) : (r.load u).2.packages
    = r.packages.insertAll (u.packages.map fun p => (p.path, p)) := by
  have hsteps : (u.loadSteps r.settings.marker r.nextUnit .empty).filterMap LoadStep.package?
      = u.packages := by
    have htypes : (u.typeSteps r.settings.marker r.nextUnit .empty).filterMap LoadStep.package?
        = [] := by
      rw [List.filterMap_eq_nil_iff]
      intro a ha
      obtain ⟨d, -, ha⟩ := List.mem_flatMap.1 ha
      rcases List.mem_cons.1 ha with rfl | ha
      · rfl
      · split at ha
        · rw [List.mem_singleton.1 ha]
          rfl
        · cases ha
    rw [SourceUnit.loadSteps, List.filterMap_append, List.filterMap_append, htypes]
    simp [List.filterMap_map, LoadStep.package?, Function.comp_def]
  rw [load_eq, packages_resolveSignatures, taken, packages_performAll, hsteps]
  rfl

theorem bare_findFunc?_load (r : Registry) (u : SourceUnit) (n : String) :
    ((r.load u).2.findFunc? n).map Func.bare = ((r.findFunc? n).map Func.bare).or
      (((placedIn (·.funcs) r.nextUnit u).find? fun e => e.unit.funcFqn e.decl == n).map
        (Placed.func r.settings.marker)) := by
  rw [load_eq, bare_findFunc?_resolveSignatures, findFunc?_taken, functions_eq, List.find?_map,
    Option.map_or, Option.map_map]
  rfl

theorem declaration?_performAll_of_none {steps : List LoadStep}
    (h : steps.filterMap (LoadStep.attached? n) = []) :
    (r.performAll steps).declaration? n = r.declaration? n := by
  rw [declaration?_performAll, h]
  · exact Option.or_none
  · intro a ha hs
    rw [List.filterMap_eq_nil_iff.1 h a ha] at hs
    cases hs

/-- Types that are looked up and declared in turn have the first declaration of their full name. -/
theorem declaration?_declare (r : Registry) (u : SourceUnit) (marker : String) (ds : List TypeDecl)
    (n : String) :
    (r.performAll (ds.flatMap fun d => [LoadStep.type (u.typeName d),
        LoadStep.attach (u.typeName d) (declarationOf marker u.filePath d)])).declaration? n
      = (r.declaration? n).or ((ds.find? fun d => u.typeFqn d == n).map
        (declarationOf marker u.filePath)) := by
  induction ds generalizing r with
  | nil => simp
  | cons d ds ih =>
    -- the type is listed before its declaration is attached, so none is lost
    have hone : ((r.addType (u.typeName d)).attach (u.typeName d)
        (declarationOf marker u.filePath d)).declaration? n
          = (r.declaration? n).or (if u.typeFqn d = n then
              some (declarationOf marker u.filePath d) else none) := by
      have hstep := @declaration?_perform (r.addType (u.typeName d))
        (.attach (u.typeName d) (declarationOf marker u.filePath d)) n ?_
      · rw [declaration?_addType] at hstep
        exact hstep
      · intro hs
        by_cases hn : (u.typeName d).fqn = n
        · rw [← hn]
          exact KeyedSet.mem_keys_insert_self
        · rw [LoadStep.attached?, if_neg hn] at hs
          cases hs
    rw [List.flatMap_cons, performAll_append, ih, List.find?_cons]
    have hpair : r.performAll [LoadStep.type (u.typeName d),
        LoadStep.attach (u.typeName d) (declarationOf marker u.filePath d)]
          = (r.addType (u.typeName d)).attach (u.typeName d)
            (declarationOf marker u.filePath d) := rfl
    rw [hpair, hone, Option.or_assoc]
    by_cases hn : u.typeFqn d = n
    · simp [hn]
    · rw [if_neg hn, Option.none_or, beq_eq_false_iff_ne.2 hn]

theorem declaration?_load (r : Registry) (u : SourceUnit) (n : String) :
    (r.load u).2.declaration? n = (r.declaration? n).or
      (((placedIn (·.types) r.nextUnit u).find? fun e => e.unit.typeFqn e.decl == n).map
        (Placed.declaration r.settings.marker)) := by
  have htypes : u.typeSteps r.settings.marker r.nextUnit .empty = u.types.flatMap fun d =>
      [LoadStep.type (u.typeName d),
        LoadStep.attach (u.typeName d) (declarationOf r.settings.marker u.filePath d)] := rfl
  have hpackages : (u.packages.map LoadStep.package).filterMap (LoadStep.attached? n) = [] := by
    simp [List.filterMap_map, LoadStep.attached?, Function.comp_def]
  have hfuncs : ((u.ownFunctions r.settings.marker r.nextUnit .empty).map
      LoadStep.func).filterMap (LoadStep.attached? n) = [] := by
    simp [List.filterMap_map, LoadStep.attached?, Function.comp_def]
  have hplaced : ((placedIn (·.types) r.nextUnit u).find? fun e =>
      e.unit.typeFqn e.decl == n).map (Placed.declaration r.settings.marker)
        = (u.types.find? fun d => u.typeFqn d == n).map
          (declarationOf r.settings.marker u.filePath) := by
    conv_rhs => rw [← List.zipIdx_map_fst 0 u.types, List.find?_map, Option.map_map]
    rw [placedIn, List.find?_map, Option.map_map]
    rfl
  rw [load_eq, declaration?_resolveSignatures, taken, SourceUnit.loadSteps, performAll_append,
    performAll_append, declaration?_performAll_of_none hfuncs, htypes, declaration?_declare,
    declaration?_performAll_of_none hpackages, hplaced]
  rfl

/-! ## What loading several units leaves -/

theorem placed_cons {δ : Type} (get : SourceUnit → List δ) (base : Nat) (u : SourceUnit)
    (us : List SourceUnit) :
    placed get base (u :: us) = placedIn get base u ++ placed get (base + 1) us := by
  rw [placed, List.zipIdx_cons, List.flatMap_cons]
  rfl

theorem bare_findFunc?_loadEach (r : Registry) (us : List SourceUnit) (n : String) :
    ((r.loadEach us).2.findFunc? n).map Func.bare = ((r.findFunc? n).map Func.bare).or
      (((placed (·.funcs) r.nextUnit us).find? fun e => e.unit.funcFqn e.decl == n).map
        (Placed.func r.settings.marker)) := by
  induction us generalizing r with
  | nil => simp [loadEach, placed]
  | cons u us ih =>
    have hrest := ih (r.load u).2
    rw [settings_load, nextUnit_load, bare_findFunc?_load, Option.or_assoc] at hrest
    rw [placed_cons, List.find?_append, Option.map_or]
    exact hrest

theorem declaration?_loadEach (r : Registry) (us : List SourceUnit) (n : String) :
    (r.loadEach us).2.declaration? n = (r.declaration? n).or
      (((placed (·.types) r.nextUnit us).find? fun e => e.unit.typeFqn e.decl == n).map
        (Placed.declaration r.settings.marker)) := by
  induction us generalizing r with
  | nil => simp [loadEach, placed]
  | cons u us ih =>
    have hrest := ih (r.load u).2
    rw [settings_load, nextUnit_load, declaration?_load, Option.or_assoc] at hrest
    rw [placed_cons, List.find?_append, Option.map_or]
    exact hrest

theorem packages_loadEach (r : Registry) (us : List SourceUnit) : (r.loadEach us).2.packages
    = r.packages.insertAll ((us.flatMap SourceUnit.packages).map fun p => (p.path, p)) := by
  induction us generalizing r with
  | nil => rfl
  | cons u us ih =>
    rw [List.flatMap_cons, List.map_append, KeyedSet.insertAll_append, ← packages_load]
    exact ih (r.load u).2

theorem packages_loadAll (r : Registry) (us : List SourceUnit) : (r.loadAll us).2.packages
    = r.packages.insertAll ((us.flatMap SourceUnit.packages).map fun p => (p.path, p)) := by
  have hsteps : (us.flatMap SourceUnit.claimSteps).filterMap LoadStep.package?
      = us.flatMap SourceUnit.packages := by
    rw [List.filterMap_flatMap]
    refine List.flatMap_congr fun u _ => ?_
    simp [SourceUnit.claimSteps, List.filterMap_map, LoadStep.package?, Function.comp_def]
  rw [loadAll_eq, resolved, packages_resolveSignatures, packages_performAll_of_known known_tasks,
    claimed, packages_performAll, hsteps]

theorem stats_loadEach (r : Registry) (us : List SourceUnit) :
    (r.loadEach us).1 = .ofUnits us := by
  have hsum : ∀ us : List SourceUnit, LoadStats.ofUnits us = .sum (us.map SourceUnit.stats) := by
    intro us
    rw [LoadStats.ofUnits, LoadStats.sum, List.foldl_map]
  induction us generalizing r with
  | nil => rfl
  | cons u us ih =>
    have hrest := ih (r.load u).2
    rw [hsum, List.map_cons, LoadStats.sum_cons, ← hsum, ← hrest]
    rfl

theorem AtRest.loadEach (hr : r.AtRest) (us : List SourceUnit) : (r.loadEach us).2.AtRest := by
  induction us generalizing r with
  | nil => exact hr
  | cons u us ih => exact ih (hr.load u)

theorem Grown.loadEach {vs : List SourceUnit} (h : Grown vs r s) (hr : r.Settled)
    (hus : ∀ u ∈ us, u ∈ vs) : Grown vs r (s.loadEach us).2 := by
  induction us generalizing s with
  | nil => exact h
  | cons u us ih =>
    exact ih (h.load hr (hus u (by simp))) fun v hv => hus v (List.mem_cons_of_mem _ hv)

/-! ## Every declared type is listed -/

theorem isSome_findType?_load
    (h : (r.findType? n).isSome ∨ ∃ d ∈ u.types, u.typeFqn d = n) :
    ((r.load u).2.findType? n).isSome := by
  rw [load_eq]
  refine (TypesFrom.resolveSignatures _ _).isSome ?_
  rw [findType?, ← KeyedSet.mem_keys_iff]
  rcases h with h | ⟨d, hd, rfl⟩
  · exact typeKeys_performAll_subset (KeyedSet.mem_keys_iff.2 h)
  · refine mem_typeKeys_performAll (List.mem_append_left _ (List.mem_append_right _ ?_))
    exact List.mem_flatMap.2 ⟨d, hd, List.mem_cons_self⟩

theorem isSome_findType?_loadEach (h : (r.findType? n).isSome ∨ DeclaresType us n) :
    ((r.loadEach us).2.findType? n).isSome := by
  induction us generalizing r with
  | nil =>
    rcases h with h | ⟨u, hu, -⟩
    · exact h
    · cases hu
  | cons u us ih =>
    refine ih ?_
    rcases h with h | ⟨v, hv, d, hd, hname⟩
    · exact .inl (isSome_findType?_load (.inl h))
    · rcases List.mem_cons.1 hv with rfl | hv
      · exact .inl (isSome_findType?_load (.inr ⟨d, hd, hname⟩))
      · exact .inr ⟨v, hv, d, hd, hname⟩

theorem isSome_findType?_loadAll (h : DeclaresType us n) :
    ((r.loadAll us).2.findType? n).isSome := by
  obtain ⟨u, hu, d, hd, rfl⟩ := h
  rw [loadAll_eq, resolved]
  refine (TypesFrom.resolveSignatures _ _).isSome ?_
  rw [findType?, ← KeyedSet.mem_keys_iff]
  refine typeKeys_performAll_subset (mem_typeKeys_performAll (List.mem_flatMap.2 ⟨u, hu, ?_⟩))
  exact List.mem_append_right _ (List.mem_map.2 ⟨d, hd, rfl⟩)

/-! ## The two ways agree -/

theorem bare_findFunc?_loadAll (r : Registry) (us : List SourceUnit) (n : String) :
    ((r.loadAll us).2.findFunc? n).map Func.bare = ((r.findFunc? n).map Func.bare).or
      (((placed (·.funcs) r.nextUnit us).find? fun e => e.unit.funcFqn e.decl == n).map
        (Placed.func r.settings.marker)) := by
  rw [loadAll_eq, resolved, bare_findFunc?_resolveSignatures, findFunc?_batch, Option.map_or,
    Option.map_map]
  rfl

theorem declaration?_loadAll (r : Registry) (us : List SourceUnit) (n : String) :
    (r.loadAll us).2.declaration? n = (r.declaration? n).or
      (((placed (·.types) r.nextUnit us).find? fun e => e.unit.typeFqn e.decl == n).map
        (Placed.declaration r.settings.marker)) := by
  rw [loadAll_eq, resolved, declaration?_resolveSignatures, declaration?_batch]

/-- Registries that a load made of the same settled registry, with the same functions, agree. -/
theorem Grown.agrees {s' : Registry} (h : Grown us r s) (h' : Grown us r s') (hs : s.AtRest)
    (hs' : s'.AtRest) (hpackages : s.packages = s'.packages)
    (hbare : ∀ m, (s.findFunc? m).map Func.bare = (s'.findFunc? m).map Func.bare)
    (hdeclared : ∀ n, DeclaresType us n → (s.findType? n).isSome)
    (hdeclared' : ∀ n, DeclaresType us n → (s'.findType? n).isSome)
    (hdeclaration : ∀ n, s.declaration? n = s'.declaration? n) : s.Agrees s' := by
  have hview : ∀ m, (s.findFunc? m).map Func.view = (s'.findFunc? m).map Func.view := fun m =>
    h.map_view_eq h' hs.settled hs'.settled (hbare m)
  -- functions that are the same but for their signatures mention the same types
  have hreason : ∀ {s s' : Registry}, (∀ m, (s.findFunc? m).map Func.bare
      = (s'.findFunc? m).map Func.bare) → ∀ n, Reason us r s n → Reason us r s' n := by
    intro s s' hbare n hn
    refine hn.mono fun m f hf => ?_
    have hfind := hbare m
    rw [hf, Option.map_some, eq_comm, Option.map_eq_some_iff] at hfind
    obtain ⟨g, hg, hgf⟩ := hfind
    refine ⟨g, hg, fun n hn => ?_⟩
    have hmentions : g.bare.Mentions n := hgf ▸ hn
    exact hmentions
  have hplace : ∀ f : Func, f.view.ordinal = f.ordinal := fun _ => rfl
  refine ⟨hpackages, map_funcs_eq hplace hs.reachable.wellFormed hview, fun n => ?_, hdeclaration⟩
  rw [hs.reachable.typesNamed.mem_typeFqns_iff, hs'.reachable.typesNamed.mem_typeFqns_iff,
    h.isSome_findType?_iff hs.settled hdeclared, h'.isSome_findType?_iff hs'.settled hdeclared']
  exact ⟨hreason hbare n, hreason (fun m => (hbare m).symm) n⟩

theorem loadAll_agrees (hr : r.AtRest) (us : List SourceUnit) :
    (r.loadAll us).2.Agrees (r.loadEach us).2 := by
  have hall : Grown us r (r.loadAll us).2 := .loadAll hr.settled us
  have heach : Grown us r (r.loadEach us).2 :=
    (Grown.refl us r).loadEach hr.settled fun _ hu => hu
  refine hall.agrees heach (hr.loadAll us) (hr.loadEach us) ?_ (fun m => ?_)
    (fun n => isSome_findType?_loadAll) (fun n hn => isSome_findType?_loadEach (.inr hn))
    fun n => ?_
  · rw [packages_loadAll, packages_loadEach]
  · rw [bare_findFunc?_loadAll, bare_findFunc?_loadEach]
  · rw [declaration?_loadAll, declaration?_loadEach]

/-- The order of arrival is not seen. -/
theorem Alike.agrees {s' : Registry} (h : s.Alike s') (hs : s.WellFormed) (h' : s'.Agrees r) :
    s.Agrees r where
  packages := h.packages.trans h'.packages
  funcs := by rw [h.funcs_eq hs, h'.funcs]
  types n := by rw [typeFqns, h.types]; exact h'.types n
  declarations n := (h.declaration?_eq n).trans (h'.declarations n)

/-- **Units that are loaded together, by however many workers, leave what they leave when they are
loaded one by one.** -/
theorem agrees_loadEach (hr : r.AtRest) (us : List SourceUnit) :
    (r.loadAll us).2.Agrees (r.loadEach us).2 ∧ (r.loadAll us).1 = (r.loadEach us).1 ∧
      ∀ jobs s, Loader.Run (r.batch us) (Loader.start r us jobs) s → s.Finished (r.batch us) →
        s.result.Agrees (r.loadEach us).2 ∧ s.stats = (r.loadEach us).1 := by
  have hagrees := loadAll_agrees hr us
  have hstats : (r.loadAll us).1 = (r.loadEach us).1 := by rw [loadAll_eq, stats_loadEach]
  refine ⟨hagrees, hstats, fun jobs s hrun hfin => ⟨?_, ?_⟩⟩
  · obtain ⟨hwf, halike⟩ := hrun.result_alike hr.reachable hfin
    exact halike.agrees hwf hagrees
  · rw [hrun.stats_eq_ofUnits hfin, stats_loadEach]

/-- A function that takes a named type of its own package. -/
def takes (name type : String) : FuncDecl :=
  { FuncDecl.ofName name with params := [.ofName "x" (.named none type)] }

/-- The file that is there already: a function of a type that no file declares yet. -/
def early : SourceUnit :=
  ⟨"p", some "a.go", [], [], [takes "Open" "T"]⟩

/-- Two more files.  The first one uses the type `U` of the second one, and `Run` is declared twice
in it and once more in the other, which declares `T` and `Open` again as well. -/
def late : List SourceUnit :=
  [⟨"p", some "b.go", [], [⟨"T", .struct, []⟩],
      [takes "Run" "V", takes "Run" "T", takes "Open" "U"]⟩,
    ⟨"p", some "c.go", [], [⟨"T", .other, []⟩, ⟨"U", .interface, []⟩],
      [takes "Open" "T", takes "Run" "U", takes "Stop" "U"]⟩]

theorem atRest_early : ((empty .default).load early).2.AtRest :=
  AtRest.load (@AtRest.create (empty .default) .default (by cbv)) early

theorem agrees_loadEach_late :
    ((empty .default).load early).2.AtRest ∧
      (((empty .default).load early).2.loadAll late).2.Agrees
        (((empty .default).load early).2.loadEach late).2 ∧
      (((empty .default).load early).2.loadEach late).2.funcs.map (fun f => (f.fqn, f.file))
        = [("p.Open", some "a.go"), ("p.Run", some "b.go"), ("p.Stop", some "c.go")] ∧
      (((empty .default).load early).2.loadAll late).2.typeFqns = ["p.T", "p.U", "p.V"] ∧
      (((empty .default).load early).2.loadEach late).2.typeFqns = ["p.T", "p.V", "p.U"] :=
  ⟨atRest_early, (agrees_loadEach atRest_early late).1, by cbv, by cbv, by cbv⟩

end Registry

end Wiring
