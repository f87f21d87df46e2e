import Wiring.Proofs.Registry.Listing
import Wiring.Proofs.Signature

/-!
# What a batch leaves

Loaded into a new registry, units leave nothing but what they say, in an order that can be read off
them (`Contents`).  The packages are those of the units, each followed by its imports.  The
functions are those that are declared first under their full names.  The types are those that are
declared, and then those in the slots of the listed functions, one function after the other.

The packages and the declared types are all listed in the first pass, so the steps that follow list
nothing (`typeKeys_tasks`); then the signatures are looked up in the order of the functions, and
each lists the types that it refers to and that are not listed yet (`typeKeys_resolveSignatures`).
So what is listed is always a list of first occurrences, to which more and more is added.
-/

namespace Wiring

namespace SourceUnit

variable {u : SourceUnit} {marker qualifier : String} {s : Shape}

instance (i : ImportDecl) (name : String) : Decidable (i.Binds name) :=
  inferInstanceAs (Decidable (_ ∨ _))

/-- The package that a qualifier stands for in the file: that of the last import that binds it. -/
def bound? (u : SourceUnit) (qualifier : String) : Option Package :=
  (u.imports.reverse.find? (·.Binds qualifier)).map ImportDecl.package

/-- The full name of the type that a shape leads to in the file, if it leads to one: past pointers,
slices and the keys of maps to the name at the core. -/
def typeAt? (u : SourceUnit) (s : Shape) : Option String :=
  match s.core with
  | .named none name => some (u.package.typeFqn name)
  | .named (some qualifier) name => (u.bound? qualifier).map (·.typeFqn name)
  | _ => none

theorem get?_imports_eq_bound? :
    (FileScope.ofUnit marker u).imports.get? qualifier = u.bound? qualifier := by
  rw [imports_ofUnit, Dict.get?_ofList_filterMap, bound?]
  generalize u.imports.reverse = l
  induction l with
  | nil => rfl
  | cons i l ih =>
    rw [List.findSome?_cons, List.find?_cons, ih]
    by_cases hbinds : i.Binds qualifier
    · rw [Dict.written?_eq_some_iff.2 (ImportDecl.binding?_eq_some_iff.2 ⟨hbinds, rfl⟩)]
      simp [hbinds]
    · rw [Dict.written?_eq_none_iff.2 (ImportDecl.forall_binding?_ne_iff.2 hbinds)]
      simp [hbinds]

/-- The walk along a shape comes to the type that the shape leads to. -/
theorem fqn_meaning? : ((FileScope.ofUnit marker u).meaning? s).map (fun m => m.1.fqn)
    = u.typeAt? s := by
  rw [FileScope.meaning?, FileScope.meaningFrom?_eq, typeAt?]
  rcases s.core_cases with ⟨qualifier, name, hcore⟩ | ⟨text, hcore⟩
  · rw [hcore]
    cases qualifier with
    | none =>
      rw [FileScope.meaningFrom?, Option.map_some, TypeName.fqn_lookup]
      rfl
    | some qualifier =>
      rw [FileScope.meaningFrom?, get?_imports_eq_bound?, Option.map_map]
      congr 1
      funext p
      exact TypeName.fqn_lookup p name
  · rw [hcore]
    rfl

end SourceUnit

/-- The functions that several units declare, of each full name the first one, in the order of their
places. -/
def winners (us : List SourceUnit) : List (Placed FuncDecl) :=
  (placed (·.funcs) 0 us).eraseDupsBy fun e e' =>
    e.unit.funcFqn e.decl == e'.unit.funcFqn e'.decl

namespace Func

variable {f : Func} {r : Registry}

/-- The full names of the types that the signature refers to, in order. -/
def mentionedFqns (f : Func) : List String :=
  (f.scope.mentioned f.decl).map TypeName.fqn

theorem mem_mentionedFqns {n : String} : n ∈ f.mentionedFqns ↔ f.Mentions n := by
  rw [mentionedFqns, List.mem_map]
  rfl

theorem SignedIn.type?_slots (h : f.SignedIn r) (hr : r.TypesNamed) :
    f.slots.map (fun slot => slot.type?.map TypeName.fqn)
      = (FileScope.fieldsOf f.decl).map fun d =>
          (f.scope.meaning? d.shape).map fun m => m.1.fqn := by
  -- a type is listed under its own full name, so the listed form has the same one
  have hform : ∀ t, (r.canonical t).fqn = t.fqn := by
    intro t
    rw [Registry.canonical_eq]
    cases he : r.findType? t.fqn with
    | none => rfl
    | some e => exact hr _ e he
  rw [h.slots_eq, List.map_map]
  refine List.map_congr_left fun d _ => ?_
  cases hm : f.scope.meaning? d.shape <;> simp [FileScope.slot, hm, hform]

/-- Signatures apart, the same functions refer to the same types. -/
theorem flatMap_mentionedFqns (l : List Func) :
    l.flatMap Func.mentionedFqns = (l.map Func.bare).flatMap Func.mentionedFqns := by
  rw [List.flatMap_map]
  rfl

theorem mentionedFqns_func (marker : String) (e : Placed FuncDecl) : (e.func marker).mentionedFqns
    = (FileScope.fieldsOf e.decl).filterMap fun d => e.unit.typeAt? d.shape := by
  change ((FileScope.ofUnit marker e.unit).mentioned e.decl).map TypeName.fqn = _
  rw [FileScope.mentioned, List.map_filterMap]
  refine List.filterMap_congr fun d _ => ?_
  rw [Option.map_map]
  exact SourceUnit.fqn_meaning?

end Func

namespace Registry

variable {r s : Registry} {us : List SourceUnit} {n m : String}

/-! ## The types of signatures -/

/-- Looking up a signature lists what it refers to.  If it was looked up before, that is listed
already. -/
theorem Reachable.typeKeys_resolveSignature (h : r.Reachable) (m : String) :
    (r.resolveSignature m).types.keys
      = (r.types.keys ++ (r.findFunc? m).elim [] Func.mentionedFqns).eraseDups := by
  have hget : r.arrivals.get? m = r.findFunc? m := rfl
  rw [resolveSignature_eq, hget]
  cases hf : r.findFunc? m with
  | none => rw [Option.elim_none, List.append_nil, eraseDups_of_nodup (KeyedSet.nodup_keys _)]
  | some f =>
    rw [Option.elim_some]
    dsimp only
    by_cases hs : f.signature?.isSome = true
    · rw [if_pos hs, eraseDups_append_of_subset (KeyedSet.nodup_keys _)]
      intro n hn
      exact KeyedSet.mem_keys_iff.2 ((h.signedIn m f hf hs).listed n (Func.mem_mentionedFqns.1 hn))
    · rw [if_neg hs]
      dsimp only
      rw [withMentioned, addTypes_eq]
      dsimp only
      rw [KeyedSet.keys_insertAll, List.map_map, Func.mentionedFqns]
      rfl

theorem mentionedFqns_resolveSignature (r : Registry) (m n : String) :
    ((r.resolveSignature m).findFunc? n).elim [] Func.mentionedFqns
      = (r.findFunc? n).elim [] Func.mentionedFqns := by
  have hbare : ∀ r : Registry, (r.findFunc? n).elim [] Func.mentionedFqns
      = ((r.findFunc? n).map Func.bare).elim [] Func.mentionedFqns := by
    intro r
    cases r.findFunc? n <;> rfl
  have hsame : ((r.resolveSignature m).findFunc? n).map Func.bare = (r.findFunc? n).map Func.bare :=
    bare_findFunc?_resolveSignatures [m]
  rw [hbare, hbare r, hsame]

theorem Reachable.typeKeys_resolveSignatures (h : r.Reachable) (names : List String) :
    (r.resolveSignatures names).types.keys = (r.types.keys ++
      names.flatMap fun m => (r.findFunc? m).elim [] Func.mentionedFqns).eraseDups := by
  induction names generalizing r with
  | nil =>
    rw [List.flatMap_nil, List.append_nil, eraseDups_of_nodup (KeyedSet.nodup_keys _)]
    rfl
  | cons m names ih =>
    have hrest := ih (h.resolve m)
    simp only [mentionedFqns_resolveSignature, h.typeKeys_resolveSignature] at hrest
    rw [eraseDups_append_left, List.append_assoc] at hrest
    exact hrest

theorem bare_funcs_resolved (h : r.WellFormed) :
    r.resolved.funcs.map Func.bare = r.funcs.map Func.bare := by
  have hplace : ∀ f : Func, f.bare.ordinal = f.ordinal := fun _ => rfl
  refine map_funcs_eq hplace (h.resolveSignatures _) fun m => ?_
  exact bare_findFunc?_resolveSignatures _

/-- **When the signatures are looked up, the types that they refer to are listed**, in the order of
the functions. -/
theorem Reachable.typeKeys_resolved (h : r.Reachable) : r.resolved.types.keys
    = (r.types.keys ++ r.resolved.funcs.flatMap Func.mentionedFqns).eraseDups := by
  have hlookup : (r.funcs.map Func.fqn).flatMap
      (fun m => (r.findFunc? m).elim [] Func.mentionedFqns)
        = r.funcs.flatMap Func.mentionedFqns := by
    rw [List.flatMap_map]
    refine List.flatMap_congr fun f hf => ?_
    rw [(mem_funcs_iff_findFunc? h.wellFormed).1 hf]
    rfl
  rw [Func.flatMap_mentionedFqns, bare_funcs_resolved h.wellFormed, ← Func.flatMap_mentionedFqns,
    ← hlookup]
  exact h.typeKeys_resolveSignatures _

/-! ## The lists after a batch -/

theorem packageKeys_loadAll (r : Registry) (us : List SourceUnit) : (r.loadAll us).2.packages.keys
    = (r.packages.keys ++ (us.flatMap SourceUnit.packages).map (·.path)).eraseDups := by
  rw [packages_loadAll, KeyedSet.keys_insertAll, List.map_map]
  rfl

theorem typeKeys_claimed : (r.claimed us).types.keys
    = (r.types.keys ++ us.flatMap fun u => u.types.map u.typeFqn).eraseDups := by
  have hsteps : ((us.flatMap SourceUnit.claimSteps).filterMap LoadStep.type?).map TypeName.fqn
      = us.flatMap fun u => u.types.map u.typeFqn := by
    rw [List.filterMap_flatMap, List.map_flatMap]
    refine List.flatMap_congr fun u _ => ?_
    simp [SourceUnit.claimSteps, List.filterMap_map, LoadStep.type?, Function.comp_def,
      SourceUnit.typeFqn]
  rw [claimed, typeKeys_performAll, hsteps]

/-- After the first pass no step lists a type. -/
theorem typeKeys_tasks : ((r.claimed us).performAll (r.batch us).tasks.flatten).types.keys
    = (r.claimed us).types.keys := by
  rw [KeyedSet.keys, types_performAll known_tasks, List.map_map]
  rfl

/-- **The types after a batch**: those that were there, those that the units declare, and those that
the listed functions refer to. -/
theorem AtRest.typeKeys_loadAll (hr : r.AtRest) (us : List SourceUnit) :
    (r.loadAll us).2.types.keys = (r.types.keys ++ (us.flatMap fun u => u.types.map u.typeFqn) ++
      (r.loadAll us).2.funcs.flatMap Func.mentionedFqns).eraseDups := by
  have hbatch : ((r.claimed us).performAll (r.batch us).tasks.flatten).Reachable :=
    hr.reachable.batch (List.Perm.refl _)
  rw [loadAll_eq, hbatch.typeKeys_resolved, typeKeys_tasks, typeKeys_claimed,
    eraseDups_append_left]

/-- Two lists of functions in the order of their places are the same when they have the same
members. -/
theorem eq_of_before {l l' : List Func} (hl : l.Pairwise fun f g => f.ordinal.Before g.ordinal)
    (hl' : l'.Pairwise fun f g => f.ordinal.Before g.ordinal) (h : ∀ f, f ∈ l ↔ f ∈ l') :
    l = l' := by
  have hnodup : ∀ l : List Func,
      (l.Pairwise fun f g => f.ordinal.Before g.ordinal) → l.Nodup := by
    intro l hl
    refine hl.imp fun {f g} hfg heq => ?_
    rw [heq, Ordinal.Before] at hfg
    omega
  refine ((List.perm_ext_iff_of_nodup (hnodup l hl) (hnodup l' hl')).2 h).eq_of_pairwise ?_ hl hl'
  intro f g _ _ hfg hgf
  unfold Ordinal.Before at hfg hgf
  omega

/-- **The functions after a batch in a new registry** are those that are declared first. -/
theorem bare_funcs_loadAll (hr : r.AtRest) (hnone : ∀ n, r.findFunc? n = none)
    (hfirst : r.nextUnit = 0) (us : List SourceUnit) :
    (r.loadAll us).2.funcs.map Func.bare = (winners us).map (Placed.func r.settings.marker) := by
  have hwf : (r.loadAll us).2.WellFormed := (hr.loadAll us).reachable.wellFormed
  have hfind : ∀ n, ((r.loadAll us).2.findFunc? n).map Func.bare =
      ((placed (·.funcs) 0 us).find? fun e => e.unit.funcFqn e.decl == n).map
        (Placed.func r.settings.marker) := by
    intro n
    rw [bare_findFunc?_loadAll, hnone, hfirst]
    exact Option.none_or
  have hlisted : ∀ f, f ∈ (r.loadAll us).2.funcs.map Func.bare ↔
      ((r.loadAll us).2.findFunc? f.fqn).map Func.bare = some f := by
    intro f
    rw [List.mem_map, Option.map_eq_some_iff]
    constructor
    · rintro ⟨g, hg, rfl⟩
      exact ⟨g, (mem_funcs_iff_findFunc? hwf).1 hg, rfl⟩
    · rintro ⟨g, hg, rfl⟩
      exact ⟨g, (mem_funcs_iff_findFunc? hwf).2 hg, rfl⟩
  have hfuncs : ((r.loadAll us).2.funcs.map Func.bare).Pairwise
      fun f g => f.ordinal.Before g.ordinal :=
    List.pairwise_map.2 hwf.pairwise_funcs
  have hwinners : ((winners us).map (Placed.func r.settings.marker)).Pairwise
      fun f g => f.ordinal.Before g.ordinal :=
    List.pairwise_map.2 ((pairwise_placed (·.funcs) 0 us).sublist (eraseDupsBy_sublist _))
  refine eq_of_before hfuncs hwinners fun f => ?_
  rw [hlisted, hfind, Option.map_eq_some_iff, List.mem_map]
  constructor
  · rintro ⟨e, he, rfl⟩
    exact ⟨e, mem_eraseDupsBy_iff.2 he, rfl⟩
  · rintro ⟨e, he, rfl⟩
    exact ⟨e, mem_eraseDupsBy_iff.1 he, rfl⟩

/-! ## A batch in a new registry -/

/-- What is left when units were loaded together, by one worker or by several. -/
inductive LoadedTogether (r : Registry) (us : List SourceUnit) : Registry → Prop
  | all : LoadedTogether r us (r.loadAll us).2
  | run {jobs : Nat} {s : Loader} (hrun : Loader.Run (r.batch us) (Loader.start r us jobs) s)
      (hfin : s.Finished (r.batch us)) : LoadedTogether r us s.result

namespace LoadedTogether

theorem loaded (h : LoadedTogether r us s) : Loaded r us s := by
  cases h with
  | all => exact .all
  | run hrun hfin => exact .run hrun hfin

/-- Several workers list the same as one. -/
theorem lists_eq (h : LoadedTogether r us s) (hr : r.AtRest) :
    s.packages = (r.loadAll us).2.packages ∧ s.types = (r.loadAll us).2.types ∧
      s.funcs = (r.loadAll us).2.funcs := by
  cases h with
  | all => exact ⟨rfl, rfl, rfl⟩
  | run hrun hfin =>
    obtain ⟨hwf, halike⟩ := hrun.result_alike hr.reachable hfin
    exact ⟨halike.packages, halike.types, halike.funcs_eq hwf⟩

variable {settings : ParserSettings}

theorem packagePaths (h : LoadedTogether r us s) (hr : Registry.create settings = .ok r) :
    s.packages.items.map (·.path)
      = ((us.flatMap fun u => u.packagePath :: u.imports.map (·.path)).map
          Package.canonicalPath).eraseDups := by
  have hclosed : s.Closed := ((ByCalls.create hr).call (.load h.loaded)).closed
  have hkeys : r.packages.keys = [] := by
    rw [eq_empty_of_create hr]
    rfl
  rw [KeyedSet.map_items_eq_keys hclosed.packages, (h.lists_eq (.create hr)).1,
    packageKeys_loadAll, hkeys, List.nil_append, List.map_flatMap, List.map_flatMap]
  congr 1
  refine List.flatMap_congr fun u _ => ?_
  rw [SourceUnit.packages, List.map_cons, List.map_map, List.map_cons, List.map_map]
  rfl

theorem bare_funcs (h : LoadedTogether r us s) (hr : Registry.create settings = .ok r) :
    s.funcs.map Func.bare = (winners us).map (Placed.func r.settings.marker) := by
  have hempty : r = empty settings := eq_empty_of_create hr
  rw [(h.lists_eq (.create hr)).2.2]
  refine bare_funcs_loadAll (.create hr) ?_ ?_ us
  · rw [hempty]
    exact fun n => rfl
  · rw [hempty]
    rfl

theorem typeFqns (h : LoadedTogether r us s) (hr : Registry.create settings = .ok r) :
    s.typeFqns = ((us.flatMap fun u => u.types.map fun d => u.package.typeFqn d.name) ++
      (winners us).flatMap fun e =>
        (FileScope.fieldsOf e.decl).filterMap fun d => e.unit.typeAt? d.shape).eraseDups := by
  have hrest : r.AtRest := .create hr
  have hkeys : r.types.keys = [] := by
    rw [eq_empty_of_create hr]
    rfl
  have hdeclared : ∀ u : SourceUnit,
      u.types.map u.typeFqn = u.types.map fun d => u.package.typeFqn d.name :=
    fun u => List.map_congr_left fun d _ => TypeName.fqn_lookup u.package d.name
  obtain ⟨-, htypes, hfuncs⟩ := h.lists_eq hrest
  rw [Registry.typeFqns, KeyedSet.map_items_eq_keys (h.loaded.atRest hrest).reachable.typesNamed,
    htypes, hrest.typeKeys_loadAll, hkeys, List.nil_append, ← hfuncs, Func.flatMap_mentionedFqns,
    h.bare_funcs hr, List.flatMap_map]
  simp only [hdeclared, Func.mentionedFqns_func]

end LoadedTogether

theorem slots_of_bare {es : List (Placed FuncDecl)} {marker : String} (hr : r.AtRest)
    (h : r.funcs.map Func.bare = es.map (Placed.func marker)) :
    r.funcs.map (fun f => f.slots.map fun slot => slot.type?.map TypeName.fqn)
      = es.map fun e => (FileScope.fieldsOf e.decl).map fun d => e.unit.typeAt? d.shape := by
  have hslots : ∀ f ∈ r.funcs, f.slots.map (fun slot => slot.type?.map TypeName.fqn)
      = (FileScope.fieldsOf f.bare.decl).map fun d =>
          (f.bare.scope.meaning? d.shape).map fun m => m.1.fqn :=
    fun f hf => (hr.signedIn hf).type?_slots hr.reachable.typesNamed
  have hmeanings := congrArg (List.map fun f : Func => (FileScope.fieldsOf f.decl).map fun d =>
    (f.scope.meaning? d.shape).map fun m => m.1.fqn) h
  rw [List.map_map, List.map_map] at hmeanings
  refine (List.map_congr_left hslots).trans (hmeanings.trans (List.map_congr_left fun e _ => ?_))
  exact List.map_congr_left fun d _ => SourceUnit.fqn_meaning?

/-- What is listed in a registry, and in which order, as the units say it. -/
structure Contents (us : List SourceUnit) (s : Registry) : Prop where
  packages : s.packages.items.map (·.path)
    = ((us.flatMap fun u => u.packagePath :: u.imports.map (·.path)).map
        Package.canonicalPath).eraseDups
  funcs : s.funcs.map Func.bare = (winners us).map (Placed.func s.settings.marker)
  slots : s.funcs.map (fun f => f.slots.map fun slot => slot.type?.map TypeName.fqn)
    = (winners us).map fun e =>
        (FileScope.fieldsOf e.decl).map fun d => e.unit.typeAt? d.shape
  types : s.typeFqns
    = ((us.flatMap fun u => u.types.map fun d => u.package.typeFqn d.name) ++
        (winners us).flatMap fun e =>
          (FileScope.fieldsOf e.decl).filterMap fun d => e.unit.typeAt? d.shape).eraseDups

/-- **In a new registry, what a batch leaves is what its units say.** -/
theorem contents_fresh {settings : ParserSettings} (hr : Registry.create settings = .ok r)
    (hs : LoadedTogether r us s) : s.Contents us := by
  have hrest : s.AtRest := hs.loaded.atRest (.create hr)
  have hsettings : s.settings = r.settings := hs.loaded.settings_eq (.create hr)
  exact
    { packages := hs.packagePaths hr
      funcs := by
        rw [hsettings]
        exact hs.bare_funcs hr
      slots := slots_of_bare hrest (hs.bare_funcs hr)
      types := hs.typeFqns hr }

/-- Two files of one package.  The first one imports two packages without a name and two that go by
the name `b`.  The second one declares `A` and `New` again, this time with another parameter. -/
def twice : List SourceUnit :=
  [⟨" \"ex.com/a\" ", some "a.go",
      [⟨some "_", "drv"⟩, ⟨some ".", "dot"⟩, ⟨none, "ex.com/b"⟩, ⟨some "b", "ex.com/c"⟩],
      [⟨"A", .struct, []⟩],
      [{ FuncDecl.ofName "New" with
          params := [.ofName "m"
              (.map (.named (some "b") "Key") (.pointer (.named (some "b") "Value"))),
            .ofName "f" (.unsupported "chan Gone")]
          returns := [.unnamed (.pointer (.named none "A")), .unnamed (.named none "error")] },
        { FuncDecl.ofName "Run" with
          receiver := some (.ofName "a" (.pointer (.named none "A")))
          params := [.ofName "x" (.named (some "dot") "Gone")] }]⟩,
    ⟨"ex.com/a", some "b.go", [⟨none, "drv"⟩], [⟨"A", .other, []⟩, ⟨"B", .other, []⟩],
      [{ FuncDecl.ofName "New" with params := [.ofName "x" (.named none "Lost")] },
        { FuncDecl.ofName "Open" with
          params := [.ofName "b" (.slice (.named none "B"))]
          returns := [.unnamed (.named (some "drv") "Conn")] }]⟩]

set_option maxRecDepth 4000 in
theorem contents_fresh_twice : Registry.create .default = .ok (empty .default) ∧
    ∃ s, LoadedTogether (empty .default) twice s ∧ s.Contents twice ∧
      s.packages.items.map (·.path) = ["ex.com/a", "drv", "dot", "ex.com/b", "ex.com/c"] ∧
      s.typeFqns = ["ex.com/a.A", "ex.com/a.B", "ex.com/c.Value", "error", "drv.Conn"] := by
  have hr : Registry.create .default = .ok (empty .default) := by cbv
  have hcontents : ((empty .default).loadAll twice).2.Contents twice := contents_fresh hr .all
  refine ⟨hr, _, .all, hcontents, hcontents.packages.trans ?_, hcontents.types.trans ?_⟩
  · cbv
  · cbv

end Registry

end Wiring
