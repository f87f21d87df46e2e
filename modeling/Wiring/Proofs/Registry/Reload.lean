import Wiring.Proofs.Registry.Contents
import Wiring.Proofs.Registry.Extension

/-!
# Loading again what was loaded

A registry `Holds` a unit when everything that the unit says is there: its packages are listed, its
types are declared, its functions have their full names taken.  A load makes this true
(`Loaded.holds`) and no call makes it false again (`Holds.call`).  And where it is true no step of
the unit does anything, so all that a further load changes is the number of the next unit
(`loadEach_of_holds`, `loadAll_of_holds`).

It does not matter that the unit may have lost against others: a declaration that lost did so
because its full name was taken, and it still is.
-/

namespace Wiring

theorem KeyedSet.modify_eq_self {α : Type} {s : KeyedSet α} {key : String} {f : α → α}
    (h : ∀ v, s.get? key = some v → f v = v) : s.modify key f = s := by
  refine KeyedSet.ext_entries ((List.map_congr_left fun e he => ?_).trans (List.map_id _))
  by_cases hk : e.1 = key
  · have hv := h e.2 (hk ▸ KeyedSet.get?_eq_some_iff.2 he)
    rw [if_pos hk, hv, id]
  · rw [if_neg hk, id]

theorem TypeEntry.declare_of_isSome {e : TypeEntry} (h : e.declaration.isSome)
    (d : TypeDeclaration) : e.declare d = e := by
  obtain ⟨d', hd⟩ := Option.isSome_iff_exists.1 h
  rw [declare, hd, Option.getD_some, ← hd]

namespace Registry

variable {r s : Registry} {us old : List SourceUnit} {u : SourceUnit} {steps : List LoadStep}

/-- What a unit imports and declares is there. -/
structure Holds (r : Registry) (u : SourceUnit) : Prop where
  packages : ∀ p ∈ u.packages, p.path ∈ r.packages.keys
  types : ∀ d ∈ u.types, (r.declaration? (u.typeFqn d)).isSome
  funcs : ∀ d ∈ u.funcs, (r.findFunc? (u.funcFqn d)).isSome

/-! ## What is there stays there -/

namespace Holds

theorem mono (h : r.Holds u) (hpackages : r.packages.entries <+: s.packages.entries)
    (htypes : r.TypesKept s) (hfuncs : ∀ m f, r.findFunc? m = some f → s.findFunc? m = some f) :
    s.Holds u where
  packages p hp := (hpackages.map Prod.fst).subset (h.packages p hp)
  types d hd := by
    obtain ⟨decl, hdecl⟩ := Option.isSome_iff_exists.1 (h.types d hd)
    obtain ⟨e, he, hed⟩ := Option.bind_eq_some_iff.1 hdecl
    obtain ⟨e', he', hlater⟩ := htypes.findType? he
    rw [declaration?, he', Option.bind_some]
    rcases hlater.declaration with heq | ⟨hnone, hsome⟩
    · rw [heq, hed]
      rfl
    · exact hsome
  funcs d hd := by
    obtain ⟨f, hf⟩ := Option.isSome_iff_exists.1 (h.funcs d hd)
    rw [hfuncs _ f hf]
    rfl

theorem perform (h : r.Holds u) {a : LoadStep} (ha : a.func? = none) : (r.perform a).Holds u := by
  refine h.mono ?_ (.perform r a) ?_
  · cases a with
    | package p => exact KeyedSet.entries_prefix_insert
    | _ => exact List.prefix_refl _
  · cases a with
    | func f => cases ha
    | _ => exact fun _ _ => id

theorem reserve (h : r.Holds u) (count : Nat) : (r.reserve count).Holds u :=
  ⟨h.packages, h.types, h.funcs⟩

theorem loaded (h : r.Holds u) (hr : r.AtRest) (hs : Loaded r us s) : s.Holds u :=
  h.mono (isPrefix_packages hs hr) (.loaded hs hr) (hs.grown hr).kept

theorem call (h : r.Holds u) (hr : r.AtRest) (hs : Call r s) : s.Holds u := by
  have hpackage : ∀ path, (r.addPackage (.ofPath path)).Holds u := fun path =>
    h.perform (a := .package (.ofPath path)) rfl
  cases hs with
  | package path => exact hpackage path
  | typeIn package name =>
    cases package with
    | none => exact h.perform (a := .type (.lookup none name)) rfl
    | some path => exact (hpackage path).perform (a := .type (.lookup (some (.ofPath path)) name)) rfl
  | declareType package d =>
    have htype := (hpackage package).perform
      (a := .type (.lookup (some (.ofPath package)) d.name)) rfl
    exact htype.perform (a := .attach _ (declarationOf r.settings.marker none d)) rfl
  | load hload => exact h.loaded hr hload
  | look => exact h

end Holds

/-- Whatever a unit declares, a search for its full name finds something. -/
theorem isSome_find?_placed {δ : Type} (get : SourceUnit → List δ) (name : SourceUnit → δ → String)
    (base : Nat) (hu : u ∈ us) {d : δ} (hd : d ∈ get u) :
    ((placed get base us).find? fun e => name e.unit e.decl == name u d).isSome := by
  obtain ⟨i, hi⟩ := List.getElem?_of_mem hu
  obtain ⟨j, hj⟩ := List.getElem?_of_mem hd
  have hmem : (⟨⟨base + i, j⟩, u, d⟩ : Placed δ) ∈ placed get base us :=
    mem_placed.2 ⟨i, hi, rfl, hj⟩
  exact List.find?_isSome.2 ⟨_, hmem, beq_self_eq_true _⟩

/-- **A load makes a registry hold its units.** -/
theorem Loaded.holds (h : Loaded r us s) (hr : r.AtRest) (hu : u ∈ us) : s.Holds u := by
  have hlisted : ∀ p ∈ u.packages, p.path ∈ (r.packages.insertAll
      ((us.flatMap SourceUnit.packages).map fun p => (p.path, p))).keys := by
    intro p hp
    rw [KeyedSet.keys_insertAll, List.mem_eraseDups, List.mem_append, List.map_map]
    exact .inr (List.mem_map_of_mem (List.mem_flatMap.2 ⟨u, hu, hp⟩))
  have hdeclared : ∀ d ∈ u.types, ((r.declaration? (u.typeFqn d)).or
      (((placed (·.types) r.nextUnit us).find? fun e => e.unit.typeFqn e.decl == u.typeFqn d).map
        (Placed.declaration r.settings.marker))).isSome := by
    intro d hd
    rw [Option.isSome_or, Option.isSome_map,
      isSome_find?_placed (·.types) SourceUnit.typeFqn r.nextUnit hu hd, Bool.or_true]
  refine ⟨?_, ?_, fun d hd => ?_⟩
  · refine h.elim (P := fun s => ∀ p ∈ u.packages, p.path ∈ s.packages.keys) hr ?_ ?_ ?_
    · rwa [packages_loadEach]
    · rwa [packages_loadAll]
    · intro s s' ha hs
      rwa [ha.packages]
  · refine h.elim (P := fun s => ∀ d ∈ u.types, (s.declaration? (u.typeFqn d)).isSome) hr ?_ ?_ ?_
    · simpa only [declaration?_loadEach] using hdeclared
    · simpa only [declaration?_loadAll] using hdeclared
    · intro s s' ha hs
      simpa only [ha.declaration?_eq] using hs
  · have hfind := congrArg Option.isSome (h.bare_findFunc? hr (u.funcFqn d))
    rw [Option.isSome_map, Option.isSome_or, Option.isSome_map, Option.isSome_map,
      isSome_find?_placed (·.funcs) SourceUnit.funcFqn r.nextUnit hu hd, Bool.or_true] at hfind
    exact hfind

/-- A registry that came about by calls, among which were loads of the units `us`. -/
inductive After : List SourceUnit → Registry → Prop
  | create {settings : ParserSettings} {r : Registry} (h : Registry.create settings = .ok r) :
      After [] r
  | call {us : List SourceUnit} {r s : Registry} (h : After us r) (next : Call r s) : After us s
  | load {us vs : List SourceUnit} {r s : Registry} (h : After us r) (next : Loaded r vs s) :
      After (us ++ vs) s

theorem After.atRest (h : After old r) : r.AtRest := by
  induction h with
  | create h => exact .create h
  | call _ next ih => exact next.atRest ih
  | load _ next ih => exact next.atRest ih

/-- **What was loaded once is held from then on.** -/
theorem After.holds (h : After old r) : ∀ u ∈ old, r.Holds u := by
  induction h with
  | create => exact fun u hu => absurd hu List.not_mem_nil
  | call h next ih => exact fun u hu => (ih u hu).call h.atRest next
  | load h next ih =>
    intro u hu
    rcases List.mem_append.1 hu with hu | hu
    · exact (ih u hu).loaded h.atRest next
    · exact next.holds h.atRest hu

/-! ## Steps that do nothing -/

theorem performAll_eq_self (h : ∀ a ∈ steps, r.perform a = r) : r.performAll steps = r := by
  induction steps with
  | nil => rfl
  | cons a steps ih =>
    rw [performAll_cons, h a (by simp)]
    exact ih fun b hb => h b (List.mem_cons_of_mem _ hb)

theorem addPackage_of_mem {p : Package} (h : p.path ∈ r.packages.keys) : r.addPackage p = r := by
  rw [addPackage, KeyedSet.insert_of_mem h]

theorem addType_of_mem {t : TypeName} (h : t.fqn ∈ r.types.keys) : r.addType t = r := by
  rw [addType, KeyedSet.insert_of_mem h]

theorem mem_typeKeys_of_isSome {n : String} (h : (r.declaration? n).isSome) : n ∈ r.types.keys :=
  KeyedSet.mem_keys_iff.2 (Option.isSome_of_isSome_bind h)

theorem attach_of_isSome {t : TypeName} (h : (r.declaration? t.fqn).isSome)
    (d : TypeDeclaration) : r.attach t d = r := by
  have hmodify : r.types.modify t.fqn (·.declare d) = r.types := by
    refine KeyedSet.modify_eq_self fun e he => TypeEntry.declare_of_isSome ?_ d
    have hfind : r.findType? t.fqn = some e := he
    rwa [declaration?, hfind, Option.bind_some] at h
  rw [attach, hmodify]

/-- **No step of a unit that is held does anything.** -/
theorem Holds.perform_loadSteps (h : r.Holds u) {marker : String} {n : Nat} {c : Claims} :
    ∀ a ∈ u.loadSteps marker n c, r.perform a = r := by
  intro a ha
  rcases mem_loadSteps ha with ⟨p, hp, rfl⟩ | ⟨d, hd, rfl | rfl⟩ | ⟨e, he, rfl⟩
  · exact addPackage_of_mem (h.packages p hp)
  · exact addType_of_mem (mem_typeKeys_of_isSome (h.types d hd))
  · exact attach_of_isSome (h.types d hd) _
  · obtain ⟨-, rfl, hd⟩ := mem_placedIn.1 he
    exact addFunc_of_mem (KeyedSet.mem_keys_iff.2 (h.funcs e.decl (List.mem_of_getElem? hd)))

/-- A step of a first pass does nothing when its package or its type is listed. -/
theorem perform_of_known {a : LoadStep} (ha : a ∈ u.claimSteps) (h : a.Known r) :
    r.perform a = r := by
  rcases List.mem_append.1 ha with ha | ha
  · obtain ⟨p, -, rfl⟩ := List.mem_map.1 ha
    exact addPackage_of_mem h
  · obtain ⟨d, -, rfl⟩ := List.mem_map.1 ha
    exact addType_of_mem h

theorem Holds.known_claimSteps (h : r.Holds u) : ∀ a ∈ u.claimSteps, a.Known r := by
  intro a ha
  rcases List.mem_append.1 ha with ha | ha
  · obtain ⟨p, hp, rfl⟩ := List.mem_map.1 ha
    exact h.packages p hp
  · obtain ⟨d, hd, rfl⟩ := List.mem_map.1 ha
    exact mem_typeKeys_of_isSome (h.types d hd)

theorem Settled.resolveSignatures_eq (h : r.Settled) (names : List String) :
    r.resolveSignatures names = r := by
  induction names with
  | nil => rfl
  | cons m names ih =>
    have hone : r.resolveSignature m = r := by
      rcases r.resolveSignature_cases m with heq | ⟨f, hf, hnone, -, -⟩
      · exact heq
      · have hsome := h m f hf
        rw [hnone] at hsome
        cases hsome
    exact (congrArg (Registry.resolveSignatures · names) hone).trans ih

/-! ## Loads that do nothing -/

theorem load_of_holds (hr : r.Settled) (h : r.Holds u) : (r.load u).2 = r.reserve 1 := by
  have hsettled : (r.reserve 1).Settled := hr
  rw [load_eq, taken, performAll_eq_self (h.reserve 1).perform_loadSteps]
  exact hsettled.resolveSignatures_eq _

theorem loadEach_of_holds (hr : r.Settled) (h : ∀ u ∈ us, r.Holds u) :
    (r.loadEach us).2 = r.reserve us.length := by
  induction us generalizing r with
  | nil => rfl
  | cons u us ih =>
    have hone := load_of_holds hr (h u (by simp))
    have hrest : ∀ v ∈ us, (r.reserve 1).Holds v := fun v hv =>
      (h v (List.mem_cons_of_mem _ hv)).reserve 1
    have hsum : (r.reserve 1).reserve us.length = r.reserve (u :: us).length := by
      rw [reserve, reserve, reserve, List.length_cons, Nat.add_assoc, Nat.add_comm 1]
    rw [loadEach, hone, ← hsum]
    exact ih (r := r.reserve 1) hr hrest

theorem loadAll_of_holds (hr : r.Settled) (h : ∀ u ∈ us, r.Holds u) :
    (r.loadAll us).2 = r.reserve us.length := by
  have hholds : ∀ u ∈ us, (r.reserve us.length).Holds u := fun u hu => (h u hu).reserve us.length
  have hsettled : (r.reserve us.length).Settled := hr
  have hclaimed : r.claimed us = r.reserve us.length := by
    refine performAll_eq_self fun a ha => ?_
    obtain ⟨u, hu, ha⟩ := List.mem_flatMap.1 ha
    exact perform_of_known ha ((hholds u hu).known_claimSteps a ha)
  have htasks : (r.reserve us.length).performAll (r.batch us).tasks.flatten
      = r.reserve us.length := by
    refine performAll_eq_self fun a ha => ?_
    rw [flatten_tasks] at ha
    obtain ⟨⟨u, n⟩, hu, ha⟩ := List.mem_flatMap.1 ha
    exact (hholds u (List.fst_mem_of_mem_zipIdx hu)).perform_loadSteps a ha
  rw [loadAll_eq, hclaimed, htasks]
  exact hsettled.resolveSignatures_eq _

/-- **Units that are held can be loaded again**, in whichever way, and nothing that is listed
changes. -/
theorem Loaded.of_holds (h : Loaded r us s) (hr : r.AtRest) (hus : ∀ u ∈ us, r.Holds u) :
    s.packages = r.packages ∧ s.types = r.types ∧ s.funcs = r.funcs := by
  have hall := loadAll_of_holds hr.settled hus
  cases h with
  | each =>
    rw [loadEach_of_holds hr.settled hus]
    exact ⟨rfl, rfl, rfl⟩
  | all =>
    rw [hall]
    exact ⟨rfl, rfl, rfl⟩
  | run hrun hfin =>
    obtain ⟨hpackages, htypes, hfuncs⟩ := (LoadedTogether.run hrun hfin).lists_eq hr
    rw [hpackages, htypes, hfuncs, hall]
    exact ⟨rfl, rfl, rfl⟩

end Registry

end Wiring
