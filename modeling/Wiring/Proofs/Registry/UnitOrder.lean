import Wiring.Proofs.Registry.Contents

/-!
# The order of the units

Units that declare nothing twice leave the same in whatever order they are loaded together
(`sameModel_of_perm`): the same packages, the same types with the same declarations, and functions
that look the same but for their places.

Each of these is read off the units, one by one: of every type what its file says about it
(`LoadedTogether.declaration?_eq`), of every function what it looks like in a registry that has
listed nothing (`LoadedTogether.views_eq`).  So all that is left of the order of the units is the
order of the lists.  For the functions this needs that their views do not tell when a signature was
looked up, since a type may be listed by the first unit that refers to it or by the one that
declares it.
-/

namespace Wiring

/-- Where no full name is declared twice, every function is the first one of its name. -/
theorem winners_of_nodup {us : List SourceUnit}
    (h : (us.flatMap fun u => u.funcs.map u.funcFqn).Nodup) :
    winners us = placed (·.funcs) 0 us :=
  eraseDupsBy_of_nodup (map_placed SourceUnit.funcFqn (·.funcs) 0 us ▸ h)

def Func.unplaced (f : Func) : Func :=
  { f with ordinal := default }

/-- A function that a unit declares, at no place in particular and without its signature. -/
def SourceUnit.func (u : SourceUnit) (marker : String) (d : FuncDecl) : Func :=
  ⟨d, .ofUnit marker u, default, none⟩

namespace Registry

variable {r s s' : Registry} {us us' : List SourceUnit} {settings : ParserSettings}

/-- What two registries list is the same, but for the order and for the places of the functions. -/
structure SameModel (r s : Registry) : Prop where
  packages : (r.packages.items.map (·.path)).Perm (s.packages.items.map (·.path))
  types : r.typeFqns.Perm s.typeFqns
  declarations : ∀ n, r.declaration? n = s.declaration? n
  funcs : (r.funcs.map fun f => f.unplaced.view).Perm (s.funcs.map fun f => f.unplaced.view)

/-- A function that was signed somewhere looks as if it had been signed here. -/
theorem view_unplaced {f : Func} (h : f.SignedAs r.canonical) :
    f.unplaced.view = (r.signed f.bare.unplaced).view := by
  have hself : TypeName.SameForms r.canonical r.canonical := fun t _ => ⟨rfl, rfl⟩
  have hunplaced : f.unplaced.SignedAs r.canonical := h
  have hsigned : (r.signed f.bare.unplaced).SignedAs r.canonical := ⟨r.canonical, hself, rfl⟩
  exact Func.view_signed_congr hunplaced hsigned rfl

namespace LoadedTogether

theorem signedAs (h : LoadedTogether r us s) (hr : Registry.create settings = .ok r) {f : Func}
    (hf : f ∈ s.funcs) : f.SignedAs r.canonical := by
  have hrest : r.AtRest := .create hr
  have hsettled : s.Settled := (h.loaded.atRest hrest).settled
  have hfind : s.findFunc? f.fqn = some f :=
    (mem_funcs_iff_findFunc? (h.loaded.wellFormed hrest)).1 hf
  have hnone : r.findFunc? f.fqn = none := by
    rw [eq_empty_of_create hr]
    rfl
  rcases (h.loaded.grown hrest).signed _ f hnone hfind with hnosign | hsigned
  · have hsome := hsettled _ f hfind
    rw [hnosign] at hsome
    cases hsome
  · exact hsigned

/-- The functions look as their units say. -/
theorem views_eq (h : LoadedTogether r us s) (hr : Registry.create settings = .ok r)
    (hfuncs : (us.flatMap fun u => u.funcs.map u.funcFqn).Nodup) :
    s.funcs.map (fun f => f.unplaced.view)
      = (us.flatMap fun u => u.funcs.map (u.func r.settings.marker)).map
          fun f => (r.signed f).view := by
  have hunplaced : s.funcs.map (fun f => f.bare.unplaced)
      = us.flatMap fun u => u.funcs.map (u.func r.settings.marker) := by
    have hbare := congrArg (List.map Func.unplaced) (h.bare_funcs hr)
    rw [winners_of_nodup hfuncs, List.map_map, List.map_map] at hbare
    exact hbare.trans (map_placed (fun u => u.func r.settings.marker) (·.funcs) 0 us)
  rw [← hunplaced, List.map_map]
  exact List.map_congr_left fun f hf => view_unplaced (h.signedAs hr hf)

/-- A type is declared as the unit says that declares it. -/
theorem declaration?_eq (h : LoadedTogether r us s) (hr : Registry.create settings = .ok r)
    (n : String) : s.declaration? n
      = ((us.flatMap fun u => u.types.map fun d =>
          (u.typeFqn d, declarationOf r.settings.marker u.filePath d)).find? (·.1 == n)).map
            Prod.snd := by
  have hnone : r.declaration? n = none := by
    rw [eq_empty_of_create hr]
    rfl
  have hall : s.declaration? n = (r.loadAll us).2.declaration? n := by
    rw [declaration?, declaration?, findType?, findType?, (h.lists_eq (.create hr)).2.1]
  have hplaced := map_placed
    (fun u d => (u.typeFqn d, declarationOf r.settings.marker u.filePath d)) (·.types) r.nextUnit us
  rw [hall, declaration?_loadAll, hnone, Option.none_or, ← hplaced, List.find?_map, Option.map_map]
  rfl

end LoadedTogether

/-- **Where nothing is declared twice, the order of the units does not matter.** -/
theorem sameModel_of_perm (hr : Registry.create settings = .ok r)
    (htypes : (us.flatMap fun u => u.types.map u.typeFqn).Nodup)
    (hfuncs : (us.flatMap fun u => u.funcs.map u.funcFqn).Nodup) (hperm : us.Perm us')
    (hs : LoadedTogether r us s) (hs' : LoadedTogether r us' s') : s.SameModel s' := by
  have hflat : ∀ {α : Type} (g : SourceUnit → List α), (us.flatMap g).Perm (us'.flatMap g) :=
    fun g => hperm.flatMap_right g
  have hfuncs' : (us'.flatMap fun u => u.funcs.map u.funcFqn).Nodup :=
    (hflat _).nodup_iff.1 hfuncs
  refine ⟨?_, ?_, fun n => ?_, ?_⟩
  · rw [hs.packagePaths hr, hs'.packagePaths hr]
    exact eraseDups_perm ((hflat _).map _)
  · have hmentions : ∀ us : List SourceUnit, (placed (·.funcs) 0 us).flatMap (fun e =>
        (FileScope.fieldsOf e.decl).filterMap fun d => e.unit.typeAt? d.shape)
          = (us.flatMap fun u => u.funcs.map fun d =>
              (FileScope.fieldsOf d).filterMap fun d => u.typeAt? d.shape).flatten := by
      intro us
      rw [List.flatMap_def, map_placed fun u d =>
        (FileScope.fieldsOf d).filterMap fun d => u.typeAt? d.shape]
    rw [hs.typeFqns hr, hs'.typeFqns hr, winners_of_nodup hfuncs, winners_of_nodup hfuncs',
      hmentions, hmentions]
    exact eraseDups_perm ((hflat _).append (hflat _).flatten)
  · have hnodup : ((us.flatMap fun u => u.types.map fun d =>
        (u.typeFqn d, declarationOf r.settings.marker u.filePath d)).map Prod.fst).Nodup := by
      rw [List.map_flatMap]
      simpa only [List.map_map, Function.comp_def] using htypes
    rw [hs.declaration?_eq hr, hs'.declaration?_eq hr, find?_perm (hflat _) hnodup]
  · rw [hs.views_eq hr hfuncs, hs'.views_eq hr hfuncs']
    exact (hflat _).map _

/-- Two packages.  Each one refers to the type that the other one declares, the first one also to a
type that neither of them declares. -/
def crossed : List SourceUnit :=
  [⟨"ex.com/x", some "x.go", [⟨none, "ex.com/y"⟩], [⟨"X", .struct, ["// X is made of Y."]⟩],
      [{ FuncDecl.ofName "New" with
          params := [.ofName "y" (.pointer (.named (some "y") "Y")),
            .ofName "o" (.slice (.named (some "y") "Option"))]
          returns := [.unnamed (.pointer (.named none "X")), .unnamed (.named none "error")] }]⟩,
    ⟨"ex.com/y", some "y.go", [⟨some "other", "ex.com/x"⟩], [⟨"Y", .interface, []⟩],
      [{ FuncDecl.ofName "Use" with
          receiver := some (.ofName "y" (.pointer (.named none "Y")))
          params := [.ofName "m"
            (.map (.named none "string") (.named (some "other") "X"))] }]⟩]

set_option maxRecDepth 4000 in
theorem sameModel_of_perm_crossed : Registry.create .default = .ok (empty .default) ∧
    (crossed.flatMap fun u => u.types.map u.typeFqn).Nodup ∧
    (crossed.flatMap fun u => u.funcs.map u.funcFqn).Nodup ∧ crossed.Perm crossed.reverse ∧
    ∃ s s', LoadedTogether (empty .default) crossed s ∧
      LoadedTogether (empty .default) crossed.reverse s' ∧ s.SameModel s' ∧
      s.typeFqns = ["ex.com/x.X", "ex.com/y.Y", "ex.com/y.Option", "error"] ∧
      s'.typeFqns = ["ex.com/y.Y", "ex.com/x.X", "ex.com/y.Option", "error"] := by
  have hr : Registry.create .default = .ok (empty .default) := by cbv
  have htypes : (crossed.flatMap fun u => u.types.map u.typeFqn).Nodup := by decide
  have hfuncs : (crossed.flatMap fun u => u.funcs.map u.funcFqn).Nodup := by decide
  have hperm : crossed.Perm crossed.reverse := crossed.reverse_perm.symm
  refine ⟨hr, htypes, hfuncs, hperm, _, _, .all, .all,
    sameModel_of_perm hr htypes hfuncs hperm .all .all, ?_, ?_⟩
  · cbv
  · cbv

end Registry

end Wiring
