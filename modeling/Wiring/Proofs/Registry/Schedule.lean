import Mathlib
import Wiring.Proofs.Registry.Reachable

/-!
# Loading does not depend on scheduling

After the first pass over a batch all its packages and types are known (`known_tasks`), so the steps
that follow add no package and no type, and what they attach and add does not depend on which unit
is faster (`alike_trace`).  Only the order in which the functions arrive is left to chance, and
nobody sees it: the functions are listed by their places, and their signatures are looked up in this
order.

For every full name the outcome is what was declared before or else what the batch declares first
(`declaration?_batch`, `findFunc?_batch`).
-/

namespace Wiring

namespace Registry

variable {r : Registry} {us : List SourceUnit} {trace : List LoadStep} {fqn : String}

/-- **After the first pass everything is known.** -/
theorem known_tasks : ∀ a ∈ (r.batch us).tasks.flatten, a.Known (r.claimed us) := by
  intro a ha
  rw [flatten_tasks] at ha
  obtain ⟨⟨u, n⟩, hu, ha⟩ := List.mem_flatMap.1 ha
  have hmem : u ∈ us := List.fst_mem_of_mem_zipIdx hu
  have htype : ∀ d ∈ u.types, (u.typeName d).fqn ∈ (r.claimed us).types.keys := fun d hd =>
    mem_typeKeys_performAll (List.mem_flatMap.2 ⟨u, hmem, List.mem_append_right _
      (List.mem_map.2 ⟨d, hd, rfl⟩)⟩)
  rcases mem_loadSteps ha with ⟨p, hp, rfl⟩ | ⟨d, hd, rfl | rfl⟩ | ⟨e, -, rfl⟩
  · exact mem_packageKeys_performAll (List.mem_flatMap.2 ⟨u, hmem, List.mem_append_left _
      (List.mem_map_of_mem hp)⟩)
  · exact htype d hd
  · exact htype d hd
  · trivial

/-- **In which order the units' steps come is hard to tell afterwards.** -/
theorem alike_trace (htrace : trace.Perm (r.batch us).tasks.flatten)
    (hattached : ∀ fqn, trace.filterMap (LoadStep.attached? fqn)
      = (r.batch us).tasks.flatten.filterMap (LoadStep.attached? fqn)) :
    ((r.claimed us).performAll trace).Alike
      ((r.claimed us).performAll (r.batch us).tasks.flatten) := by
  have hknown : ∀ a ∈ trace, a.Known (r.claimed us) := fun a ha =>
    known_tasks a (htrace.mem_iff.1 ha)
  refine ⟨?_, ?_, ?_, ?_, ?_⟩
  · rw [settings_performAll, settings_performAll]
  · rw [packages_performAll_of_known hknown, packages_performAll_of_known known_tasks]
  · refine KeyedSet.ext_entries ?_
    rw [types_performAll hknown, types_performAll known_tasks]
    simp only [hattached]
  · have hperm := htrace.filterMap LoadStep.func?
    rw [arrivals_performAll, arrivals_performAll]
    refine KeyedSet.perm_insertAll (List.Perm.refl _) (hperm.map _) ?_
    rw [List.map_map]
    exact (hperm.map Func.fqn).nodup_iff.2 nodup_fqns_tasks
  · rw [nextUnit_performAll, nextUnit_performAll]

theorem Alike.resolved {r' : Registry} (h : r.Alike r') (hr : r.WellFormed) :
    r.resolved.Alike r'.resolved := by
  rw [Registry.resolved, Registry.resolved, h.funcs_eq hr]
  exact h.resolveSignatures _

/-! ## Who wins -/

theorem declaration?_claimed : (r.claimed us).declaration? fqn = r.declaration? fqn := by
  have hnone : (us.flatMap SourceUnit.claimSteps).filterMap (LoadStep.attached? fqn) = [] :=
    attached_claimSteps us
  rw [claimed, declaration?_performAll, hnone]
  · exact Option.or_none
  · intro a ha hs
    have hfalse : a.attached? fqn = none := List.filterMap_eq_nil_iff.1 hnone a ha
    rw [hfalse] at hs
    cases hs

/-- **A type has the declaration that it had before, or else the first one of the batch.** -/
theorem declaration?_batch :
    ((r.claimed us).performAll (r.batch us).tasks.flatten).declaration? fqn
      = (r.declaration? fqn).or
        (((placed (·.types) r.nextUnit us).find? fun e => e.unit.typeFqn e.decl == fqn).map
          (Placed.declaration r.settings.marker)) := by
  rw [declaration?_performAll fun a ha => mem_typeKeys_of_attached (known_tasks a ha),
    declaration?_claimed, head?_attached_tasks]

/-- **A full name stands for the function that it stood for before, or else for the first one of the
batch.** -/
theorem findFunc?_batch :
    ((r.claimed us).performAll (r.batch us).tasks.flatten).findFunc? fqn
      = (r.findFunc? fqn).or
        (((placed (·.funcs) r.nextUnit us).find? fun e => e.unit.funcFqn e.decl == fqn).map
          (Placed.func r.settings.marker)) := by
  have hclaimed : (r.claimed us).arrivals = r.arrivals := by
    rw [claimed, arrivals_performAll, funcs_claimSteps]
    rfl
  rw [findFunc?, arrivals_performAll, KeyedSet.get?_insertAll, hclaimed, KeyedSet.lookup_map,
    find?_funcs_tasks, Option.map_id', findFunc?]

theorem declaration?_batch_eq_some_iff (h : r.declaration? fqn = none) {decl : TypeDeclaration} :
    ((r.claimed us).performAll (r.batch us).tasks.flatten).declaration? fqn = some decl ↔
      ∃ i j u d, DeclaredFirst (·.types) SourceUnit.typeFqn us fqn i j u d ∧
        decl = declarationOf r.settings.marker u.filePath d := by
  rw [declaration?_batch, h, Option.none_or, Option.map_eq_some_iff]
  constructor
  · rintro ⟨e, he, rfl⟩
    obtain ⟨i, -, hfirst⟩ := find?_placed.1 he
    exact ⟨i, e.ordinal.index, e.unit, e.decl, hfirst, rfl⟩
  · rintro ⟨i, j, u, d, hfirst, rfl⟩
    exact ⟨⟨⟨r.nextUnit + i, j⟩, u, d⟩, find?_placed.2 ⟨i, rfl, hfirst⟩, rfl⟩

theorem bare_findFunc?_batch_eq_some_iff (h : r.findFunc? fqn = none) {f : Func} :
    (((r.claimed us).performAll (r.batch us).tasks.flatten).findFunc? fqn).map Func.bare = some f ↔
      ∃ i j u d, DeclaredFirst (·.funcs) SourceUnit.funcFqn us fqn i j u d ∧
        f = ⟨d, .ofUnit r.settings.marker u, ⟨r.nextUnit + i, j⟩, none⟩ := by
  rw [findFunc?_batch, h, Option.none_or, Option.map_map, Option.map_eq_some_iff]
  constructor
  · rintro ⟨e, he, rfl⟩
    obtain ⟨i, hi, hfirst⟩ := find?_placed.1 he
    refine ⟨i, e.ordinal.index, e.unit, e.decl, hfirst, ?_⟩
    rw [← hi]
    rfl
  · rintro ⟨i, j, u, d, hfirst, rfl⟩
    exact ⟨⟨⟨r.nextUnit + i, j⟩, u, d⟩, find?_placed.2 ⟨i, rfl, hfirst⟩, rfl⟩

end Registry

namespace Loader

variable {r : Registry} {us : List SourceUnit} {jobs : Nat} {s : Loader}

/-- The loader of a batch after the first pass, with `jobs` workers but never more than units. -/
def start (r : Registry) (us : List SourceUnit) (jobs : Nat) : Loader :=
  ⟨r.claimed us, 0, List.replicate (max 1 (min jobs (max us.length 1))) ⟨[], .zero⟩⟩

/-- What a loader leaves when it is done: its registry with all signatures looked up. -/
def result (s : Loader) : Registry :=
  s.registry.resolved

/-- Every load can be finished, by any number of workers. -/
theorem exists_run (r : Registry) (us : List SourceUnit) (jobs : Nat) :
    ∃ s, Run (r.batch us) (start r us jobs) s ∧ s.Finished (r.batch us) := by
  refine exists_finished ?_
  rw [start, Ne, List.replicate_eq_nil_iff]
  omega

/-- A finished run performs the steps of the batch in some order that keeps apart what belongs to
different types. -/
theorem Run.exists_trace (hrun : Run (r.batch us) (start r us jobs) s)
    (hfin : s.Finished (r.batch us)) :
    ∃ trace : List LoadStep, trace.Perm (r.batch us).tasks.flatten ∧
      (∀ fqn, trace.filterMap (LoadStep.attached? fqn)
        = (r.batch us).tasks.flatten.filterMap (LoadStep.attached? fqn)) ∧
      s.registry = (r.claimed us).performAll trace := by
  obtain ⟨trace, htrace, hreg⟩ := hrun.interleaved hfin
  have htasks : (start r us jobs).tasks (r.batch us)
      = List.replicate (max 1 (min jobs (max us.length 1))) [] ++ (r.batch us).tasks := by
    simp [tasks, start]
  rw [htasks] at htrace
  -- the workers begin with empty tasks, which stand in nobody's way
  have hflat : ∀ k, (List.replicate k [] ++ (r.batch us).tasks).flatten
      = (r.batch us).tasks.flatten := by simp
  refine ⟨trace, hflat _ ▸ htrace.perm_flatten, fun fqn => ?_, hreg⟩
  rw [htrace.filterMap_eq, hflat]
  refine List.pairwise_append.2 ⟨?_, apart_tasks, fun l hl m _ => ?_⟩
  · exact List.pairwise_replicate.2 (.inr (.inl rfl))
  · exact .inl (by rw [List.eq_of_mem_replicate hl]; rfl)

theorem stats_start : (start r us jobs).stats = .zero := by
  rw [stats, start, List.map_replicate]
  induction max 1 (min jobs (max us.length 1)) with
  | zero => rfl
  | succ n ih => rw [List.replicate_succ, LoadStats.sum_cons, ih]; rfl

theorem Run.stats_eq_ofUnits (hrun : Run (r.batch us) (start r us jobs) s)
    (hfin : s.Finished (r.batch us)) : s.stats = .ofUnits us := by
  rw [hrun.stats_eq stats_start, List.take_of_length_le hfin.1]
  rfl

/-- A finished run leaves the registry that the sequential run leaves, but for the order of
arrival. -/
theorem Run.alike (hr : r.Reachable) (hrun : Run (r.batch us) (start r us jobs) s)
    (hfin : s.Finished (r.batch us)) : s.registry.Reachable ∧
      s.registry.Alike ((r.claimed us).performAll (r.batch us).tasks.flatten) := by
  obtain ⟨trace, hperm, hattached, hreg⟩ := hrun.exists_trace hfin
  rw [hreg]
  exact ⟨hr.batch hperm, Registry.alike_trace hperm hattached⟩

theorem Run.result_alike (hr : r.Reachable) (hrun : Run (r.batch us) (start r us jobs) s)
    (hfin : s.Finished (r.batch us)) :
    s.result.WellFormed ∧ s.result.Alike (r.loadAll us).2 := by
  obtain ⟨hreach, halike⟩ := hrun.alike hr hfin
  refine ⟨hreach.wellFormed.resolveSignatures _, ?_⟩
  rw [loadAll_eq]
  exact halike.resolved hreach.wellFormed

/-- **Every schedule has the outcome of the sequential run**, and of several declarations of one
full name that was not declared before, the first one of the batch wins. -/
theorem Run.result_eq (hr : r.Reachable) (hrun : Run (r.batch us) (start r us jobs) s)
    (hfin : s.Finished (r.batch us)) :
    s.result.packages = (r.loadAll us).2.packages ∧
      s.result.types = (r.loadAll us).2.types ∧
      s.result.funcs = (r.loadAll us).2.funcs ∧
      s.stats = (r.loadAll us).1 ∧
      (∀ fqn, r.declaration? fqn = none → ∀ decl, s.result.declaration? fqn = some decl ↔
        ∃ i j u d, DeclaredFirst (·.types) SourceUnit.typeFqn us fqn i j u d ∧
          decl = Registry.declarationOf r.settings.marker u.filePath d) ∧
      ∀ fqn, r.findFunc? fqn = none → ∀ f, (s.result.findFunc? fqn).map Func.bare = some f ↔
        ∃ i j u d, DeclaredFirst (·.funcs) SourceUnit.funcFqn us fqn i j u d ∧
          f = ⟨d, .ofUnit r.settings.marker u, ⟨r.nextUnit + i, j⟩, none⟩ := by
  obtain ⟨hreach, halike⟩ := hrun.alike hr hfin
  have hresult : s.result.Alike (r.loadAll us).2 := by
    rw [loadAll_eq]
    exact halike.resolved hreach.wellFormed
  -- who won was settled by the steps; looking up the signatures changes nothing about it
  have hdecl : ∀ fqn, s.result.declaration? fqn
      = ((r.claimed us).performAll (r.batch us).tasks.flatten).declaration? fqn := by
    intro fqn
    rw [result, Registry.resolved, Registry.declaration?_resolveSignatures, halike.declaration?_eq]
  have hfunc : ∀ fqn, (s.result.findFunc? fqn).map Func.bare = (((r.claimed us).performAll
      (r.batch us).tasks.flatten).findFunc? fqn).map Func.bare := by
    intro fqn
    rw [result, Registry.resolved, Registry.bare_findFunc?_resolveSignatures, halike.findFunc?_eq]
  refine ⟨hresult.packages, hresult.types, hresult.funcs_eq ?_, ?_, ?_, ?_⟩
  · exact hreach.wellFormed.resolveSignatures _
  · rw [hrun.stats_eq_ofUnits hfin, loadAll_eq]
  · intro fqn hnone decl
    rw [hdecl, Registry.declaration?_batch_eq_some_iff hnone]
  · intro fqn hnone f
    rw [hfunc, Registry.bare_findFunc?_batch_eq_some_iff hnone]

/-- Two files of a package.  Both declare `T` and `New`, and the second one declares `Other` as
well. -/
def rivals : List SourceUnit :=
  [⟨"p", some "a.go", [], [⟨"T", .struct, []⟩], [.ofName "New"]⟩,
    ⟨"p", some "b.go", [], [⟨"T", .interface, []⟩], [.ofName "New", .ofName "Other"]⟩]

/-- Two workers take a file each, and the one with the second file is done before the other
begins. -/
theorem run_rivals : ∃ s, Run ((Registry.empty .default).batch rivals)
    (start (.empty .default) rivals 2) s ∧ s.Finished ((Registry.empty .default).batch rivals) ∧
      s.registry.arrivals.keys = ["p.Other", "p.New"] := by
  refine ⟨_, ((((((((Relation.ReflTransGen.refl.tail
    (.take 0 (by cbv) (by cbv) (by cbv))).tail (.take 1 (by cbv) (by cbv) (by cbv))).tail
    (.act 1 (by cbv) (by cbv))).tail (.act 1 (by cbv) (by cbv))).tail
    (.act 1 (by cbv) (by cbv))).tail (.act 0 (by cbv) (by cbv))).tail
    (.act 0 (by cbv) (by cbv))).tail (.act 0 (by cbv) (by cbv))).tail
    (.act 0 (by cbv) (by cbv)), ⟨?_, ?_⟩, ?_⟩
  · cbv
  · have hidle : ∀ ws : List Worker, ws.all (·.pending.isEmpty) = true →
        ∀ w ∈ ws, w.pending = [] :=
      fun ws h w hw => List.isEmpty_iff.1 (List.all_eq_true.1 h w hw)
    exact hidle _ (by cbv)
  · cbv

set_option maxRecDepth 4000 in
theorem result_rivals : (Registry.empty .default).Reachable ∧ ∃ s,
    Run ((Registry.empty .default).batch rivals) (start (.empty .default) rivals 2) s ∧
      s.Finished ((Registry.empty .default).batch rivals) ∧
      s.registry.arrivals.keys = ["p.Other", "p.New"] ∧
      s.result.funcs.map Func.fqn = ["p.New", "p.Other"] ∧
      (s.result.types.get? "p.T").map (·.declaration.bind (·.file)) = some (some "a.go") := by
  have hr : (Registry.empty .default).Reachable := @Registry.Reachable.create .default _ (by cbv)
  obtain ⟨s, hrun, hfin, hkeys⟩ := run_rivals
  obtain ⟨-, htypes, hfuncs, -⟩ := Run.result_eq hr hrun hfin
  refine ⟨hr, s, hrun, hfin, hkeys, ?_, ?_⟩
  · rw [hfuncs]
    cbv
  · rw [htypes]
    cbv

end Loader

end Wiring
