import Wiring.Proofs.Registry.Arrival
import Wiring.Proofs.Registry.Claims

/-!
# Registries that come about

A registry changes by numbers for units being given out, by single steps of loads, and by signatures
being looked up.  `Reachable` takes these in any order, so it covers every way in which calls follow
each other or overlap; each call by itself is such a sequence (`Reachable.load`,
`Reachable.loadAll`, `Reachable.typeIn`, `Reachable.declareType`).  The one thing that a step has to
heed is that a place is used for one function only (`LoadStep.Fits`), and this is what makes a
registry `WellFormed` (`Reachable.wellFormed`).
-/

namespace Wiring

/-- A step adds a function of some unit, in the name of a number that was given out and at a place
that is free. -/
def LoadStep.Fits (r : Registry) : LoadStep → Prop
  | func f => (∃ u : SourceUnit, f ∈ u.functions r.settings.marker f.ordinal.unit) ∧
      f.ordinal.unit < r.nextUnit ∧ f.ordinal ∉ r.ordinals
  | _ => True

namespace Registry

variable {r r' : Registry} {a b : LoadStep} {steps : List LoadStep} {us : List SourceUnit}

/-- The registry that has given out numbers for several more units. -/
def reserve (r : Registry) (n : Nat) : Registry :=
  { r with nextUnit := r.nextUnit + n }

/-- The registries that come about. -/
inductive Reachable : Registry → Prop
  | create {settings : ParserSettings} {r : Registry} (h : Registry.create settings = .ok r) :
      Reachable r
  | reserve {r : Registry} (h : Reachable r) (n : Nat) : Reachable (r.reserve n)
  | perform {r : Registry} (h : Reachable r) {a : LoadStep} (fits : a.Fits r) :
      Reachable (r.perform a)
  | resolve {r : Registry} (h : Reachable r) (fqn : String) : Reachable (r.resolveSignature fqn)

theorem eq_empty_of_create {settings : ParserSettings} (h : Registry.create settings = .ok r) :
    r = empty settings := by
  unfold Registry.create at h
  split at h
  · cases h
  · exact (Except.ok.inj h).symm

/-! ## What they promise -/

theorem wellFormed_empty (settings : ParserSettings) : (empty settings).WellFormed where
  named := by simp [empty, KeyedSet.empty]
  numbered := by simp [empty, KeyedSet.empty]
  placed := List.nodup_nil

theorem WellFormed.reserve (h : r.WellFormed) (n : Nat) : (r.reserve n).WellFormed where
  named := h.named
  numbered e he := Nat.lt_add_right n (h.numbered e he)
  placed := h.placed

theorem addFunc_of_mem {f : Func} (h : f.fqn ∈ r.arrivals.keys) : r.addFunc f = r := by
  rw [addFunc, KeyedSet.insert_of_mem h]

theorem arrivals_addFunc_of_notMem {f : Func} (h : f.fqn ∉ r.arrivals.keys) :
    (r.addFunc f).arrivals.entries = r.arrivals.entries ++ [(f.fqn, f)] :=
  KeyedSet.entries_insert_of_notMem h f

theorem ordinals_addFunc_of_notMem {f : Func} (h : f.fqn ∉ r.arrivals.keys) :
    (r.addFunc f).ordinals = r.ordinals ++ [f.ordinal] := by
  rw [ordinals, arrivals_addFunc_of_notMem h, List.map_append, ordinals]
  rfl

theorem WellFormed.addFunc {f : Func} (h : r.WellFormed) (hunit : f.ordinal.unit < r.nextUnit)
    (hplace : f.ordinal ∉ r.ordinals) : (r.addFunc f).WellFormed := by
  by_cases hf : f.fqn ∈ r.arrivals.keys
  · exact (addFunc_of_mem hf).symm ▸ h
  · have hmem : ∀ e ∈ (r.addFunc f).arrivals.entries, e ∈ r.arrivals.entries ∨ e = (f.fqn, f) := by
      intro e he
      rw [arrivals_addFunc_of_notMem hf] at he
      simpa using he
    refine ⟨fun e he => ?_, fun e he => ?_, ?_⟩
    · rcases hmem e he with he | rfl
      · exact h.named e he
      · rfl
    · rcases hmem e he with he | rfl
      · exact h.numbered e he
      · exact hunit
    · rw [ordinals_addFunc_of_notMem hf]
      exact List.nodup_append.2 ⟨h.placed, List.nodup_singleton _, fun o ho o' ho' he =>
        hplace (List.mem_singleton.1 ho' ▸ he ▸ ho)⟩

theorem WellFormed.perform (h : r.WellFormed) (fits : a.Fits r) : (r.perform a).WellFormed := by
  cases a with
  | package p => exact ⟨h.named, h.numbered, h.placed⟩
  | type t => exact ⟨h.named, h.numbered, h.placed⟩
  | attach t d => exact ⟨h.named, h.numbered, h.placed⟩
  | func f => exact h.addFunc fits.2.1 fits.2.2

/-- **Whatever happens, a registry stays well-formed.** -/
theorem Reachable.wellFormed (h : r.Reachable) : r.WellFormed := by
  induction h with
  | @create settings r h =>
    rw [eq_empty_of_create h]
    exact wellFormed_empty settings
  | reserve _ n ih => exact ih.reserve n
  | perform _ fits ih => exact ih.perform fits
  | resolve _ fqn ih => exact ih.resolveSignatures [fqn]

/-! ## Calls are sequences of steps -/

theorem ordinals_perform (a : LoadStep) :
    ∀ o ∈ (r.perform a).ordinals, o ∈ r.ordinals ∨ a.func?.map (·.ordinal) = some o := by
  intro o ho
  cases a with
  | package p => exact .inl ho
  | type t => exact .inl ho
  | attach t d => exact .inl ho
  | func f =>
    by_cases hf : f.fqn ∈ r.arrivals.keys
    · rw [perform, addFunc_of_mem hf] at ho
      exact .inl ho
    · rw [perform, ordinals_addFunc_of_notMem hf, List.mem_append, List.mem_singleton] at ho
      exact ho.imp_right fun h => congrArg some h.symm

@[simp] theorem settings_perform : (r.perform a).settings = r.settings := by
  cases a <;> rfl

@[simp] theorem nextUnit_perform : (r.perform a).nextUnit = r.nextUnit := by
  cases a <;> rfl

/-- Steps that fit where they begin and that use no place twice can be taken one after the other. -/
theorem Reachable.performAll (h : r.Reachable)
    (fits : ∀ f ∈ steps.filterMap LoadStep.func?, (LoadStep.func f).Fits r)
    (hnd : ((steps.filterMap LoadStep.func?).map (·.ordinal)).Nodup) :
    (r.performAll steps).Reachable := by
  induction steps generalizing r with
  | nil => exact h
  | cons a steps ih =>
    have hsteps : steps.filterMap LoadStep.func? ⊆ (a :: steps).filterMap LoadStep.func? := by
      rw [List.filterMap_cons]
      split <;> simp
    have ha : a.Fits r := by
      cases a with
      | func f => exact fits f (by simp [LoadStep.func?])
      | _ => trivial
    refine ih (h.perform ha) (fun f hf => ?_) (hnd.sublist ?_)
    · -- a place that was free at the beginning can only have been taken by `a`, which has another
      obtain ⟨hunit, hnumber, hplace⟩ := fits f (hsteps hf)
      refine ⟨by rwa [settings_perform], by rwa [nextUnit_perform], fun ho => ?_⟩
      rcases ordinals_perform a _ ho with ho | ho
      · exact hplace ho
      · obtain ⟨g, hg, hgo⟩ := Option.map_eq_some_iff.1 ho
        rw [List.filterMap_cons, hg, List.map_cons, List.nodup_cons] at hnd
        exact hnd.1 (hgo ▸ List.mem_map_of_mem hf)
    · rw [List.filterMap_cons]
      split
      · exact List.Sublist.refl _
      · exact List.sublist_cons_self ..

theorem Reachable.resolveSignatures (h : r.Reachable) (fqns : List String) :
    (r.resolveSignatures fqns).Reachable := by
  induction fqns generalizing r with
  | nil => exact h
  | cons fqn fqns ih => exact ih (h.resolve fqn)

/-- The first pass over a batch. -/
theorem Reachable.claimed (h : r.Reachable) (us : List SourceUnit) : (r.claimed us).Reachable := by
  refine Reachable.performAll (h.reserve us.length) ?_ ?_ <;> rw [funcs_claimSteps]
  · exact fun f hf => absurd hf (List.not_mem_nil)
  · exact List.nodup_nil

/-- The steps of several units in any order, if the numbers of the units are given out and not used
so far. -/
theorem Reachable.tasks (h : r.Reachable) {b : Batch} {trace : List LoadStep}
    (htrace : trace.Perm b.tasks.flatten) (hmarker : b.marker = r.settings.marker)
    (hnext : b.base + b.units.length ≤ r.nextUnit) (hfree : ∀ o ∈ r.ordinals, o.unit < b.base) :
    (r.performAll trace).Reachable := by
  have hperm := htrace.filterMap LoadStep.func?
  refine h.performAll (fun f hf => ?_) ((hperm.map _).nodup_iff.2 (nodup_ordinals_tasks b))
  obtain ⟨e, he, rfl⟩ := mem_funcs_tasks (hperm.mem_iff.1 hf)
  obtain ⟨i, hu, hi, hd⟩ := mem_placed.1 he
  have hlt : i < b.units.length := (List.getElem?_eq_some_iff.1 hu).1
  refine ⟨⟨e.unit, ?_⟩, ?_, fun ho => ?_⟩
  · rw [functions_eq, hmarker]
    exact List.mem_map_of_mem (mem_placedIn.2 ⟨rfl, rfl, hd⟩)
  · rw [Placed.ordinal_func, hi]
    omega
  · have hlow := hfree _ ho
    rw [Placed.ordinal_func, hi] at hlow
    omega

theorem WellFormed.unit_lt (h : r.WellFormed) {o : Ordinal} (ho : o ∈ r.ordinals) :
    o.unit < r.nextUnit := by
  obtain ⟨e, he, rfl⟩ := List.mem_map.1 ho
  exact h.numbered e he

/-- The steps of a batch in any order, after the first pass. -/
theorem Reachable.batch (h : r.Reachable) {trace : List LoadStep}
    (htrace : trace.Perm (r.batch us).tasks.flatten) :
    ((r.claimed us).performAll trace).Reachable := by
  have hclaimed : (r.claimed us).ordinals = r.ordinals := by
    rw [ordinals, Registry.claimed, arrivals_performAll, funcs_claimSteps]
    rfl
  refine (h.claimed us).tasks htrace ?_ ?_ fun o ho => h.wellFormed.unit_lt (hclaimed ▸ ho)
  · rw [Registry.claimed, settings_performAll]
    rfl
  · rw [Registry.claimed, nextUnit_performAll]
    exact Nat.le_refl _

theorem Reachable.loadAll (h : r.Reachable) (us : List SourceUnit) :
    (r.loadAll us).2.Reachable := by
  rw [loadAll_eq]
  exact (h.batch (List.Perm.refl _)).resolveSignatures _

theorem Reachable.load (h : r.Reachable) (u : SourceUnit) : (r.load u).2.Reachable := by
  refine Reachable.resolveSignatures ?_ _
  have htasks : u.loadSteps r.settings.marker r.nextUnit .empty
      = (Batch.tasks ⟨[u], r.nextUnit, r.settings.marker, .empty⟩).flatten := by
    simp [Batch.tasks]
  rw [htasks]
  exact (h.reserve 1).tasks (List.Perm.refl _) rfl (Nat.le_refl _)
    fun o ho => h.wellFormed.unit_lt ho

theorem Reachable.typeIn (h : r.Reachable) (package : Option String) (name : String) :
    (r.typeIn package name).2.Reachable := by
  cases package with
  | none => exact h.perform (a := .type (.lookup none name)) trivial
  | some path =>
    have hp : (r.addPackage (.ofPath path)).Reachable := h.perform (a := .package _) trivial
    exact hp.perform (a := .type (.lookup (some (.ofPath path)) name)) trivial

theorem Reachable.declareType (h : r.Reachable) (package : String) (d : TypeDecl) :
    (r.declareType package d).2.Reachable := by
  have hp : (r.addPackage (.ofPath package)).Reachable := h.perform (a := .package _) trivial
  have ht := hp.perform (a := .type (.lookup (some (.ofPath package)) d.name)) trivial
  exact ht.perform (a := .attach _ (declarationOf r.settings.marker none d)) trivial

end Registry

end Wiring
