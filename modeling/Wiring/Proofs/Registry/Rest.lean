import Wiring.Proofs.Registry.Reachable

/-!
# Registries at rest

While a load is under way functions are listed that have no signature yet.  When it is over they all
have one, and this is how every call leaves a registry: `AtRest` holds of a new registry and is kept
by every call (`AtRest.addPackage`, `AtRest.typeIn`, `AtRest.declareType`, `AtRest.load`,
`AtRest.loadAll`).  Calls that overlap leave a registry at rest as well, once the signatures of all
its functions are looked up (`Reachable.atRest_resolved`).
-/

namespace Wiring

namespace Registry

variable {r : Registry} {n m : String} {f : Func}

/-- A function as it is listed once its signature was asked for. -/
def settle (r : Registry) (f : Func) : Func :=
  if f.signature?.isSome then f else (r.withMentioned f).signed f

theorem isSome_settle (r : Registry) (f : Func) : (r.settle f).signature?.isSome := by
  by_cases hs : f.signature?.isSome = true
  · rw [settle, if_pos hs]
    exact hs
  · rw [settle, if_neg hs]
    rfl

theorem findFunc?_resolveSignature (r : Registry) (n m : String) :
    (r.resolveSignature n).findFunc? m
      = if m = n then (r.findFunc? m).map r.settle else r.findFunc? m := by
  rw [resolveSignature_eq]
  cases hf : r.arrivals.get? n with
  | none =>
    by_cases hm : m = n
    · subst hm
      simp [findFunc?, hf]
    · rw [if_neg hm]
  | some f =>
    dsimp only
    by_cases hs : f.signature?.isSome = true
    · rw [if_pos hs]
      by_cases hm : m = n
      · subst hm
        simp [findFunc?, hf, settle, hs]
      · rw [if_neg hm]
    · rw [if_neg hs, findFunc?, KeyedSet.get?_modify, findFunc?]
      by_cases hm : m = n
      · subst hm
        simp [hf, settle, hs]
      · rw [if_neg hm, if_neg hm]

def Settled (r : Registry) : Prop :=
  ∀ n f, r.findFunc? n = some f → f.signature?.isSome

/-- A signature that is there stays, and one that is asked for is there afterwards. -/
theorem isSome_of_resolveSignatures {names : List String}
    (hf : (r.resolveSignatures names).findFunc? m = some f)
    (h : m ∈ names ∨ ∀ g, r.findFunc? m = some g → g.signature?.isSome) : f.signature?.isSome := by
  induction names generalizing r with
  | nil =>
    rcases h with h | h
    · cases h
    · exact h f hf
  | cons n names ih =>
    refine ih hf ?_
    rw [findFunc?_resolveSignature]
    by_cases hm : m = n
    · right
      intro g hg
      rw [if_pos hm, Option.map_eq_some_iff] at hg
      obtain ⟨g', -, rfl⟩ := hg
      exact isSome_settle r g'
    · rw [if_neg hm]
      exact h.imp_left fun hmem => (List.mem_cons.1 hmem).resolve_left hm

/-- A step that adds no function leaves nothing to look up. -/
theorem Settled.perform (hr : r.Settled) {a : LoadStep} (ha : a.func? = none) :
    (r.perform a).Settled := by
  cases a with
  | func f => cases ha
  | _ => exact hr

/-- The registry after the steps of one unit, with its signatures not yet looked up. -/
def taken (r : Registry) (u : SourceUnit) : Registry :=
  (r.reserve 1).performAll (u.loadSteps r.settings.marker r.nextUnit .empty)

theorem load_eq (r : Registry) (u : SourceUnit) : r.load u = (u.stats,
    (r.taken u).resolveSignatures ((u.functions r.settings.marker r.nextUnit).map Func.fqn)) := by
  have hsettings : (r.taken u).settings = r.settings := settings_performAll
  conv_rhs => rw [← hsettings]
  rfl

theorem arrivals_taken (r : Registry) (u : SourceUnit) : (r.taken u).arrivals
    = r.arrivals.insertAll
        ((u.functions r.settings.marker r.nextUnit).map fun f => (f.fqn, f)) := by
  have hall : (u.functions r.settings.marker r.nextUnit).filter
      (fun f => Claims.empty.ownsFunc f.fqn f.ordinal)
        = u.functions r.settings.marker r.nextUnit := by
    rw [List.filter_eq_self]
    intro f _
    rfl
  rw [taken, arrivals_performAll, funcs_loadSteps, ← functions_eq, hall]
  rfl

theorem findFunc?_taken (r : Registry) (u : SourceUnit) (n : String) : (r.taken u).findFunc? n
    = (r.findFunc? n).or
        ((u.functions r.settings.marker r.nextUnit).find? fun f => f.fqn == n) := by
  rw [findFunc?, arrivals_taken, KeyedSet.get?_insertAll, KeyedSet.lookup_map, Option.map_id',
    findFunc?]

theorem Settled.load (hr : r.Settled) (u : SourceUnit) : (r.load u).2.Settled := by
  intro n f hf
  rw [load_eq] at hf
  refine isSome_of_resolveSignatures hf ?_
  by_cases hmem : n ∈ (u.functions r.settings.marker r.nextUnit).map Func.fqn
  · exact .inl hmem
  · right
    intro g hg
    have hnone : (u.functions r.settings.marker r.nextUnit).find? (fun f => f.fqn == n) = none := by
      rw [List.find?_eq_none]
      intro f hf hname
      exact hmem (List.mem_map.2 ⟨f, hf, beq_iff_eq.1 hname⟩)
    rw [findFunc?_taken, hnone, Option.or_none] at hg
    exact hr n g hg

theorem WellFormed.settled_resolved (hr : r.WellFormed) : r.resolved.Settled := by
  intro n f hf
  refine isSome_of_resolveSignatures hf ?_
  by_cases hn : r.findFunc? n = none
  · right
    intro g hg
    rw [hn] at hg
    cases hg
  · left
    obtain ⟨g, hg⟩ := Option.ne_none_iff_exists'.1 hn
    have hmem : (n, g) ∈ r.arrivals.entries := KeyedSet.get?_eq_some_iff.1 hg
    exact List.mem_map.2 ⟨g, mem_funcs_iff.2 ⟨n, hmem⟩, hr.named _ hmem⟩

/-- The registries that are found when no call is under way. -/
structure AtRest (r : Registry) : Prop where
  reachable : r.Reachable
  settled : r.Settled

theorem AtRest.create {settings : ParserSettings} (h : Registry.create settings = .ok r) :
    r.AtRest := by
  refine ⟨.create h, ?_⟩
  rw [eq_empty_of_create h]
  intro n f hf
  cases hf

/-- A step that adds no function can be taken at rest. -/
theorem AtRest.perform (hr : r.AtRest) {a : LoadStep} (ha : a.func? = none) :
    (r.perform a).AtRest := by
  refine ⟨hr.reachable.perform ?_, hr.settled.perform ha⟩
  cases a with
  | func f => cases ha
  | _ => trivial

theorem AtRest.addPackage (hr : r.AtRest) (p : Package) : (r.addPackage p).AtRest :=
  hr.perform (a := .package p) rfl

theorem AtRest.typeIn (hr : r.AtRest) (package : Option String) (name : String) :
    (r.typeIn package name).2.AtRest := by
  cases package with
  | none => exact hr.perform (a := .type (.lookup none name)) rfl
  | some path =>
    exact (hr.addPackage (.ofPath path)).perform
      (a := .type (.lookup (some (.ofPath path)) name)) rfl

theorem AtRest.declareType (hr : r.AtRest) (package : String) (d : TypeDecl) :
    (r.declareType package d).2.AtRest := by
  have ht := (hr.addPackage (.ofPath package)).perform
    (a := .type (.lookup (some (.ofPath package)) d.name)) rfl
  exact ht.perform (a := .attach _ (declarationOf r.settings.marker none d)) rfl

theorem AtRest.load (hr : r.AtRest) (u : SourceUnit) : (r.load u).2.AtRest :=
  ⟨hr.reachable.load u, hr.settled.load u⟩

/-- **However a registry came about, it is at rest once all signatures are looked up.** -/
theorem Reachable.atRest_resolved (hr : r.Reachable) : r.resolved.AtRest :=
  ⟨hr.resolveSignatures _, hr.wellFormed.settled_resolved⟩

theorem AtRest.loadAll (hr : r.AtRest) (us : List SourceUnit) : (r.loadAll us).2.AtRest := by
  rw [loadAll_eq]
  exact (hr.reachable.batch (List.Perm.refl _)).atRest_resolved

end Registry

end Wiring
