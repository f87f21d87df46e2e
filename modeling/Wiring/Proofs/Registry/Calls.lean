import Wiring.Proofs.Registry.Identity

/-!
# Calls

A caller asks a registry for a package or a type, declares a type, loads units, or only looks
something up.  `Call` says what one call can make of a registry, and `ByCalls` which registries come
about by calls, one after the other, from a new one.

Units can be loaded one by one, together, or together by several workers on any schedule, and all
three are `Loaded`.  What several workers leave differs from what one leaves in the order of arrival
only, so for whatever does not tell this order apart the first two are enough (`Loaded.elim`).  And
both of these are made of the same steps, so what the steps of a unit keep is kept by every load
(`Loaded.induct`).
-/

namespace Wiring

namespace Registry

variable {r s : Registry} {us : List SourceUnit} {settings : ParserSettings}

/-! ## What a load leaves -/

theorem settings_loadEach (r : Registry) (us : List SourceUnit) :
    (r.loadEach us).2.settings = r.settings := by
  induction us generalizing r with
  | nil => rfl
  | cons u us ih => exact (ih (r.load u).2).trans (settings_load r u)

theorem settings_loadAll (r : Registry) (us : List SourceUnit) :
    (r.loadAll us).2.settings = r.settings := by
  rw [loadAll_eq, resolved, settings_resolveSignatures, settings_performAll, claimed,
    settings_performAll]

theorem nextUnit_loadEach (r : Registry) (us : List SourceUnit) :
    (r.loadEach us).2.nextUnit = r.nextUnit + us.length := by
  induction us generalizing r with
  | nil => rfl
  | cons u us ih =>
    have hrest := ih (r.load u).2
    rw [nextUnit_load] at hrest
    rw [List.length_cons, Nat.add_comm us.length, ← Nat.add_assoc]
    exact hrest

theorem nextUnit_loadAll (r : Registry) (us : List SourceUnit) :
    (r.loadAll us).2.nextUnit = r.nextUnit + us.length := by
  rw [loadAll_eq, resolved, nextUnit_resolveSignatures, nextUnit_performAll, claimed,
    nextUnit_performAll]

theorem Grown.of_alike {s' : Registry} (h : s.Alike s') (hs' : Grown us r s') : Grown us r s := by
  have htypes : ∀ n, s.findType? n = s'.findType? n := fun n => by
    rw [findType?, h.types, findType?]
  have hfuncs : ∀ n, s.findFunc? n = s'.findFunc? n := h.findFunc?_eq
  refine ⟨⟨?_, ?_⟩, ?_, ?_, ?_, ?_⟩
  · simpa only [htypes] using hs'.types.forms
  · simpa only [htypes] using hs'.types.plain
  · simpa only [hfuncs] using hs'.kept
  · simpa only [hfuncs] using hs'.signed
  · simpa only [htypes, hfuncs] using hs'.mentioned
  · intro n hn
    rw [htypes] at hn
    refine (hs'.reason n hn).mono fun m f hf => ⟨f, ?_, fun _ hn => hn⟩
    rw [hfuncs, hf]

namespace Loaded

/-- What does not tell the order of arrival apart has to be shown of one worker only. -/
theorem elim {P : Registry → Prop} (h : Loaded r us s) (hr : r.AtRest)
    (each : P (r.loadEach us).2) (all : P (r.loadAll us).2)
    (alike : ∀ s s', s.Alike s' → P s' → P s) : P s := by
  cases h with
  | each => exact each
  | all => exact all
  | run hrun hfin => exact alike _ _ (hrun.result_alike hr.reachable hfin).2 all

/-- What the two passes over a unit keep, and looking up a signature, is kept by a load. -/
theorem induct {P : Registry → Prop} (h : Loaded r us s) (hr : r.AtRest) (start : P r)
    (reserve : ∀ s n, P s → P (s.reserve n))
    (claim : ∀ s, ∀ u ∈ us, P s → P (s.performAll u.claimSteps))
    (load : ∀ s, ∀ u ∈ us, ∀ marker n c, P s → P (s.performAll (u.loadSteps marker n c)))
    (resolve : ∀ s m, P s → P (s.resolveSignature m))
    (alike : ∀ s s', s.Alike s' → P s' → P s) : P s := by
  have hresolve : ∀ (names : List String) (s : Registry), P s → P (s.resolveSignatures names) := by
    intro names
    induction names with
    | nil => exact fun _ hs => hs
    | cons m names ih => exact fun s hs => ih _ (resolve s m hs)
  refine h.elim hr ?_ ?_ alike
  · -- one by one: each unit is loaded as a whole before the next
    have heach : ∀ (vs : List SourceUnit) (s : Registry), (∀ u ∈ vs, u ∈ us) → P s →
        P (s.loadEach vs).2 := by
      intro vs
      induction vs with
      | nil => exact fun _ _ hs => hs
      | cons u vs ih =>
        intro s hvs hs
        refine ih _ (fun v hv => hvs v (List.mem_cons_of_mem _ hv)) ?_
        rw [load_eq]
        exact hresolve _ _ (load _ u (hvs u (by simp)) _ _ _ (reserve s 1 hs))
    exact heach us r (fun _ hu => hu) start
  · -- together: all units pass for the first time, and then all for the second
    have hflat : ∀ {α : Type} (g : α → List LoadStep) (l : List α) (s : Registry),
        (∀ x ∈ l, ∀ s, P s → P (s.performAll (g x))) → P s → P (s.performAll (l.flatMap g)) := by
      intro α g l
      induction l with
      | nil => exact fun _ _ hs => hs
      | cons x l ih =>
        intro s hl hs
        rw [List.flatMap_cons, performAll_append]
        exact ih _ (fun y hy => hl y (List.mem_cons_of_mem _ hy)) (hl x (by simp) s hs)
    rw [loadAll_eq, flatten_tasks]
    refine hresolve _ _ (hflat _ _ _ (fun x hx s hs => ?_) ?_)
    · exact load s x.1 (List.fst_mem_of_mem_zipIdx hx) _ _ _ hs
    · exact hflat _ _ _ (fun u hu s hs => claim s u hu hs) (reserve r us.length start)

theorem atRest (h : Loaded r us s) (hr : r.AtRest) : s.AtRest := by
  cases h with
  | each => exact hr.loadEach us
  | all => exact hr.loadAll us
  | run hrun hfin => exact (hrun.alike hr.reachable hfin).1.atRest_resolved

theorem settings_eq (h : Loaded r us s) (hr : r.AtRest) : s.settings = r.settings :=
  h.elim hr (settings_loadEach r us) (settings_loadAll r us) fun _ _ ha hs => ha.settings.trans hs

theorem nextUnit_eq (h : Loaded r us s) (hr : r.AtRest) :
    s.nextUnit = r.nextUnit + us.length :=
  h.elim hr (nextUnit_loadEach r us) (nextUnit_loadAll r us) fun _ _ ha hs => ha.nextUnit.trans hs

theorem grown (h : Loaded r us s) (hr : r.AtRest) : Grown us r s :=
  h.elim hr ((Grown.refl us r).loadEach hr.settled fun _ hu => hu) (.loadAll hr.settled us)
    fun _ _ => .of_alike

end Loaded

/-! ## Calls -/

/-- What one call makes of a registry.  Whoever only looks something up, or asks for constructors,
leaves it as it is. -/
inductive Call : Registry → Registry → Prop
  | package {r : Registry} (path : String) : Call r (r.addPackage (.ofPath path))
  | typeIn {r : Registry} (package : Option String) (name : String) :
      Call r (r.typeIn package name).2
  | declareType {r : Registry} (package : String) (d : TypeDecl) :
      Call r (r.declareType package d).2
  | load {r s : Registry} {us : List SourceUnit} (h : Loaded r us s) : Call r s
  | look {r : Registry} : Call r r

theorem Call.atRest (h : Call r s) (hr : r.AtRest) : s.AtRest := by
  cases h with
  | package path => exact hr.addPackage _
  | typeIn package name => exact hr.typeIn package name
  | declareType package d => exact hr.declareType package d
  | load h => exact h.atRest hr
  | look => exact hr

theorem Call.settings_eq (h : Call r s) (hr : r.AtRest) : s.settings = r.settings := by
  cases h with
  | package path => rfl
  | typeIn package name => cases package <;> rfl
  | declareType package d => rfl
  | load h => exact h.settings_eq hr
  | look => rfl

theorem AtRest.calls (hr : r.AtRest) (h : Relation.ReflTransGen Call r s) :
    s.AtRest ∧ s.settings = r.settings := by
  induction h with
  | refl => exact ⟨hr, rfl⟩
  | tail _ next ih => exact ⟨next.atRest ih.1, (next.settings_eq ih.1).trans ih.2⟩

/-- The registries that come about by calls, one after the other. -/
inductive ByCalls : Registry → Prop
  | create {settings : ParserSettings} {r : Registry} (h : Registry.create settings = .ok r) :
      ByCalls r
  | call {r s : Registry} (h : ByCalls r) (next : Call r s) : ByCalls s

theorem ByCalls.atRest (h : r.ByCalls) : r.AtRest := by
  induction h with
  | create h => exact .create h
  | call _ next ih => exact next.atRest ih

theorem ByCalls.calls (h : r.ByCalls) (hs : Relation.ReflTransGen Call r s) : s.ByCalls := by
  induction hs with
  | refl => exact h
  | tail _ next ih => exact ih.call next

end Registry

end Wiring
