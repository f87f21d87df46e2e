import Wiring.Proofs.Registry.Declared
import Wiring.Proofs.Registry.Loader
import Wiring.Proofs.Registry.Parts

/-!
# Who declares what

The claims of a batch say of every full name where it is declared first (`get?_typeClaims`,
`get?_funcClaims`).  So the steps of the batch attach to a type the declarations of one unit only
(`apart_tasks`), the first one in front (`head?_attached_tasks`), and they add one function of a
full name, the first one (`nodup_fqns_tasks`, `find?_funcs_tasks`).
-/

namespace Wiring

/-- A search that asks for more than is asked here finds the same, if what is found here has it. -/
theorem find?_and {α : Type} {l : List α} {p q : α → Bool}
    (h : ∀ a, l.find? p = some a → q a = true) : l.find? (fun a => p a && q a) = l.find? p := by
  induction l with
  | nil => rfl
  | cons a l ih =>
    rw [List.find?_cons, List.find?_cons]
    cases hp : p a with
    | true => rw [h a (by rw [List.find?_cons, hp])]; rfl
    | false => exact ih fun a' ha' => h a' (by rw [List.find?_cons, hp]; exact ha')

namespace SourceUnit

def typeFqn (u : SourceUnit) (d : TypeDecl) : String :=
  (u.typeName d).fqn

def funcFqn (u : SourceUnit) (d : FuncDecl) : String :=
  funcName u.package d.receiverBase? d.name

end SourceUnit

namespace Placed

def declaration (marker : String) (e : Placed TypeDecl) : TypeDeclaration :=
  Registry.declarationOf marker e.unit.filePath e.decl

/-- A function of a unit, without its signature. -/
def func (marker : String) (e : Placed FuncDecl) : Func :=
  ⟨e.decl, .ofUnit marker e.unit, e.ordinal, none⟩

@[simp] theorem fqn_func (marker : String) (e : Placed FuncDecl) :
    (e.func marker).fqn = e.unit.funcFqn e.decl := rfl

@[simp] theorem ordinal_func (marker : String) (e : Placed FuncDecl) :
    (e.func marker).ordinal = e.ordinal := rfl

end Placed

variable {marker fqn : String} {base : Nat} {us : List SourceUnit} {c : Claims}

/-! ## The claims -/

theorem claim_eq (c : Claims) (u : SourceUnit) (marker : String) (n : Nat) : u.claim c marker n =
    ⟨c.types.insertAll ((placedIn (·.types) n u).map fun e =>
        (e.unit.typeFqn e.decl, e.ordinal.unit)),
      c.funcs.insertAll ((placedIn (·.funcs) n u).map fun e =>
        (e.unit.funcFqn e.decl, e.ordinal))⟩ := by
  have htypes : ((placedIn (·.types) n u).map fun e => (e.unit.typeFqn e.decl, e.ordinal.unit))
      = u.types.map fun d => (u.typeFqn d, n) := by
    rw [placedIn, List.map_map]
    conv_rhs => rw [← List.zipIdx_map_fst 0 u.types, List.map_map]
    rfl
  rw [htypes, SourceUnit.claim, SourceUnit.functions, placedIn, KeyedSet.insertAll,
    KeyedSet.insertAll, List.foldl_map, List.foldl_map, List.map_map, List.foldl_map]
  rfl

/-- **The claims are the declarations in order**, the first of equal names kept. -/
theorem claimsOf_eq (marker : String) (base : Nat) (us : List SourceUnit) :
    Registry.claimsOf marker base us =
      ⟨KeyedSet.empty.insertAll ((placed (·.types) base us).map fun e =>
          (e.unit.typeFqn e.decl, e.ordinal.unit)),
        KeyedSet.empty.insertAll ((placed (·.funcs) base us).map fun e =>
          (e.unit.funcFqn e.decl, e.ordinal))⟩ := by
  have aux : ∀ (l : List (SourceUnit × Nat)) (c : Claims),
      l.foldl (fun c a => a.1.claim c marker a.2) c =
        ⟨c.types.insertAll ((l.flatMap fun a => placedIn (·.types) a.2 a.1).map fun e =>
            (e.unit.typeFqn e.decl, e.ordinal.unit)),
          c.funcs.insertAll ((l.flatMap fun a => placedIn (·.funcs) a.2 a.1).map fun e =>
            (e.unit.funcFqn e.decl, e.ordinal))⟩ := by
    intro l
    induction l with
    | nil => exact fun _ => rfl
    | cons a l ih =>
      intro c
      refine (ih (a.1.claim c marker a.2)).trans ?_
      rw [claim_eq, List.flatMap_cons, List.flatMap_cons, List.map_append, List.map_append,
        KeyedSet.insertAll_append, KeyedSet.insertAll_append]
  exact aux _ _

theorem get?_typeClaims : (Registry.claimsOf marker base us).types.get? fqn
    = ((placed (·.types) base us).find? fun e => e.unit.typeFqn e.decl == fqn).map
      (·.ordinal.unit) := by
  rw [claimsOf_eq, KeyedSet.get?_insertAll, KeyedSet.lookup_map]
  rfl

theorem get?_funcClaims : (Registry.claimsOf marker base us).funcs.get? fqn
    = ((placed (·.funcs) base us).find? fun e => e.unit.funcFqn e.decl == fqn).map
      (·.ordinal) := by
  rw [claimsOf_eq, KeyedSet.get?_insertAll, KeyedSet.lookup_map]
  rfl

/-! ## The steps of one unit -/

theorem attached_typeSteps (u : SourceUnit) (marker : String) (n : Nat) (c : Claims) :
    (u.typeSteps marker n c).filterMap (LoadStep.attached? fqn)
      = ((placedIn (·.types) n u).filter fun e => e.unit.typeFqn e.decl == fqn &&
          c.ownsType fqn e.ordinal.unit).map (Placed.declaration marker) := by
  have aux : ∀ l : List (TypeDecl × Nat),
      (l.flatMap fun (d, _) => LoadStep.type (u.typeName d) :: if c.ownsType (u.typeFqn d) n then
          [.attach (u.typeName d) (Registry.declarationOf marker u.filePath d)] else []).filterMap
        (LoadStep.attached? fqn)
      = ((l.map fun (d, j) => (⟨⟨n, j⟩, u, d⟩ : Placed TypeDecl)).filter fun e =>
          e.unit.typeFqn e.decl == fqn && c.ownsType fqn e.ordinal.unit).map
            (Placed.declaration marker) := by
    intro l
    induction l with
    | nil => rfl
    | cons a l ih =>
      obtain ⟨d, j⟩ := a
      rw [List.flatMap_cons, List.filterMap_append, ih, List.map_cons]
      by_cases hd : u.typeFqn d = fqn
      · have hd' : (u.typeName d).fqn = fqn := hd
        cases ho : c.ownsType fqn n <;>
          simp [List.filterMap_cons, LoadStep.attached?, hd, hd', ho, Placed.declaration]
      · have hd' : (u.typeName d).fqn ≠ fqn := hd
        cases ho : c.ownsType (u.typeFqn d) n <;>
          simp [List.filterMap_cons, LoadStep.attached?, hd, hd', ho]
  have hsteps : u.typeSteps marker n c = u.types.zipIdx.flatMap fun (d, _) =>
      LoadStep.type (u.typeName d) :: if c.ownsType (u.typeFqn d) n then
        [.attach (u.typeName d) (Registry.declarationOf marker u.filePath d)] else [] := by
    conv_lhs => rw [SourceUnit.typeSteps, ← List.zipIdx_map_fst 0 u.types, List.flatMap_map]
    rfl
  rw [hsteps, aux, placedIn]

theorem attached_loadSteps (u : SourceUnit) (marker : String) (n : Nat) (c : Claims) :
    (u.loadSteps marker n c).filterMap (LoadStep.attached? fqn)
      = ((placedIn (·.types) n u).filter fun e => e.unit.typeFqn e.decl == fqn &&
          c.ownsType fqn e.ordinal.unit).map (Placed.declaration marker) := by
  rw [SourceUnit.loadSteps, List.filterMap_append, List.filterMap_append, attached_typeSteps]
  simp [List.filterMap_map, LoadStep.attached?, Function.comp_def]

theorem functions_eq (u : SourceUnit) (marker : String) (n : Nat) :
    u.functions marker n = (placedIn (·.funcs) n u).map (Placed.func marker) := by
  rw [placedIn, List.map_map]
  rfl

/-- The steps of a unit are about its packages, the types that it declares, and its functions. -/
theorem mem_loadSteps {u : SourceUnit} {n : Nat} {a : LoadStep}
    (ha : a ∈ u.loadSteps marker n c) :
    (∃ p ∈ u.packages, a = .package p) ∨
      (∃ d ∈ u.types, a = .type (u.typeName d) ∨
        a = .attach (u.typeName d) (Registry.declarationOf marker u.filePath d)) ∨
      ∃ e ∈ placedIn (·.funcs) n u, a = .func (e.func marker) := by
  rcases List.mem_append.1 ha with ha | ha
  · rcases List.mem_append.1 ha with ha | ha
    · obtain ⟨p, hp, rfl⟩ := List.mem_map.1 ha
      exact .inl ⟨p, hp, rfl⟩
    · obtain ⟨d, hd, ha⟩ := List.mem_flatMap.1 ha
      refine .inr (.inl ⟨d, hd, ?_⟩)
      rcases List.mem_cons.1 ha with rfl | ha
      · exact .inl rfl
      · split at ha
        · exact .inr (List.mem_singleton.1 ha)
        · cases ha
  · obtain ⟨f, hf, rfl⟩ := List.mem_map.1 ha
    have hmem : f ∈ u.functions marker n := (List.mem_filter.1 hf).1
    rw [functions_eq] at hmem
    obtain ⟨e, he, rfl⟩ := List.mem_map.1 hmem
    exact .inr (.inr ⟨e, he, rfl⟩)

theorem funcs_loadSteps (u : SourceUnit) (marker : String) (n : Nat) (c : Claims) :
    (u.loadSteps marker n c).filterMap LoadStep.func?
      = ((placedIn (·.funcs) n u).map (Placed.func marker)).filter fun f =>
          c.ownsFunc f.fqn f.ordinal := by
  have htypes : (u.typeSteps marker n c).filterMap LoadStep.func? = [] := by
    rw [List.filterMap_eq_nil_iff]
    intro a ha
    obtain ⟨d, -, ha⟩ := List.mem_flatMap.1 ha
    rcases List.mem_cons.1 ha with rfl | ha
    · rfl
    · split at ha
      · rw [List.mem_singleton.1 ha]
        rfl
      · cases ha
  rw [SourceUnit.loadSteps, List.filterMap_append, List.filterMap_append, htypes]
  rw [SourceUnit.ownFunctions, functions_eq]
  simp [List.filterMap_map, LoadStep.func?, Function.comp_def]

/-! ## The steps of a batch -/

/-- The units that a registry loads next, with its next numbers. -/
def Registry.batch (r : Registry) (us : List SourceUnit) : Batch :=
  ⟨us, r.nextUnit, r.settings.marker, claimsOf r.settings.marker r.nextUnit us⟩

/-- The registry after the first pass over a batch, with numbers given out for its units. -/
def Registry.claimed (r : Registry) (us : List SourceUnit) : Registry :=
  { r with nextUnit := r.nextUnit + us.length }.performAll (us.flatMap SourceUnit.claimSteps)

variable {r : Registry}

theorem funcs_claimSteps (us : List SourceUnit) :
    (us.flatMap SourceUnit.claimSteps).filterMap LoadStep.func? = [] := by
  rw [List.filterMap_flatMap, List.flatMap_eq_nil_iff]
  intro u _
  simp [SourceUnit.claimSteps, List.filterMap_map, LoadStep.func?, Function.comp_def]

theorem attached_claimSteps (us : List SourceUnit) :
    (us.flatMap SourceUnit.claimSteps).filterMap (LoadStep.attached? fqn) = [] := by
  rw [List.filterMap_flatMap, List.flatMap_eq_nil_iff]
  intro u _
  simp [SourceUnit.claimSteps, List.filterMap_map, LoadStep.attached?, Function.comp_def]

theorem flatten_tasks (b : Batch) : b.tasks.flatten
    = (b.units.zipIdx b.base).flatMap fun (u, n) => u.loadSteps b.marker n b.claims :=
  List.flatMap_def.symm

/-- The registry with all signatures looked up, in the order of the functions. -/
def Registry.resolved (r : Registry) : Registry :=
  r.resolveSignatures (r.funcs.map Func.fqn)

theorem loadAll_eq (r : Registry) (us : List SourceUnit) : r.loadAll us
    = (.ofUnits us, ((r.claimed us).performAll (r.batch us).tasks.flatten).resolved) := by
  rw [flatten_tasks]
  rfl

theorem attached_tasks (b : Batch) : b.tasks.flatten.filterMap (LoadStep.attached? fqn)
    = ((placed (·.types) b.base b.units).filter fun e => e.unit.typeFqn e.decl == fqn &&
        b.claims.ownsType fqn e.ordinal.unit).map (Placed.declaration b.marker) := by
  rw [flatten_tasks, List.filterMap_flatMap, placed, List.filter_flatMap, List.map_flatMap]
  exact List.flatMap_congr fun a _ => attached_loadSteps a.1 _ a.2 _

theorem funcs_tasks (b : Batch) : b.tasks.flatten.filterMap LoadStep.func?
    = ((placed (·.funcs) b.base b.units).map (Placed.func b.marker)).filter fun f =>
        b.claims.ownsFunc f.fqn f.ordinal := by
  rw [flatten_tasks, List.filterMap_flatMap, placed, List.map_flatMap, List.filter_flatMap]
  exact List.flatMap_congr fun a _ => funcs_loadSteps a.1 _ a.2 _

/-- No place is used twice. -/
theorem nodup_ordinals_tasks (b : Batch) :
    ((b.tasks.flatten.filterMap LoadStep.func?).map (·.ordinal)).Nodup := by
  rw [funcs_tasks, List.filter_map, List.map_map]
  exact (nodup_ordinals (·.funcs) b.base b.units).sublist (List.filter_sublist.map _)

theorem mem_funcs_tasks {b : Batch} {f : Func} (hf : f ∈ b.tasks.flatten.filterMap LoadStep.func?) :
    ∃ e ∈ placed (·.funcs) b.base b.units, e.func b.marker = f := by
  rw [funcs_tasks] at hf
  exact List.mem_map.1 (List.mem_filter.1 hf).1

/-! ## What the claims of a batch do -/

/-- **What is attached first is what is declared first.** -/
theorem head?_attached_tasks :
    ((r.batch us).tasks.flatten.filterMap (LoadStep.attached? fqn)).head?
      = ((placed (·.types) r.nextUnit us).find? fun e => e.unit.typeFqn e.decl == fqn).map
        (Placed.declaration r.settings.marker) := by
  rw [attached_tasks, List.head?_map, List.head?_filter, find?_and]
  · rfl
  · intro e he
    have he' : (placed (·.types) r.nextUnit us).find? (fun e => e.unit.typeFqn e.decl == fqn)
        = some e := he
    rw [Claims.ownsType, Registry.batch, get?_typeClaims, he']
    simp

/-- Where a name is claimed by someone, whoever owns it has claimed it. -/
theorem eq_some_of_all {α : Type} [DecidableEq α] {o : Option α} {v : α} (hs : o.isSome)
    (h : o.all (· == v) = true) : o = some v := by
  obtain ⟨w, rfl⟩ := Option.isSome_iff_exists.1 hs
  simpa using h

/-- A unit that attaches something to a type has claimed the type. -/
theorem claimed_of_attached {u : SourceUnit} {n : Nat} (hu : (u, n) ∈ us.zipIdx r.nextUnit)
    (h : (u.loadSteps r.settings.marker n (r.batch us).claims).filterMap
      (LoadStep.attached? fqn) ≠ []) :
    (r.batch us).claims.types.get? fqn = some n := by
  rw [attached_loadSteps] at h
  obtain ⟨d, hd⟩ := List.exists_mem_of_ne_nil _ h
  obtain ⟨e, he, -⟩ := List.mem_map.1 hd
  rw [List.mem_filter, Bool.and_eq_true] at he
  obtain ⟨hmem, hname, hown⟩ := he
  have hplaced : e ∈ placed (·.types) r.nextUnit us := List.mem_flatMap.2 ⟨(u, n), hu, hmem⟩
  have hsome : ((r.batch us).claims.types.get? fqn).isSome := by
    rw [Registry.batch, get?_typeClaims, Option.isSome_map]
    exact List.find?_isSome.2 ⟨e, hplaced, hname⟩
  exact eq_some_of_all hsome ((mem_placedIn.1 hmem).1 ▸ hown)

/-- **No two units attach to one type.** -/
theorem apart_tasks :
    (r.batch us).tasks.Pairwise (Interleaved.Apart (LoadStep.attached? fqn)) := by
  refine List.pairwise_map.2 ((pairwise_zipIdx us r.nextUnit).imp_of_mem ?_)
  rintro ⟨u, n⟩ ⟨v, m⟩ hu hv hlt
  by_contra hboth
  obtain ⟨hn, hm⟩ := not_or.1 hboth
  -- the type would be claimed by both units
  have he := (claimed_of_attached hu hn).symm.trans (claimed_of_attached hv hm)
  rw [Option.some.inj he] at hlt
  exact Nat.lt_irrefl _ hlt

/-- **What is added under a full name is what is declared first.** -/
theorem find?_funcs_tasks :
    ((r.batch us).tasks.flatten.filterMap LoadStep.func?).find? (·.fqn == fqn)
      = ((placed (·.funcs) r.nextUnit us).find? fun e => e.unit.funcFqn e.decl == fqn).map
        (Placed.func r.settings.marker) := by
  rw [funcs_tasks, List.filter_map, List.find?_map, List.find?_filter]
  have hand : (placed (·.funcs) r.nextUnit us).find? (fun e => (e.unit.funcFqn e.decl == fqn) &&
      (r.batch us).claims.ownsFunc fqn e.ordinal)
        = (placed (·.funcs) r.nextUnit us).find? fun e => e.unit.funcFqn e.decl == fqn := by
    refine find?_and fun e he => ?_
    rw [Claims.ownsFunc, Registry.batch, get?_funcClaims, he]
    simp
  rw [← hand]
  congr 2
  funext e
  by_cases he : e.unit.funcFqn e.decl = fqn <;> simp [he]

/-- A place that adds a function has claimed it. -/
theorem claimed_of_added {f : Func}
    (hf : f ∈ (r.batch us).tasks.flatten.filterMap LoadStep.func?) :
    (r.batch us).claims.funcs.get? f.fqn = some f.ordinal := by
  obtain ⟨e, he, rfl⟩ := mem_funcs_tasks hf
  rw [funcs_tasks, List.mem_filter] at hf
  refine eq_some_of_all ?_ hf.2
  rw [Registry.batch, get?_funcClaims, Option.isSome_map]
  exact List.find?_isSome.2 ⟨e, he, by simp⟩

/-- **No full name is added twice.** -/
theorem nodup_fqns_tasks :
    (((r.batch us).tasks.flatten.filterMap LoadStep.func?).map Func.fqn).Nodup := by
  refine List.pairwise_map.2 ((List.pairwise_map.1 (nodup_ordinals_tasks _)).imp_of_mem ?_)
  intro f g hf hg hne he
  have hclaim := claimed_of_added hf
  rw [he, claimed_of_added hg] at hclaim
  exact hne (Option.some.inj hclaim).symm

end Wiring
