import Wiring.Proofs.KeyedSet
import Wiring.Registry.Load

/-!
# What steps do to the parts of a registry

Each step of a load touches one part of the registry, so a whole run of steps can be read off part
by part: the packages and the functions of the steps are stored in a row (`packages_performAll`,
`arrivals_performAll`), and where the packages and types are known already, the types only gain the
declarations that the steps attach (`types_performAll`), each type the one that is attached first
(`declaration?_performAll`).
-/

namespace Wiring

namespace LoadStep

def package? : LoadStep → Option Package
  | package p => some p
  | _ => none

def type? : LoadStep → Option TypeName
  | type t => some t
  | _ => none

def func? : LoadStep → Option Func
  | func f => some f
  | _ => none

/-- The declaration that a step attaches to the type of a full name. -/
def attached? (fqn : String) : LoadStep → Option TypeDeclaration
  | attach t d => if t.fqn = fqn then some d else none
  | _ => none

/-- The package or the type that a step is about is known. -/
def Known (r : Registry) : LoadStep → Prop
  | package p => p.path ∈ r.packages.keys
  | type t => t.fqn ∈ r.types.keys
  | attach t _ => t.fqn ∈ r.types.keys
  | func _ => True

end LoadStep

def Func.bare (f : Func) : Func :=
  { f with signature? := none }

@[simp] theorem Func.fqn_bare (f : Func) : f.bare.fqn = f.fqn := rfl

@[simp] theorem Func.ordinal_bare (f : Func) : f.bare.ordinal = f.ordinal := rfl

namespace Registry

variable {r : Registry} {steps : List LoadStep}

/-! ## Steps of a load -/

@[simp] theorem performAll_nil : r.performAll [] = r := rfl

@[simp] theorem performAll_cons (a : LoadStep) : r.performAll (a :: steps)
    = (r.perform a).performAll steps := rfl

theorem performAll_append (l m : List LoadStep) :
    r.performAll (l ++ m) = (r.performAll l).performAll m :=
  List.foldl_append

@[simp] theorem settings_performAll : (r.performAll steps).settings = r.settings := by
  induction steps generalizing r with
  | nil => rfl
  | cons a steps ih => rw [performAll_cons, ih]; cases a <;> rfl

@[simp] theorem nextUnit_performAll : (r.performAll steps).nextUnit = r.nextUnit := by
  induction steps generalizing r with
  | nil => rfl
  | cons a steps ih => rw [performAll_cons, ih]; cases a <;> rfl

theorem packages_performAll : (r.performAll steps).packages
    = r.packages.insertAll ((steps.filterMap LoadStep.package?).map fun p => (p.path, p)) := by
  induction steps generalizing r with
  | nil => rfl
  | cons a steps ih => rw [performAll_cons, ih]; cases a <;> rfl

theorem arrivals_performAll : (r.performAll steps).arrivals
    = r.arrivals.insertAll ((steps.filterMap LoadStep.func?).map fun f => (f.fqn, f)) := by
  induction steps generalizing r with
  | nil => rfl
  | cons a steps ih => rw [performAll_cons, ih]; cases a <;> rfl

theorem typeKeys_perform_subset (a : LoadStep) : r.types.keys ⊆ (r.perform a).types.keys := by
  cases a with
  | type t => exact KeyedSet.keys_insert_subset
  | attach t d => exact (KeyedSet.keys_modify _).symm ▸ List.Subset.refl _
  | package p => exact List.Subset.refl _
  | func f => exact List.Subset.refl _

theorem typeKeys_performAll_subset : r.types.keys ⊆ (r.performAll steps).types.keys := by
  induction steps generalizing r with
  | nil => exact List.Subset.refl _
  | cons a steps ih => exact List.Subset.trans (typeKeys_perform_subset a) ih

/-- Types are listed when they are looked up, and nothing else lists a type. -/
theorem typeKeys_performAll : (r.performAll steps).types.keys
    = (r.types.keys ++ (steps.filterMap LoadStep.type?).map TypeName.fqn).eraseDups := by
  induction steps generalizing r with
  | nil => rw [performAll_nil, List.filterMap_nil, List.map_nil, List.append_nil,
      eraseDups_of_nodup r.types.nodup_keys]
  | cons a steps ih =>
    rw [performAll_cons, ih]
    cases a with
    | type t =>
      have hkeys : (r.perform (.type t)).types.keys = (r.types.keys ++ [t.fqn]).eraseDups :=
        KeyedSet.keys_insert
      rw [hkeys, eraseDups_append_left, List.append_assoc]
      rfl
    | attach t d =>
      have hkeys : (r.perform (.attach t d)).types.keys = r.types.keys := KeyedSet.keys_modify _
      rw [hkeys]
      rfl
    | package p => rfl
    | func f => rfl

/-- A type that a step looks up is known from then on. -/
theorem mem_typeKeys_performAll {t : TypeName} (h : LoadStep.type t ∈ steps) :
    t.fqn ∈ (r.performAll steps).types.keys := by
  obtain ⟨before, after, rfl⟩ := List.append_of_mem h
  rw [performAll_append, performAll_cons]
  exact typeKeys_performAll_subset KeyedSet.mem_keys_insert_self

theorem mem_packageKeys_performAll {p : Package} (h : LoadStep.package p ∈ steps) :
    p.path ∈ (r.performAll steps).packages.keys := by
  rw [packages_performAll, KeyedSet.mem_keys_iff, KeyedSet.get?_insertAll]
  have hmem : (p.path, p) ∈ (steps.filterMap LoadStep.package?).map fun p => (p.path, p) :=
    List.mem_map_of_mem (List.mem_filterMap.2 ⟨_, h, rfl⟩)
  have hfound : (((steps.filterMap LoadStep.package?).map fun p => (p.path, p)).lookup
      p.path).isSome :=
    List.lookup_isSome_iff.2 ⟨_, hmem, by simp⟩
  rw [Option.isSome_or, hfound, Bool.or_true]

/-- The entry of a type with several declarations offered in turn. -/
theorem types_perform_of_known {a : LoadStep} (h : a.Known r) :
    (r.perform a).types.entries
      = r.types.entries.map fun e => (e.1, (a.attached? e.1).elim e.2 e.2.declare) := by
  cases a with
  | type t =>
    rw [perform, addType, KeyedSet.insert_of_mem h]
    simp [LoadStep.attached?]
  | attach t d =>
    refine List.map_congr_left fun e _ => ?_
    by_cases he : e.1 = t.fqn <;> simp [LoadStep.attached?, he, eq_comm]
  | package p => simp [perform, addPackage, LoadStep.attached?]
  | func f => simp [perform, addFunc, LoadStep.attached?]

theorem known_perform {a b : LoadStep} (h : b.Known r) (ha : a.Known r) :
    b.Known (r.perform a) := by
  cases b with
  | package p =>
    cases a with
    | package q => exact KeyedSet.keys_insert_subset h
    | _ => exact h
  | type t => exact typeKeys_perform_subset a h
  | attach t d => exact typeKeys_perform_subset a h
  | func f => trivial

/-- **Where everything is known, the types gain what the steps attach**, and nothing else. -/
theorem types_performAll (h : ∀ a ∈ steps, a.Known r) :
    (r.performAll steps).types.entries = r.types.entries.map fun e =>
      (e.1, (steps.filterMap (LoadStep.attached? e.1)).foldl TypeEntry.declare e.2) := by
  induction steps generalizing r with
  | nil => simp
  | cons a steps ih =>
    have hknown : ∀ b ∈ steps, b.Known (r.perform a) := fun b hb =>
      known_perform (h b (List.mem_cons_of_mem _ hb)) (h a (by simp))
    rw [performAll_cons, ih hknown, types_perform_of_known (h a (by simp)), List.map_map]
    refine List.map_congr_left fun e _ => ?_
    cases ha : a.attached? e.1 <;> simp [ha]

theorem packages_performAll_of_known (h : ∀ a ∈ steps, a.Known r) :
    (r.performAll steps).packages = r.packages := by
  rw [packages_performAll]
  refine KeyedSet.insertAll_of_subset fun e he => ?_
  obtain ⟨p, hp, rfl⟩ := List.mem_map.1 he
  obtain ⟨a, ha, hap⟩ := List.mem_filterMap.1 hp
  cases a with
  | package q =>
    cases hap
    exact h _ ha
  | _ => cases hap

/-! ## Declarations -/

def declaration? (r : Registry) (fqn : String) : Option TypeDeclaration :=
  (r.findType? fqn).bind (·.declaration)

theorem declaration?_addType (r : Registry) (t : TypeName) (fqn : String) :
    (r.addType t).declaration? fqn = r.declaration? fqn := by
  rw [declaration?, declaration?, findType?, addType, KeyedSet.get?_insert, findType?]
  cases r.types.get? fqn with
  | some e => rfl
  | none => split <;> rfl

theorem mem_typeKeys_of_attached {a : LoadStep} {fqn : String} (h : a.Known r)
    (ha : (a.attached? fqn).isSome) : fqn ∈ r.types.keys := by
  cases a with
  | attach t d =>
    rw [LoadStep.attached?] at ha
    split at ha
    · next he => exact he ▸ h
    · cases ha
  | _ => cases ha

/-- A step gives a type what it attaches, unless the type is declared. -/
theorem declaration?_perform {a : LoadStep} {fqn : String}
    (h : (a.attached? fqn).isSome → fqn ∈ r.types.keys) :
    (r.perform a).declaration? fqn = (r.declaration? fqn).or (a.attached? fqn) := by
  cases a with
  | type t => exact (declaration?_addType r t fqn).trans Option.or_none.symm
  | package p => exact Option.or_none.symm
  | func f => exact Option.or_none.symm
  | attach t d =>
    rw [declaration?, declaration?, perform, findType?, attach, KeyedSet.get?_modify, findType?]
    by_cases hn : fqn = t.fqn
    · obtain ⟨e, he⟩ := Option.isSome_iff_exists.1 (KeyedSet.mem_keys_iff.1 (h (by
        rw [LoadStep.attached?, if_pos hn.symm]; rfl)))
      rw [if_pos hn, he, LoadStep.attached?, if_pos hn.symm]
      cases hd : e.declaration <;> simp [TypeEntry.declare, hd]
    · rw [if_neg hn, LoadStep.attached?, if_neg (Ne.symm hn), Option.or_none]

/-- **A type has the declaration that was attached first.** -/
theorem declaration?_performAll {fqn : String}
    (h : ∀ a ∈ steps, (a.attached? fqn).isSome → fqn ∈ r.types.keys) :
    (r.performAll steps).declaration? fqn
      = (r.declaration? fqn).or (steps.filterMap (LoadStep.attached? fqn)).head? := by
  induction steps generalizing r with
  | nil => simp
  | cons a steps ih =>
    have hsteps : ∀ b ∈ steps, (b.attached? fqn).isSome → fqn ∈ (r.perform a).types.keys :=
      fun b hb hs => typeKeys_perform_subset a (h b (List.mem_cons_of_mem _ hb) hs)
    rw [performAll_cons, ih hsteps, declaration?_perform (h a (by simp)), Option.or_assoc,
      List.filterMap_cons]
    cases a.attached? fqn <;> rfl

end Registry

end Wiring
