import Wiring.Proofs.Grammar
import Wiring.Proofs.Registry.Meaning
import Wiring.Proofs.Registry.Reload

/-!
# A full name leads back to its type

The last dot of a full name stands between the path of the package and the name, as long as there is
no dot in the name; the path may have as many as it likes.  So a type is found again from its full
name if it is `Legible`: its name has no dot, and the path of its package is one that a look-up
leaves as it is (`typeOfFqn_fqn`).

What is listed in a registry that loaded units comes from these units: a property that they give
only types with (`Gives`) is one of all types that are listed or mentioned (`TypesAre`), and every
step of a load keeps this.  Units that write their names and paths as they are meant, `Regular`, give
legible types only.  And since a listed type and its package are found where they are, looking them
up again changes nothing (`ByLoads.typeOfFqn_eq`).
-/

namespace Wiring

namespace TypeName

variable {r : Registry} {t : TypeName} {p : Package} {name : String}

/-- A type whose full name can be taken apart again. -/
structure Legible (t : TypeName) : Prop where
  undotted : '.' ∉ t.name.toList
  packaged : ∀ p ∈ t.package, isBuiltin t.name = false ∧ Package.ofPath p.path = p

theorem legible_lookup (hp : Package.ofPath p.path = p) (hname : '.' ∉ name.toList) :
    (lookup (some p) name).Legible := by
  refine ⟨hname, fun q hq => ?_⟩
  rw [lookup] at hq ⊢
  split at hq
  · cases hq
  · next hb =>
    obtain rfl := Option.some.inj hq
    exact ⟨by simpa using hb, hp⟩

/-- **A full name is taken apart as it was put together.** -/
theorem Legible.typeOfFqn_fqn (ht : t.Legible) : r.typeOfFqn t.fqn =
    (((t.package.map r.addPackage).getD r).addType t |>.canonical t,
      ((t.package.map r.addPackage).getD r).addType t) := by
  obtain ⟨package, name⟩ := t
  cases package with
  | none =>
    have hlookup : lookup none name = ⟨none, name⟩ := by rw [lookup, ite_self]
    rw [fqn, Registry.typeOfFqn, Text.cutLast?_eq_none ht.undotted]
    dsimp only
    rw [Registry.typeIn, Option.map_none, hlookup]
  | some p =>
    obtain ⟨hbuiltin, hpath⟩ := ht.packaged p rfl
    have hcut : Text.cutLast? '.' (fqn ⟨some p, name⟩).toList
        = some (p.path.toList, name.toList) := by
      refine Text.cutLast?_eq_some_iff.2 ⟨?_, ht.undotted⟩
      simp [fqn]
    have hlookup : lookup (some p) name = ⟨some p, name⟩ := by
      rw [lookup, hbuiltin, if_neg Bool.false_ne_true]
    rw [Registry.typeOfFqn, hcut]
    dsimp only
    rw [String.ofList_toList, String.ofList_toList, Registry.typeIn, Option.map_some, hpath, hlookup]

end TypeName

/-! ## The types that units give -/

namespace FileScope

variable {scope : FileScope} {t : TypeName}

/-- A shape stands for the type that its base name is in one of the packages of the file. -/
theorem exists_lookup_of_meaningFrom? {s : Shape} {k k' : SlotKind}
    (h : scope.meaningFrom? k s = some (t, k')) :
    ∃ p name, scope.Refers p ∧ s.baseName? = some name ∧ t = .lookup (some p) name := by
  induction s generalizing k with
  | named qualifier name =>
    cases qualifier with
    | none =>
      rw [meaningFrom?, Option.some.injEq, Prod.mk.injEq] at h
      exact ⟨scope.package, name, .inl rfl, rfl, h.1.symm⟩
    | some qualifier =>
      rw [meaningFrom?, Option.map_eq_some_iff] at h
      obtain ⟨p, hp, hm⟩ := h
      exact ⟨p, name, .inr ⟨qualifier, hp⟩, rfl, (Prod.mk.inj hm).1.symm⟩
  | pointer elem ih => exact ih h
  | slice elem ih => exact ih h
  | map key value _ ih => exact ih h
  | unsupported text => cases h

theorem exists_lookup_of_mem_mentioned {d : FuncDecl} (ht : t ∈ scope.mentioned d) :
    ∃ f ∈ fieldsOf d, ∃ p name, scope.Refers p ∧ f.shape.baseName? = some name ∧
      t = .lookup (some p) name := by
  obtain ⟨f, hf, hmeaning⟩ := List.mem_filterMap.1 ht
  obtain ⟨⟨t', k⟩, hm, rfl⟩ := Option.map_eq_some_iff.1 hmeaning
  exact ⟨f, hf, exists_lookup_of_meaningFrom? hm⟩

end FileScope

namespace SourceUnit

variable {T : TypeName → Prop} {u : SourceUnit}

/-- The types that a unit declares and refers to have a property. -/
structure Gives (T : TypeName → Prop) (u : SourceUnit) : Prop where
  declared : ∀ d ∈ u.types, T (u.typeName d)
  mentioned : ∀ marker, ∀ d ∈ u.funcs, ∀ t ∈ (FileScope.ofUnit marker u).mentioned d, T t

/-- No name of a type has a dot, and the paths are written as they count. -/
structure Regular (u : SourceUnit) : Prop where
  declared : ∀ d ∈ u.types, '.' ∉ d.name.toList
  mentioned : ∀ d ∈ u.funcs, ∀ f ∈ FileScope.fieldsOf d, ∀ name ∈ f.shape.baseName?,
    '.' ∉ name.toList
  package : Package.canonicalPath u.packagePath = u.packagePath
  imports : ∀ i ∈ u.imports, Package.canonicalPath i.path = i.path

theorem Regular.ofPath_path (hu : u.Regular) {p : Package} (hp : p ∈ u.packages) :
    Package.ofPath p.path = p := by
  have hofPath : ∀ path, Package.canonicalPath path = path →
      Package.ofPath (Package.ofPath path).path = .ofPath path := by
    intro path hpath
    have hself : (Package.ofPath path).path = path := hpath
    rw [hself]
  rcases List.mem_cons.1 hp with rfl | hp
  · exact hofPath _ hu.package
  · obtain ⟨i, hi, rfl⟩ := List.mem_map.1 hp
    exact hofPath _ (hu.imports i hi)

theorem Regular.gives (hu : u.Regular) : u.Gives TypeName.Legible where
  declared d hd := TypeName.legible_lookup (hu.ofPath_path List.mem_cons_self) (hu.declared d hd)
  mentioned marker d hd t ht := by
    obtain ⟨f, hf, p, name, hp, hname, rfl⟩ := FileScope.exists_lookup_of_mem_mentioned ht
    exact TypeName.legible_lookup (hu.ofPath_path (FileScope.mem_packages_of_refers hp))
      (hu.mentioned d hd f hf name hname)

end SourceUnit

/-- The types that a step brings have a property. -/
def LoadStep.Brings (T : TypeName → Prop) : LoadStep → Prop
  | type t => T t
  | func f => ∀ t ∈ f.scope.mentioned f.decl, T t
  | _ => True

namespace SourceUnit

variable {T : TypeName → Prop} {u : SourceUnit} {a : LoadStep}

theorem Gives.of_claimSteps (hu : u.Gives T) (ha : a ∈ u.claimSteps) : a.Brings T := by
  rcases List.mem_append.1 ha with ha | ha
  · obtain ⟨p, -, rfl⟩ := List.mem_map.1 ha
    trivial
  · obtain ⟨d, hd, rfl⟩ := List.mem_map.1 ha
    exact hu.declared d hd

theorem Gives.of_loadSteps (hu : u.Gives T) {marker : String} {n : Nat} {c : Claims}
    (ha : a ∈ u.loadSteps marker n c) : a.Brings T := by
  rcases mem_loadSteps ha with ⟨p, -, rfl⟩ | ⟨d, hd, rfl | rfl⟩ | ⟨e, he, rfl⟩
  · trivial
  · exact hu.declared d hd
  · trivial
  · obtain ⟨-, rfl, hd⟩ := mem_placedIn.1 he
    exact hu.mentioned marker e.decl (List.mem_of_getElem? hd)

end SourceUnit

namespace Registry

variable {T : TypeName → Prop} {r s : Registry} {us : List SourceUnit} {steps : List LoadStep}

/-- The types that are listed have a property, and so have those that the listed functions
mention. -/
structure TypesAre (T : TypeName → Prop) (r : Registry) : Prop where
  listed : ∀ n e, r.findType? n = some e → T e.name
  mentioned : ∀ n f, r.findFunc? n = some f → ∀ t ∈ f.scope.mentioned f.decl, T t

namespace TypesAre

theorem empty (settings : ParserSettings) : (Registry.empty settings).TypesAre T where
  listed n e he := by cases he
  mentioned n f hf := by cases hf

theorem addTypes (h : r.TypesAre T) {ts : List TypeName} (hts : ∀ t ∈ ts, T t) :
    (r.addTypes ts).TypesAre T := by
  refine ⟨fun n e he => ?_, fun n f hf => ?_⟩
  · rw [findType?_addTypes, Option.or_eq_some_iff] at he
    rcases he with hold | ⟨-, hnew⟩
    · exact h.listed n e hold
    · obtain ⟨t, ht, rfl⟩ := Option.map_eq_some_iff.1 hnew
      exact hts t (List.mem_of_find?_eq_some ht)
  · rw [addTypes_eq] at hf
    exact h.mentioned n f hf

/-- **A step that brings such types only.** -/
theorem perform (h : r.TypesAre T) {a : LoadStep} (ha : a.Brings T) : (r.perform a).TypesAre T := by
  cases a with
  | package p => exact ⟨h.listed, h.mentioned⟩
  | type t =>
    have hone : ∀ t' ∈ [t], T t' := fun t' ht' => List.mem_singleton.1 ht' ▸ ha
    exact h.addTypes hone
  | attach t d =>
    refine ⟨fun n e he => ?_, h.mentioned⟩
    have hattach : (r.attach t d).findType? n = some e := he
    rw [findType?_attach] at hattach
    split at hattach
    · obtain ⟨e', he', rfl⟩ := Option.map_eq_some_iff.1 hattach
      exact h.listed n e' he'
    · exact h.listed n e hattach
  | func f =>
    refine ⟨h.listed, fun n g hg => ?_⟩
    have hadd : (r.addFunc f).findFunc? n = some g := hg
    rw [findFunc?_addFunc, Option.or_eq_some_iff] at hadd
    rcases hadd with hold | ⟨-, hnew⟩
    · exact h.mentioned n g hold
    · split at hnew
      · exact Option.some.inj hnew ▸ ha
      · cases hnew

theorem performAll (h : r.TypesAre T) (hsteps : ∀ a ∈ steps, a.Brings T) :
    (r.performAll steps).TypesAre T := by
  induction steps generalizing r with
  | nil => exact h
  | cons a steps ih =>
    exact ih (h.perform (hsteps a (by simp))) fun b hb => hsteps b (List.mem_cons_of_mem _ hb)

/-- Looking up a signature lists types that the function mentions. -/
theorem resolveSignature (h : r.TypesAre T) (m : String) : (r.resolveSignature m).TypesAre T := by
  rcases r.resolveSignature_cases m with heq | ⟨f, hf, -, htypes, hfind⟩
  · rw [heq]
    exact h
  · have hmentioned : (r.withMentioned f).TypesAre T := h.addTypes (h.mentioned m f hf)
    refine ⟨fun n e he => ?_, fun n g hg => ?_⟩
    · rw [findType?, htypes] at he
      exact hmentioned.listed n e he
    · rw [hfind] at hg
      split at hg
      · obtain rfl := Option.some.inj hg
        exact h.mentioned m f hf
      · exact h.mentioned n g hg

theorem of_alike {s' : Registry} (h : s.Alike s') (hs' : s'.TypesAre T) : s.TypesAre T := by
  refine ⟨fun n e he => ?_, fun n f hf => ?_⟩
  · rw [findType?, h.types] at he
    exact hs'.listed n e he
  · rw [h.findFunc?_eq] at hf
    exact hs'.mentioned n f hf

/-- **A load of units that give such types only.** -/
theorem loaded (h : r.TypesAre T) (hr : r.AtRest) (hs : Loaded r us s)
    (hus : ∀ u ∈ us, u.Gives T) : s.TypesAre T :=
  hs.induct hr h (fun _ _ hs => ⟨hs.listed, hs.mentioned⟩)
    (fun _ u hu hs => hs.performAll fun _ ha => (hus u hu).of_claimSteps ha)
    (fun _ u hu _ _ _ hs => hs.performAll fun _ ha => (hus u hu).of_loadSteps ha)
    (fun _ m hs => hs.resolveSignature m) fun _ _ => of_alike

end TypesAre

namespace ByLoads

theorem byCalls (h : ByLoads us r) : r.ByCalls := by
  induction h with
  | create h => exact .create h
  | load _ hs ih => exact ih.call (.load hs)

theorem typesAre (h : ByLoads us r) (hus : ∀ u ∈ us, u.Gives T) : r.TypesAre T := by
  induction h with
  | @create settings r h =>
    rw [eq_empty_of_create h]
    exact .empty settings
  | load h hs ih =>
    refine (ih fun u hu => hus u (List.mem_append_left _ hu)).loaded h.atRest hs fun u hu => ?_
    exact hus u (List.mem_append_right _ hu)

/-- **A full name that is shown can be given back**: it stands for the type that is listed under it,
and nothing has to be listed for that. -/
theorem typeOfFqn_eq (h : ByLoads us r) (hus : ∀ u ∈ us, u.Regular) {e : TypeEntry}
    (he : e ∈ r.types.items) : r.typeOfFqn e.name.fqn = (e.name, r) := by
  have hfind : r.findType? e.name.fqn = some e := (h.byCalls.consistent.findType _ e).2 ⟨he, rfl⟩
  have hlegible : e.name.Legible :=
    (h.typesAre fun u hu => (hus u hu).gives).listed _ e hfind
  have hpackage : (e.name.package.map r.addPackage).getD r = r := by
    cases hp : e.name.package with
    | none => rfl
    | some p =>
      have hlists : r.Lists p := h.byCalls.consistent.typePackage e he p hp
      exact addPackage_of_mem (KeyedSet.mem_keys_iff.2 (Option.isSome_iff_exists.2 ⟨p, hlists⟩))
  have htype : r.addType e.name = r :=
    addType_of_mem (KeyedSet.mem_keys_iff.2 (Option.isSome_iff_exists.2 ⟨e, hfind⟩))
  rw [hlegible.typeOfFqn_fqn, hpackage, htype, canonical_eq, hfind]
  rfl

end ByLoads

/-- A file of a package whose path has dots, as has the path that it imports. -/
def hosted : SourceUnit :=
  ⟨"ex.com", some "a.go", [⟨some "yaml", "yaml.v3"⟩], [⟨"Order", .struct, []⟩],
    [{ FuncDecl.ofName "Parse" with
        params := [.ofName "n" (.pointer (.named (some "yaml") "Node"))]
        returns := [.unnamed (.named none "Order"), .unnamed (.named none "error")] }]⟩

theorem regular_hosted : hosted.Regular where
  declared := by decide
  mentioned := by decide
  package := by decide
  imports := by decide

def host : Registry :=
  ((empty .default).loadAll [hosted]).2

theorem byLoads_host : ByLoads [hosted] host := by
  have hempty : ByLoads [] (empty .default) := @ByLoads.create .default _ (by cbv)
  have hone : ByLoads ([] ++ [hosted]) host := hempty.load .all
  exact hone

set_option maxRecDepth 4000 in
theorem typeOfFqn_eq_hosted : ByLoads [hosted] host ∧ hosted.Regular ∧
    host.typeFqns = ["ex.com.Order", "yaml.v3.Node", "error"] ∧
    ∀ e ∈ host.types.items, host.typeOfFqn e.name.fqn = (e.name, host) := by
  have hregular : ∀ u ∈ [hosted], u.Regular := by
    simpa using regular_hosted
  have hlisted : host.typeFqns = ["ex.com.Order", "yaml.v3.Node", "error"] := by
    cbv
  exact ⟨byLoads_host, regular_hosted, hlisted, fun e he =>
    byLoads_host.typeOfFqn_eq hregular he⟩

end Registry

end Wiring
