import Wiring.Proofs.Registry.Signed

/-!
# What is listed

Whatever is called, a registry stays `Consistent`: nothing is listed twice, what is listed is found
under its own path or full name and nothing else is found at all, and whatever refers to a package
or a type refers to the one that is listed.

The last part rests on the order of the steps of a load.  A file can name the types of its own
package and of those that it imports (`FileScope.Refers`), and a unit lists all of these before it
lists anything else, so every later step is `Backed` by packages that are listed.
-/

namespace Wiring

namespace FileScope

variable {scope : FileScope} {t : TypeName} {p : Package}

/-- A file can name the types of its own package and of those that it imports. -/
def Refers (scope : FileScope) (p : Package) : Prop :=
  p = scope.package ∨ ∃ qualifier, scope.imports.get? qualifier = some p

theorem package_lookup {q : Package} {name : String}
    (h : (TypeName.lookup (some q) name).package = some p) : p = q := by
  rw [TypeName.lookup] at h
  split at h
  · cases h
  · exact (Option.some.inj h).symm

theorem refers_of_meaningFrom? {s : Shape} {k k' : SlotKind}
    (h : scope.meaningFrom? k s = some (t, k')) (hp : t.package = some p) : scope.Refers p := by
  induction s generalizing k with
  | named package name =>
    cases package with
    | none =>
      rw [meaningFrom?, Option.some.injEq, Prod.mk.injEq] at h
      rw [← h.1] at hp
      exact .inl (package_lookup hp)
    | some qualifier =>
      rw [meaningFrom?, Option.map_eq_some_iff] at h
      obtain ⟨q, hq, hm⟩ := h
      rw [← (Prod.mk.inj hm).1] at hp
      exact .inr ⟨qualifier, package_lookup hp ▸ hq⟩
  | pointer elem ih => exact ih h
  | slice elem ih => exact ih h
  | map key value _ ih => exact ih h
  | unsupported text => cases h

theorem refers_of_mem_mentioned {d : FuncDecl} (ht : t ∈ scope.mentioned d)
    (hp : t.package = some p) : scope.Refers p := by
  obtain ⟨f, -, hf⟩ := List.mem_filterMap.1 ht
  obtain ⟨⟨t', k⟩, hm, rfl⟩ := Option.map_eq_some_iff.1 hf
  exact refers_of_meaningFrom? hm hp

theorem mem_packages_of_refers {marker : String} {u : SourceUnit}
    (h : (ofUnit marker u).Refers p) : p ∈ u.packages := by
  rcases h with rfl | ⟨qualifier, hq⟩
  · exact List.mem_cons_self
  · rw [ofUnit, Dict.get?_ofList, List.lookup_eq_some_iff] at hq
    obtain ⟨before, after, hsplit, -⟩ := hq
    have hmem : (qualifier, p) ∈
        u.imports.filterMap fun i => i.localName?.map fun name => (name, i.package) := by
      rw [← List.mem_reverse, hsplit]
      simp
    obtain ⟨i, hi, hbind⟩ := List.mem_filterMap.1 hmem
    obtain ⟨name, -, heq⟩ := Option.map_eq_some_iff.1 hbind
    exact List.mem_cons_of_mem _ (List.mem_map.2 ⟨i, hi, (Prod.mk.inj heq).2⟩)

end FileScope

/-- The slots of a function in the order in which they are looked up. -/
def Func.slots (f : Func) : List Slot :=
  f.receiver.toList ++ f.params ++ f.returns

theorem Func.SignedIn.slots_eq {r : Registry} {f : Func} (h : f.SignedIn r) :
    f.slots = (FileScope.fieldsOf f.decl).map (f.scope.slot r.canonical) := by
  rw [Func.slots, Func.receiver, Func.params, Func.returns, h.signature_eq, FileScope.signature,
    FileScope.fieldsOf, List.map_append, List.map_append]
  cases f.decl.receiver <;> rfl

namespace Registry

/-- A package is the one that is listed under its path. -/
def Lists (r : Registry) (p : Package) : Prop :=
  r.findPackage? p.path = some p

/-- A type is the one that is listed under its full name. -/
def ListsType (r : Registry) (t : TypeName) : Prop :=
  ∃ e, r.findType? t.fqn = some e ∧ e.name = t

end Registry

def LoadStep.Backed (r : Registry) : LoadStep → Prop
  | type t => ∀ p ∈ t.package, r.Lists p
  | func f => ∀ p, f.scope.Refers p → r.Lists p
  | _ => True

namespace Registry

variable {r s : Registry} {us : List SourceUnit} {p : Package} {a b : LoadStep}
  {steps : List LoadStep}

theorem Lists.perform (h : r.Lists p) (a : LoadStep) : (r.perform a).Lists p := by
  cases a with
  | package q =>
    have hget : r.packages.get? p.path = some p := h
    change (r.packages.insert q.path q).get? p.path = some p
    rw [KeyedSet.get?_insert, hget, Option.some_or]
  | _ => exact h

theorem backed_perform (hb : b.Backed r) (a : LoadStep) : b.Backed (r.perform a) := by
  cases b with
  | type t => exact fun p hp => (hb p hp).perform a
  | func f => exact fun p hp => (hb p hp).perform a
  | _ => trivial

/-- Packages are listed under their paths, and whatever is listed refers to listed packages only. -/
structure Closed (r : Registry) : Prop where
  packages : ∀ n p, r.findPackage? n = some p → p.path = n
  types : ∀ n e, r.findType? n = some e → ∀ p ∈ e.name.package, r.Lists p
  funcs : ∀ n f, r.findFunc? n = some f → ∀ p, f.scope.Refers p → r.Lists p

namespace Closed

/-! ## Single steps -/

theorem empty (settings : ParserSettings) : (Registry.empty settings).Closed where
  packages n p hp := by cases hp
  types n e he := by cases he
  funcs n f hf := by cases hf

theorem addPackage (h : r.Closed) (p : Package) : (r.addPackage p).Closed := by
  refine ⟨fun n q hq => ?_, fun n e he q hq => ?_, fun n f hf q hq => ?_⟩
  · rw [findPackage?, Registry.addPackage, KeyedSet.get?_insert, Option.or_eq_some_iff] at hq
    rcases hq with hold | ⟨-, hnew⟩
    · exact h.packages n q hold
    · split at hnew
      · next hn => rw [← Option.some.inj hnew, hn]
      · cases hnew
  · exact (h.types n e he q hq).perform (.package p)
  · exact (h.funcs n f hf q hq).perform (.package p)

theorem addTypes (h : r.Closed) {ts : List TypeName}
    (hts : ∀ t ∈ ts, ∀ p ∈ t.package, r.Lists p) : (r.addTypes ts).Closed := by
  have hlists : ∀ p, r.Lists p → (r.addTypes ts).Lists p := by
    intro p hp
    rw [addTypes_eq]
    exact hp
  refine ⟨fun n p hp => ?_, fun n e he p hp => hlists p ?_, fun n f hf p hp => hlists p ?_⟩
  · rw [addTypes_eq] at hp
    exact h.packages n p hp
  · rw [findType?_addTypes, Option.or_eq_some_iff] at he
    rcases he with hold | ⟨-, hnew⟩
    · exact h.types n e hold p hp
    · obtain ⟨t, ht, rfl⟩ := Option.map_eq_some_iff.1 hnew
      exact hts t (List.mem_of_find?_eq_some ht) p hp
  · rw [addTypes_eq] at hf
    exact h.funcs n f hf p hp

theorem attach (h : r.Closed) (t : TypeName) (d : TypeDeclaration) : (r.attach t d).Closed := by
  refine ⟨h.packages, fun n e he p hp => ?_, h.funcs⟩
  rw [findType?_attach] at he
  split at he
  · obtain ⟨e', he', rfl⟩ := Option.map_eq_some_iff.1 he
    exact h.types n e' he' p hp
  · exact h.types n e he p hp

theorem addFunc (h : r.Closed) {f : Func} (hf : ∀ p, f.scope.Refers p → r.Lists p) :
    (r.addFunc f).Closed := by
  refine ⟨h.packages, h.types, fun n g hg p hp => ?_⟩
  rw [findFunc?_addFunc, Option.or_eq_some_iff] at hg
  rcases hg with hold | ⟨-, hnew⟩
  · exact h.funcs n g hold p hp
  · split at hnew
    · exact hf p (Option.some.inj hnew ▸ hp)
    · cases hnew

/-- **A step that refers to listed packages only.** -/
theorem perform (h : r.Closed) (ha : a.Backed r) : (r.perform a).Closed := by
  cases a with
  | package p => exact h.addPackage p
  | type t =>
    have hone : ∀ t' ∈ [t], ∀ p ∈ t'.package, r.Lists p := fun t' ht' =>
      List.mem_singleton.1 ht' ▸ ha
    exact h.addTypes hone
  | attach t d => exact h.attach t d
  | func f => exact h.addFunc ha

theorem performAll (h : r.Closed) (hsteps : ∀ a ∈ steps, a.Backed r) :
    (r.performAll steps).Closed := by
  induction steps generalizing r with
  | nil => exact h
  | cons a steps ih =>
    exact ih (h.perform (hsteps a (by simp))) fun b hb =>
      backed_perform (hsteps b (List.mem_cons_of_mem _ hb)) a

theorem resolveSignature (h : r.Closed) (m : String) : (r.resolveSignature m).Closed := by
  rcases r.resolveSignature_cases m with heq | ⟨f, hf, -, htypes, hfind⟩
  · rw [heq]
    exact h
  · have hpackages : (r.resolveSignature m).packages = r.packages :=
      packages_resolveSignatures [m]
    have hlists : ∀ p, r.Lists p → (r.resolveSignature m).Lists p := by
      intro p hp
      rw [Lists, findPackage?, hpackages]
      exact hp
    have hmentioned : (r.withMentioned f).Closed := h.addTypes fun t ht p hp =>
      h.funcs m f hf p (FileScope.refers_of_mem_mentioned ht hp)
    refine ⟨fun n p hp => ?_, fun n e he p hp => ?_, fun n g hg p hp => hlists p ?_⟩
    · rw [findPackage?, hpackages] at hp
      exact h.packages n p hp
    · rw [findType?, htypes] at he
      have hp' := hmentioned.types n e he p hp
      rw [withMentioned, addTypes_eq] at hp'
      exact hlists p hp'
    · -- a function keeps its scope when it is given its signature
      rw [hfind] at hg
      split at hg
      · obtain rfl := Option.some.inj hg
        exact h.funcs m f hf p hp
      · exact h.funcs n g hg p hp

/-! ## Loads -/

theorem lists (h : r.Closed) (hp : p.path ∈ r.packages.keys) : r.Lists p := by
  obtain ⟨q, hq⟩ := Option.isSome_iff_exists.1 (KeyedSet.mem_keys_iff.1 hp)
  have hpath : q.path = p.path := h.packages _ q hq
  obtain ⟨path⟩ := p
  obtain ⟨path'⟩ := q
  cases hpath
  exact hq

/-- The packages of a unit, and then steps that refer to no others. -/
theorem packages_first (h : r.Closed) {ps : List Package}
    (hsteps : ∀ s : Registry, (∀ p ∈ ps, s.Lists p) → ∀ a ∈ steps, a.Backed s) :
    (r.performAll (ps.map .package ++ steps)).Closed := by
  have hpackages : (r.performAll (ps.map .package)).Closed := by
    refine h.performAll fun a ha => ?_
    obtain ⟨p, -, rfl⟩ := List.mem_map.1 ha
    trivial
  rw [performAll_append]
  refine hpackages.performAll (hsteps _ fun p hp => hpackages.lists ?_)
  exact mem_packageKeys_performAll (List.mem_map_of_mem hp)

theorem lists_of_lookup {u : SourceUnit} (h : ∀ p ∈ u.packages, r.Lists p) (d : TypeDecl) :
    ∀ p ∈ (u.typeName d).package, r.Lists p := by
  intro p hp
  rw [FileScope.package_lookup hp]
  exact h _ List.mem_cons_self

theorem claimSteps (h : r.Closed) (u : SourceUnit) : (r.performAll u.claimSteps).Closed := by
  refine h.packages_first fun s hs a ha => ?_
  obtain ⟨d, -, rfl⟩ := List.mem_map.1 ha
  exact lists_of_lookup hs d

theorem loadSteps (h : r.Closed) (u : SourceUnit) (marker : String) (n : Nat) (c : Claims) :
    (r.performAll (u.loadSteps marker n c)).Closed := by
  rw [SourceUnit.loadSteps, List.append_assoc]
  refine h.packages_first fun s hs a ha => ?_
  have hmem : a ∈ u.loadSteps marker n c := by
    rw [SourceUnit.loadSteps, List.append_assoc]
    exact List.mem_append_right _ ha
  rcases mem_loadSteps hmem with ⟨p, -, rfl⟩ | ⟨d, -, rfl | rfl⟩ | ⟨e, he, rfl⟩
  · trivial
  · exact lists_of_lookup hs d
  · trivial
  · obtain ⟨-, rfl, -⟩ := mem_placedIn.1 he
    exact fun p hp => hs p (FileScope.mem_packages_of_refers hp)

theorem of_alike {s' : Registry} (h : s.Alike s') (hs' : s'.Closed) : s.Closed := by
  have hlists : ∀ p, s'.Lists p → s.Lists p := fun p hp => by
    rw [Lists, findPackage?, h.packages]
    exact hp
  refine ⟨fun n p hp => ?_, fun n e he p hp => hlists p ?_, fun n f hf p hp => hlists p ?_⟩
  · rw [findPackage?, h.packages] at hp
    exact hs'.packages n p hp
  · rw [findType?, h.types] at he
    exact hs'.types n e he p hp
  · rw [h.findFunc?_eq] at hf
    exact hs'.funcs n f hf p hp

theorem loaded (h : r.Closed) (hr : r.AtRest) (hs : Loaded r us s) : s.Closed :=
  hs.induct hr h (fun _ _ hs => ⟨hs.packages, hs.types, hs.funcs⟩)
    (fun _ u _ hs => hs.claimSteps u) (fun _ u _ marker n c hs => hs.loadSteps u marker n c)
    (fun _ m hs => hs.resolveSignature m) fun _ _ => of_alike

/-! ## Calls -/

theorem call (h : r.Closed) (hr : r.AtRest) (hs : Call r s) : s.Closed := by
  have hpackage : ∀ path, (r.addPackage (.ofPath path)).Closed ∧
      (r.addPackage (.ofPath path)).Lists (.ofPath path) := fun path =>
    ⟨h.addPackage _, (h.addPackage _).lists KeyedSet.mem_keys_insert_self⟩
  have htype : ∀ path name, ((r.addPackage (.ofPath path)).addType
      (.lookup (some (.ofPath path)) name)).Closed := by
    intro path name
    refine (hpackage path).1.perform (a := .type _) fun p hp => ?_
    rw [FileScope.package_lookup hp]
    exact (hpackage path).2
  cases hs with
  | package path => exact (hpackage path).1
  | typeIn package name =>
    cases package with
    | none =>
      refine h.perform (a := .type (.lookup none name)) fun p hp => ?_
      rw [TypeName.lookup, ite_self] at hp
      cases hp
    | some path => exact htype path name
  | declareType package d => exact (htype package d.name).attach _ _
  | load hload => exact h.loaded hr hload
  | look => exact h

end Closed

theorem ByCalls.closed (h : r.ByCalls) : r.Closed := by
  induction h with
  | @create settings r h =>
    rw [eq_empty_of_create h]
    exact .empty settings
  | call hr next ih => exact ih.call hr.atRest next

/-! ## Everything in its place -/

/-- Nothing is listed twice, what is listed is what is found, whatever is referred to is listed, and
the functions stand in the order of their places. -/
structure Consistent (r : Registry) : Prop where
  packagePaths : (r.packages.items.map (·.path)).Nodup
  typeFqns : r.typeFqns.Nodup
  funcFqns : (r.funcs.map Func.fqn).Nodup
  findPackage : ∀ n p, r.findPackage? n = some p ↔ p ∈ r.packages.items ∧ p.path = n
  findType : ∀ n e, r.findType? n = some e ↔ e ∈ r.types.items ∧ e.name.fqn = n
  findFunc : ∀ n f, r.findFunc? n = some f ↔ f ∈ r.funcs ∧ f.fqn = n
  typePackage : ∀ e ∈ r.types.items, ∀ p ∈ e.name.package, r.Lists p
  funcPackage : ∀ f ∈ r.funcs, r.Lists f.package
  slotType : ∀ f ∈ r.funcs, ∀ slot ∈ f.slots, ∀ t ∈ slot.type?, r.ListsType t
  order : r.funcs.Pairwise fun f g => f.ordinal.Before g.ordinal

/-- The type of a slot is the one that is listed under its full name. -/
theorem listed_of_mem_slots {f : Func} (hr : r.TypesNamed) (hf : f.SignedIn r) {slot : Slot}
    (hslot : slot ∈ f.slots) {t : TypeName} (ht : t ∈ slot.type?) : r.ListsType t := by
  rw [hf.slots_eq] at hslot
  obtain ⟨d, hd, rfl⟩ := List.mem_map.1 hslot
  cases hm : f.scope.meaning? d.shape with
  | none => simp [FileScope.slot, hm] at ht
  | some m =>
    obtain ⟨t', k⟩ := m
    have hmentioned : t' ∈ f.scope.mentioned f.decl :=
      List.mem_filterMap.2 ⟨d, hd, by rw [hm]; rfl⟩
    obtain ⟨e, he⟩ := Option.isSome_iff_exists.1 (hf.listed _ ⟨t', hmentioned, rfl⟩)
    have hform : r.canonical t' = e.name := by rw [Registry.canonical_eq, he]; rfl
    obtain rfl : e.name = t := by simpa [FileScope.slot, hm, hform] using ht
    exact ⟨e, (hr _ e he).symm ▸ he, rfl⟩

theorem WellFormed.findFunc?_eq_some_iff (hr : r.WellFormed) {n : String} {f : Func} :
    r.findFunc? n = some f ↔ f ∈ r.funcs ∧ f.fqn = n := by
  rw [perm_funcs.mem_iff]
  exact KeyedSet.get?_eq_some_iff_mem_items fun n f hf =>
    hr.named _ (KeyedSet.get?_eq_some_iff.1 hf)

theorem WellFormed.pairwise_funcs (hr : r.WellFormed) :
    r.funcs.Pairwise fun f g => f.ordinal.Before g.ordinal := by
  refine (sorted_funcs.and (List.pairwise_map.1 hr.nodup_places)).imp fun {f g} h => ?_
  obtain ⟨hle, hne⟩ := h
  simp only [Ordinal.le, Bool.or_eq_true, Bool.and_eq_true, decide_eq_true_eq, beq_iff_eq] at hle
  exact (Ordinal.eq_or_before hle).resolve_left fun heq => hne heq.symm

/-- **Whatever is called, a registry stays consistent.** -/
theorem ByCalls.consistent (h : r.ByCalls) : r.Consistent := by
  have hwf : r.WellFormed := h.atRest.reachable.wellFormed
  have hnamed : r.TypesNamed := h.atRest.reachable.typesNamed
  have hclosed : r.Closed := h.closed
  have hfindType : ∀ n e, r.findType? n = some e ↔ e ∈ r.types.items ∧ e.name.fqn = n :=
    fun n e => KeyedSet.get?_eq_some_iff_mem_items hnamed
  exact
    { packagePaths := by
        rw [KeyedSet.map_items_eq_keys hclosed.packages]
        exact r.packages.nodup
      typeFqns := by
        rw [Registry.typeFqns, KeyedSet.map_items_eq_keys hnamed]
        exact r.types.nodup
      funcFqns := List.Nodup.map_on (fun f hf g hg => hwf.eq_of_fqn_eq hf hg) hwf.nodup_funcs
      findPackage := fun n p => KeyedSet.get?_eq_some_iff_mem_items hclosed.packages
      findType := hfindType
      findFunc := fun n f => hwf.findFunc?_eq_some_iff
      typePackage := fun e he => hclosed.types _ e ((hfindType _ e).2 ⟨he, rfl⟩)
      funcPackage := fun f hf =>
        hclosed.funcs _ f (hwf.findFunc?_eq_some_iff.2 ⟨hf, rfl⟩) _ (.inl rfl)
      slotType := fun f hf slot hslot t ht =>
        listed_of_mem_slots hnamed (h.atRest.signedIn hf) hslot ht
      order := hwf.pairwise_funcs }

/-- A registry that was asked for a type under a quoted path, that was told of a type outside any
file, and that loaded two files of one package.  The first file imports two packages, one under a
name of its own; the second one declares `App` and `New` again. -/
def stocked : Registry :=
  let asked := ((empty .default).typeIn (some " \"lib\" ") "Conn").2
  let told := (asked.declareType "app" ⟨"Config", .struct, []⟩).2
  (told.loadAll
    [⟨"app", some "a.go", [⟨none, "lib"⟩, ⟨some "x", "aux/v2"⟩],
        [⟨"App", .struct, []⟩],
        [{ FuncDecl.ofName "New" with
            params := [.ofName "conn" (.pointer (.named (some "lib") "Conn")),
              .ofName "configs" (.slice (.named none "Config"))]
            returns := [.unnamed (.pointer (.named none "App")), .unnamed (.named none "error")] },
          { FuncDecl.ofName "Run" with
            receiver := some (.ofName "a" (.pointer (.named none "App")))
            params := [.ofName "option" (.named (some "x") "Option")] }]⟩,
      ⟨"app", some "b.go", [], [⟨"App", .other, []⟩], [.ofName "New", .ofName "Stop"]⟩]).2

set_option maxRecDepth 2000 in
theorem consistent_stocked : stocked.ByCalls ∧ stocked.Consistent ∧
    stocked.packages.items.map (·.path) = ["lib", "app", "aux/v2"] ∧
    stocked.typeFqns = ["lib.Conn", "app.Config", "app.App", "error",
      "aux/v2.Option"] ∧
    stocked.funcs.map (fun f => (f.fqn, f.ordinal.unit, f.ordinal.index)) =
      [("app.New", 0, 0), ("app.App.Run", 0, 1), ("app.Stop", 1, 1)] := by
  have hempty : (empty .default).ByCalls := @ByCalls.create .default _ (by cbv)
  have hstocked : stocked.ByCalls :=
    ((hempty.call (.typeIn _ _)).call (.declareType _ _)).call (.load .all)
  have hlisted : (stocked.packages.items.map (·.path), stocked.typeFqns,
      stocked.funcs.map fun f => (f.fqn, f.ordinal.unit, f.ordinal.index)) =
        (["lib", "app", "aux/v2"],
          ["lib.Conn", "app.Config", "app.App", "error", "aux/v2.Option"],
          [("app.New", 0, 0), ("app.App.Run", 0, 1), ("app.Stop", 1, 1)]) := by cbv
  obtain ⟨hpackages, hrest⟩ := Prod.mk.inj hlisted
  obtain ⟨htypes, hfuncs⟩ := Prod.mk.inj hrest
  exact ⟨hstocked, hstocked.consistent, hpackages, htypes, hfuncs⟩

end Registry

end Wiring
