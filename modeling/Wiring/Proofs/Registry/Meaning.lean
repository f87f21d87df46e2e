import Mathlib.Data.List.Forall2
import Wiring.Proofs.Registry.Listing
import Wiring.Proofs.Signature

/-!
# What the slots of a listed function mean

In a registry that did nothing but load units, every listed function is one that a unit declares, at
the place that its ordinal says, and each of its slots is what its shape means in that unit
(`ByLoads.signatures`).  `Slot.Means` says what this is: there is no type if no name is at the core
of the shape, or one behind a qualifier that no import binds; and else the type is the one that is
listed under the full name, and the kind tells the wrappers of the shape.

It takes that the registry did nothing else.  Units give every type in a plain form
(`ByLoads.plain`), so a type that belongs to no package is a built-in one; whoever asks for a type
himself can have one listed without package under any name.
-/

namespace Wiring

variable {r s : Registry} {us vs : List SourceUnit} {u : SourceUnit}

/-- What is to be found in a slot of a shape that is written in the unit `u`. -/
inductive Slot.Means (r : Registry) (u : SourceUnit) (shape : Shape) :
    Option TypeName → SlotKind → Prop
  | unsupported {text : String} (core : shape.core = .unsupported text) :
      Means r u shape none .unknown
  | unbound {qualifier name : String} (core : shape.core = .named (some qualifier) name)
      (free : ∀ i ∈ u.imports, ¬ i.Binds qualifier) : Means r u shape none .unknown
  | own {name : String} {t : TypeName} {k : SlotKind} (core : shape.core = .named none name)
      (listed : r.ListsType t) (named : t.fqn = u.package.typeFqn name)
      (tells : k.Tells shape.wrappers name) : Means r u shape (some t) k
  | imported {qualifier name : String} {p : Package} {t : TypeName} {k : SlotKind}
      (core : shape.core = .named (some qualifier) name) (bound : u.Binds qualifier p)
      (listed : r.ListsType t) (named : t.fqn = p.typeFqn name)
      (tells : k.Tells shape.wrappers name) : Means r u shape (some t) k

/-- **A shape means one thing only.** -/
theorem Slot.Means.unique {shape : Shape} {t t' : Option TypeName} {k k' : SlotKind}
    (h : Slot.Means r u shape t k) (h' : Slot.Means r u shape t' k') : t = t' ∧ k = k' := by
  have hlists : ∀ {t t' : TypeName}, r.ListsType t → r.ListsType t' → t.fqn = t'.fqn → t = t' := by
    rintro t t' ⟨e, he, rfl⟩ ⟨e', he', rfl⟩ hfqn
    rw [hfqn, he', Option.some.injEq] at he
    rw [he]
  -- shapes with different cores are left out, and a qualifier is bound or not
  cases h with
  | unsupported hcore => cases h' <;> simp_all
  | unbound hcore hfree =>
    cases h' with
    | imported hcore' hbound =>
      cases hcore.symm.trans hcore'
      exact absurd hfree hbound.not_free
    | _ => simp_all
  | own hcore hlisted hname htells =>
    cases h' with
    | own hcore' hlisted' hname' htells' =>
      cases hcore.symm.trans hcore'
      exact ⟨congrArg some (hlists hlisted hlisted' (hname.trans hname'.symm)),
        htells.unique htells'⟩
    | _ => simp_all
  | imported hcore hbound hlisted hname htells =>
    cases h' with
    | imported hcore' hbound' hlisted' hname' htells' =>
      cases hcore.symm.trans hcore'
      obtain rfl := hbound.unique hbound'
      exact ⟨congrArg some (hlists hlisted hlisted' (hname.trans hname'.symm)),
        htells.unique htells'⟩
    | unbound hcore' hfree =>
      cases hcore.symm.trans hcore'
      exact absurd hfree hbound.not_free
    | _ => simp_all

/-- A slot of a field that is written in the unit `u`. -/
structure Slot.Of (r : Registry) (u : SourceUnit) (d : FieldDecl) (slot : Slot) : Prop where
  shape : slot.shape = d.shape
  means : Slot.Means r u d.shape slot.type? slot.kind

namespace FileScope

variable {marker name : String} {d : FieldDecl}

theorem tells_slot {scope : FileScope} {p : Package} (hnamed : r.TypesNamed)
    (hplain : ∀ n e, r.findType? n = some e → e.name.Plain)
    (hlisted : ∀ t k, scope.meaning? d.shape = some (t, k) → (r.findType? t.fqn).isSome)
    (hm : scope.meaning? d.shape
      = some (.lookup (some p) name, SlotKind.unknown.passAll d.shape.wrappers)) :
    ∃ t, (scope.slot r.canonical d).type? = some t ∧ r.ListsType t ∧ t.fqn = p.typeFqn name ∧
      (scope.slot r.canonical d).kind.Tells d.shape.wrappers name := by
  obtain ⟨e, he⟩ := Option.isSome_iff_exists.1 (hlisted _ _ hm)
  have hform : r.canonical (.lookup (some p) name) = e.name := by
    rw [Registry.canonical_eq, he]
    rfl
  have hfqn : e.name.fqn = p.typeFqn name := by
    rw [hnamed _ e he, TypeName.fqn_lookup]
  have hglobal : e.name.isGlobal = isBuiltin name := by
    have hplain' : e.name.isGlobal = isBuiltin e.name.fqn := hplain _ e he
    rw [hplain', hfqn, Package.isBuiltin_typeFqn]
  have hkind : (scope.slot r.canonical d).kind
      = (SlotKind.unknown.passAll d.shape.wrappers).endingIn e.name := by
    simp [slot, hm, hform]
  refine ⟨e.name, by simp [slot, hm, hform], ⟨e, ?_, rfl⟩, hfqn, ?_⟩
  · rw [hnamed _ e he]
    exact he
  · rw [hkind]
    exact SlotKind.tells_passAll hglobal

theorem slot_of_meaning_none {scope : FileScope} {c : TypeName → TypeName}
    (hm : scope.meaning? d.shape = none) :
    (scope.slot c d).type? = none ∧ (scope.slot c d).kind = .unknown := by
  simp [slot, hm]

/-- **A slot is what its shape means.** -/
theorem slot_of (hnamed : r.TypesNamed) (hplain : ∀ n e, r.findType? n = some e → e.name.Plain)
    (hlisted : ∀ t k, (ofUnit marker u).meaning? d.shape = some (t, k) →
      (r.findType? t.fqn).isSome) :
    Slot.Of r u d ((ofUnit marker u).slot r.canonical d) := by
  refine ⟨rfl, ?_⟩
  have hmeaning : (ofUnit marker u).meaning? d.shape = (ofUnit marker u).meaningFrom?
      (SlotKind.unknown.passAll d.shape.wrappers) d.shape.core := meaningFrom?_eq _ _ _
  rcases d.shape.core_cases with ⟨qualifier, name, hcore⟩ | ⟨text, hcore⟩
  · rw [hcore] at hmeaning
    cases qualifier with
    | none =>
      obtain ⟨t, ht, hlists, hfqn, htells⟩ := tells_slot hnamed hplain hlisted hmeaning
      rw [ht]
      exact .own hcore hlists hfqn htells
    | some qualifier =>
      cases hp : (ofUnit marker u).imports.get? qualifier with
      | none =>
        rw [meaningFrom?, hp] at hmeaning
        obtain ⟨htype, hkind⟩ := slot_of_meaning_none (c := r.canonical) hmeaning
        rw [htype, hkind]
        exact .unbound hcore (SourceUnit.get?_imports_eq_none_iff.1 hp)
      | some p =>
        rw [meaningFrom?, hp] at hmeaning
        obtain ⟨t, ht, hlists, hfqn, htells⟩ := tells_slot hnamed hplain hlisted hmeaning
        rw [ht]
        exact .imported hcore (SourceUnit.get?_imports_eq_some_iff.1 hp) hlists hfqn htells
  · rw [hcore] at hmeaning
    obtain ⟨htype, hkind⟩ := slot_of_meaning_none (c := r.canonical) hmeaning
    rw [htype, hkind]
    exact .unsupported hcore

end FileScope

namespace Registry

/-! ## Registries that only loaded units -/

/-- A registry that loaded these units, in one call or in several, and did nothing else. -/
inductive ByLoads : List SourceUnit → Registry → Prop
  | create {settings : ParserSettings} {r : Registry} (h : Registry.create settings = .ok r) :
      ByLoads [] r
  | load {us vs : List SourceUnit} {r s : Registry} (h : ByLoads us r) (hs : Loaded r vs s) :
      ByLoads (us ++ vs) s

namespace ByLoads

theorem atRest (h : ByLoads us r) : r.AtRest := by
  induction h with
  | create h => exact .create h
  | load _ hs ih => exact hs.atRest ih

theorem nextUnit (h : ByLoads us r) : r.nextUnit = us.length := by
  induction h with
  | create h =>
    rw [eq_empty_of_create h]
    rfl
  | load h hs ih => rw [hs.nextUnit_eq h.atRest, ih, List.length_append]

theorem bare_findFunc? (h : ByLoads us r) (n : String) : (r.findFunc? n).map Func.bare =
    ((placed (·.funcs) 0 us).find? fun e => e.unit.funcFqn e.decl == n).map
      (Placed.func r.settings.marker) := by
  induction h with
  | create h =>
    rw [eq_empty_of_create h]
    rfl
  | load h hs ih =>
    rw [hs.bare_findFunc? h.atRest, ih, h.nextUnit, hs.settings_eq h.atRest, placed_append,
      List.find?_append, Option.map_or, Nat.zero_add]

/-- Units give every type in a plain form. -/
theorem plain (h : ByLoads us r) : ∀ n e, r.findType? n = some e → e.name.Plain := by
  induction h with
  | create h =>
    rw [eq_empty_of_create h]
    intro n e he
    cases he
  | @load us vs r s h hs ih =>
    have htypes : r.TypesFrom s := (hs.grown h.atRest).types
    intro n e he
    cases hr : r.findType? n with
    | none => exact (htypes.plain n e hr he).2
    | some e₀ =>
      obtain ⟨e', he', hname⟩ := htypes.forms n e₀ hr
      obtain rfl : e = e' := Option.some.inj (he.symm.trans he')
      rw [hname]
      exact ih n e₀ hr

theorem declared (h : ByLoads us r) {f : Func} (hf : f ∈ r.funcs) :
    ∃ u, us[f.ordinal.unit]? = some u ∧ u.funcs[f.ordinal.index]? = some f.decl ∧
      f.scope = .ofUnit r.settings.marker u := by
  have hfind := (mem_funcs_iff_findFunc? h.atRest.reachable.wellFormed).1 hf
  have hfirst := h.bare_findFunc? f.fqn
  rw [hfind, Option.map_some, eq_comm, Option.map_eq_some_iff] at hfirst
  obtain ⟨e, he, hef⟩ := hfirst
  obtain ⟨i, hu, hi, hd⟩ := mem_placed.1 (List.mem_of_find?_eq_some he)
  have hordinal : f.ordinal = e.ordinal := by rw [← Func.ordinal_bare, ← hef, Placed.ordinal_func]
  have hdecl : f.decl = e.decl := congrArg Func.decl hef.symm
  refine ⟨e.unit, ?_, ?_, congrArg Func.scope hef.symm⟩
  · rw [hordinal, hi, Nat.zero_add]
    exact hu
  · rw [hordinal, hdecl]
    exact hd

/-- **Every slot of a listed function is what its shape means in the unit that declares the
function.** -/
theorem signatures (h : ByLoads us r) {f : Func} (hf : f ∈ r.funcs) :
    ∃ u, us[f.ordinal.unit]? = some u ∧ u.funcs[f.ordinal.index]? = some f.decl ∧
      Option.Rel (Slot.Of r u) f.decl.receiver f.receiver ∧
      List.Forall₂ (Slot.Of r u) f.decl.params f.params ∧
      List.Forall₂ (Slot.Of r u) f.decl.returns f.returns := by
  obtain ⟨u, hu, hd, hscope⟩ := h.declared hf
  have hsigned : f.SignedIn r := h.atRest.signedIn hf
  have hsig : f.signature = f.scope.signature r.canonical f.decl := by
    rw [Func.signature, hsigned.signature, Option.getD_some]
  have hslot : ∀ d ∈ FileScope.fieldsOf f.decl, Slot.Of r u d (f.scope.slot r.canonical d) := by
    intro d hmem
    have hlisted : ∀ t k, f.scope.meaning? d.shape = some (t, k) →
        (r.findType? t.fqn).isSome := fun t k hm =>
      hsigned.listed _ ⟨t, List.mem_filterMap.2 ⟨d, hmem, by rw [hm]; rfl⟩, rfl⟩
    rw [hscope] at hlisted ⊢
    exact FileScope.slot_of h.atRest.reachable.typesNamed h.plain hlisted
  refine ⟨u, hu, hd, ?_, ?_, ?_⟩
  · rw [Func.receiver, hsig, FileScope.signature]
    cases hreceiver : f.decl.receiver with
    | none => exact .none
    | some d => exact .some (hslot d (by simp [FileScope.fieldsOf, hreceiver]))
  · rw [Func.params, hsig, FileScope.signature, List.forall₂_map_right_iff, List.forall₂_same]
    exact fun d hd => hslot d (by simp [FileScope.fieldsOf, hd])
  · rw [Func.returns, hsig, FileScope.signature, List.forall₂_map_right_iff, List.forall₂_same]
    exact fun d hd => hslot d (by simp [FileScope.fieldsOf, hd])

end ByLoads

/-- A file that declares a type. -/
def declaring : SourceUnit :=
  ⟨"app", some "a.go", [], [⟨"S", .struct, []⟩], []⟩

/-- A file of the same package whose import of `y/more` takes the name of the import of `x/lib`
before it, and does not lose it to the import of `z/lib` after it. -/
def shadowing : SourceUnit :=
  ⟨"app", some "b.go", [⟨none, "x/lib"⟩, ⟨some "lib", "y/more"⟩, ⟨some "_", "z/lib"⟩], [],
    [{ FuncDecl.ofName "Run" with
        receiver := some (.ofName "s" (.pointer (.named none "S")))
        params := [.ofName "m"
            (.map (.named none "string") (.slice (.pointer (.named (some "lib") "T")))),
          .ofName "n" (.pointer (.slice (.named (some "lib") "int"))),
          .ofName "c" (.slice (.unsupported "chan int"))]
        returns := [.unnamed (.slice (.named (some "more") "U"))] }]⟩

def shadowed : Registry :=
  (((empty .default).loadAll [declaring]).2.loadAll [shadowing]).2

theorem byLoads_shadowed : ByLoads [declaring, shadowing] shadowed := by
  have hempty : ByLoads [] (empty .default) := @ByLoads.create .default _ (by cbv)
  have hone : ByLoads ([] ++ [declaring]) ((empty .default).loadAll [declaring]).2 :=
    hempty.load .all
  have htwo : ByLoads ([] ++ [declaring] ++ [shadowing]) shadowed := hone.load .all
  exact htwo

set_option maxRecDepth 4000 in
theorem signatures_shadowed : ByLoads [declaring, shadowing] shadowed ∧
    ∃ f ∈ shadowed.funcs, f.fqn = "app.S.Run" ∧
      f.slots.map (fun slot => (slot.type?.map TypeName.fqn, slot.kind)) =
        [(some "app.S", SlotKind.unknown.withPointer.withIdent),
          (some "y/more.T", SlotKind.unknown.withMap.withSlice.withSliceOfPointer.withIdent),
          (some "int", SlotKind.unknown.withPointer.withSlice.withBuiltin),
          (none, .unknown), (none, .unknown)] ∧
      ∃ u, [declaring, shadowing][f.ordinal.unit]? = some u ∧
        u.funcs[f.ordinal.index]? = some f.decl ∧
        Option.Rel (Slot.Of shadowed u) f.decl.receiver f.receiver ∧
        List.Forall₂ (Slot.Of shadowed u) f.decl.params f.params ∧
        List.Forall₂ (Slot.Of shadowed u) f.decl.returns f.returns := by
  have hslots : shadowed.funcs.map (fun f =>
      (f.fqn, f.slots.map fun slot => (slot.type?.map TypeName.fqn, slot.kind))) =
        [("app.S.Run", [(some "app.S", SlotKind.unknown.withPointer.withIdent),
          (some "y/more.T", SlotKind.unknown.withMap.withSlice.withSliceOfPointer.withIdent),
          (some "int", SlotKind.unknown.withPointer.withSlice.withBuiltin),
          (none, .unknown), (none, .unknown)])] := by cbv
  obtain ⟨f, hf, hslot⟩ := List.mem_map.1 (hslots ▸ List.mem_singleton_self _)
  obtain ⟨hfqn, hkinds⟩ := Prod.mk.inj hslot
  exact ⟨byLoads_shadowed, f, hf, hfqn, hkinds, byLoads_shadowed.signatures hf⟩

end Registry

end Wiring
