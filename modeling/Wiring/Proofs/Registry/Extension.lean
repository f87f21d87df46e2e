import Wiring.Proofs.Registry.Calls

/-!
# A registry only grows

Whatever is called, what was listed is listed still, at the same place (`Extends`): packages and
functions as they were, and a type with the declaration that it had, or with its first one if it had
none.

For packages and types this holds of every single step.  The functions are listed by their places,
so it also takes that a load adds functions of later units only (`isPrefix_funcs`).
-/

namespace Wiring

/-- What can have become of a listed type: a type without declaration may have gained one. -/
structure TypeEntry.Later (e e' : TypeEntry) : Prop where
  name : e'.name = e.name
  declaration : e'.declaration = e.declaration ∨ e.declaration = none ∧ e'.declaration.isSome

namespace TypeEntry

variable {e e' e'' : TypeEntry}

theorem Later.refl (e : TypeEntry) : e.Later e :=
  ⟨rfl, .inl rfl⟩

theorem Later.trans (h : e.Later e') (h' : e'.Later e'') : e.Later e'' := by
  refine ⟨h'.name.trans h.name, ?_⟩
  rcases h.declaration with heq | ⟨hnone, hsome⟩
  · rw [← heq]
    exact h'.declaration
  · rcases h'.declaration with heq | ⟨hnone', -⟩
    · exact .inr ⟨hnone, heq ▸ hsome⟩
    · rw [hnone'] at hsome
      cases hsome

theorem later_declare (e : TypeEntry) (d : TypeDeclaration) : e.Later (e.declare d) := by
  refine ⟨rfl, ?_⟩
  cases hd : e.declaration with
  | none => exact .inr ⟨rfl, rfl⟩
  | some d' => exact .inl (by rw [declare, hd]; rfl)

end TypeEntry

namespace Registry

variable {r s s' : Registry} {us : List SourceUnit} {a : LoadStep}

/-! ## Types -/

/-- Every type stands where it stood, with the declaration that it had. -/
def TypesKept (r s : Registry) : Prop :=
  ∀ (i : Nat) (n : String) (e : TypeEntry), r.types.entries[i]? = some (n, e) →
    ∃ e', s.types.entries[i]? = some (n, e') ∧ e.Later e'

namespace TypesKept

theorem of_prefix (h : r.types.entries <+: s.types.entries) : r.TypesKept s := by
  intro i n e he
  obtain ⟨hi, hentry⟩ := List.getElem?_eq_some_iff.1 he
  exact ⟨e, hentry ▸ List.prefix_iff_getElem?.1 h i hi, .refl e⟩

theorem of_types_eq (h : s.types = r.types) : r.TypesKept s :=
  of_prefix (h ▸ List.prefix_refl _)

theorem trans (h : r.TypesKept s) (h' : s.TypesKept s') : r.TypesKept s' := by
  intro i n e he
  obtain ⟨e₁, he₁, hlater₁⟩ := h i n e he
  obtain ⟨e₂, he₂, hlater₂⟩ := h' i n e₁ he₁
  exact ⟨e₂, he₂, hlater₁.trans hlater₂⟩

theorem findType? (h : r.TypesKept s) {n : String} {e : TypeEntry}
    (he : r.findType? n = some e) : ∃ e', s.findType? n = some e' ∧ e.Later e' := by
  obtain ⟨i, hi⟩ := List.mem_iff_getElem?.1 (KeyedSet.get?_eq_some_iff.1 he)
  obtain ⟨e', hi', hlater⟩ := h i n e hi
  exact ⟨e', KeyedSet.get?_eq_some_iff.2 (List.mem_of_getElem? hi'), hlater⟩

theorem addTypes (r : Registry) (ts : List TypeName) : r.TypesKept (r.addTypes ts) := by
  rw [addTypes_eq]
  exact of_prefix (KeyedSet.entries_prefix_insertAll _)

theorem attach (r : Registry) (t : TypeName) (d : TypeDeclaration) :
    r.TypesKept (r.attach t d) := by
  intro i n e he
  rw [Registry.attach, KeyedSet.modify, List.getElem?_map, he, Option.map_some]
  by_cases hn : n = t.fqn
  · exact ⟨e.declare d, by rw [if_pos hn], e.later_declare d⟩
  · exact ⟨e, by rw [if_neg hn], .refl e⟩

theorem perform (r : Registry) (a : LoadStep) : r.TypesKept (r.perform a) := by
  cases a with
  | package p => exact of_types_eq rfl
  | type t => exact addTypes r [t]
  | attach t d => exact attach r t d
  | func f => exact of_types_eq rfl

theorem performAll (r : Registry) (steps : List LoadStep) : r.TypesKept (r.performAll steps) := by
  induction steps generalizing r with
  | nil => exact of_types_eq rfl
  | cons a steps ih => exact (perform r a).trans (ih _)

theorem resolveSignature (r : Registry) (m : String) : r.TypesKept (r.resolveSignature m) := by
  rcases r.resolveSignature_cases m with heq | ⟨f, -, -, htypes, -⟩
  · rw [heq]
    exact of_types_eq rfl
  · exact (addTypes r _).trans (of_types_eq htypes)

theorem loaded (h : Loaded r us s) (hr : r.AtRest) : r.TypesKept s :=
  h.induct (P := r.TypesKept) hr (of_types_eq rfl)
    (fun _ _ hs => hs.trans (of_types_eq rfl))
    (fun _ _ _ hs => hs.trans (performAll _ _))
    (fun _ _ _ _ _ _ hs => hs.trans (performAll _ _))
    (fun _ _ hs => hs.trans (resolveSignature _ _))
    fun _ _ ha hs => hs.trans (of_types_eq ha.types)

end TypesKept

/-! ## Packages and functions -/

theorem isPrefix_packages (h : Loaded r us s) (hr : r.AtRest) :
    r.packages.entries <+: s.packages.entries := by
  refine h.elim (P := fun s => r.packages.entries <+: s.packages.entries) hr ?_ ?_ ?_
  · rw [packages_loadEach]
    exact KeyedSet.entries_prefix_insertAll _
  · rw [packages_loadAll]
    exact KeyedSet.entries_prefix_insertAll _
  · intro s s' ha hs
    rw [ha.packages]
    exact hs

/-- Functions of later units are listed after those that were listed before. -/
theorem isPrefix_funcs (hr : r.WellFormed) (hs : s.WellFormed)
    (kept : ∀ n f, r.findFunc? n = some f → s.findFunc? n = some f)
    (later : ∀ n f, r.findFunc? n = none → s.findFunc? n = some f →
      r.nextUnit ≤ f.ordinal.unit) : r.funcs <+: s.funcs := by
  have hbefore : ∀ f ∈ r.funcs, f.ordinal.unit < r.nextUnit := by
    intro f hf
    obtain ⟨n, hn⟩ := mem_funcs_iff.1 hf
    exact hr.numbered _ hn
  have hkept : ∀ f ∈ r.funcs, f ∈ s.funcs := fun f hf =>
    (mem_funcs_iff_findFunc? hs).2 (kept _ _ ((mem_funcs_iff_findFunc? hr).1 hf))
  have hnew : ∀ f ∈ s.funcs, f ∈ r.funcs ∨ r.nextUnit ≤ f.ordinal.unit := by
    intro f hf
    have hfind := (mem_funcs_iff_findFunc? hs).1 hf
    cases hold : r.findFunc? f.fqn with
    | none => exact .inr (later _ _ hold hfind)
    | some g =>
      obtain rfl : f = g := Option.some.inj (hfind.symm.trans (kept _ _ hold))
      exact .inl ((mem_funcs_iff_findFunc? hr).2 hold)
  have happ : (r.funcs ++ s.funcs.filter fun f => r.nextUnit ≤ f.ordinal.unit).Nodup := by
    refine List.nodup_append.2 ⟨hr.nodup_funcs, hs.nodup_funcs.filter _, ?_⟩
    rintro f hf g hg rfl
    have hlow := hbefore f hf
    have hhigh := of_decide_eq_true (List.mem_filter.1 hg).2
    omega
  have hperm : s.funcs.Perm (r.funcs ++ s.funcs.filter fun f => r.nextUnit ≤ f.ordinal.unit) := by
    rw [List.perm_ext_iff_of_nodup hs.nodup_funcs happ]
    intro f
    rw [List.mem_append, List.mem_filter, decide_eq_true_eq]
    exact ⟨fun hf => (hnew f hf).imp_right fun hle => ⟨hf, hle⟩,
      fun hf => hf.elim (hkept f) And.left⟩
  have hsorted : (r.funcs ++ s.funcs.filter fun f => r.nextUnit ≤ f.ordinal.unit).Pairwise
      fun f g => f.ordinal.le g.ordinal = true := by
    refine List.pairwise_append.2 ⟨sorted_funcs, sorted_funcs.filter _, fun f hf g hg => ?_⟩
    have hlow := hbefore f hf
    have hhigh := of_decide_eq_true (List.mem_filter.1 hg).2
    simp only [Ordinal.le, Bool.or_eq_true, decide_eq_true_eq]
    omega
  -- two lists of the same functions in the order of the places
  refine ⟨_, (hperm.eq_of_pairwise (fun f g hf hg hfg hgf => ?_) sorted_funcs hsorted).symm⟩
  exact hs.eq_of_ordinal_eq hf (hperm.mem_iff.2 hg) (Ordinal.le_antisymm hfg hgf)

theorem Loaded.isPrefix_funcs (h : Loaded r us s) (hr : r.AtRest) : r.funcs <+: s.funcs := by
  refine Registry.isPrefix_funcs hr.reachable.wellFormed (h.wellFormed hr) (h.grown hr).kept ?_
  intro n f hnone hf
  have hfirst := h.bare_findFunc? hr n
  rw [hnone, hf, Option.map_none, Option.none_or, Option.map_some, eq_comm,
    Option.map_eq_some_iff] at hfirst
  obtain ⟨e, he, hef⟩ := hfirst
  obtain ⟨i, -, hi, -⟩ := mem_placed.1 (List.mem_of_find?_eq_some he)
  have hplace : f.ordinal = e.ordinal := by rw [← Func.ordinal_bare, ← hef, Placed.ordinal_func]
  rw [hplace, hi]
  exact Nat.le_add_right _ _

/-! ## Calls -/

/-- What was listed is listed still, at the same place. -/
structure Extends (r s : Registry) : Prop where
  packages : r.packages.items <+: s.packages.items
  types : ∀ (i : Nat) (e : TypeEntry), r.types.items[i]? = some e →
    ∃ e', s.types.items[i]? = some e' ∧ e.Later e'
  funcs : r.funcs <+: s.funcs

namespace Extends

theorem of_parts (hpackages : r.packages.entries <+: s.packages.entries) (htypes : r.TypesKept s)
    (hfuncs : r.funcs <+: s.funcs) : r.Extends s := by
  refine ⟨hpackages.map _, fun i e he => ?_, hfuncs⟩
  rw [KeyedSet.items, List.getElem?_map, Option.map_eq_some_iff] at he
  obtain ⟨⟨n, e⟩, hi, rfl⟩ := he
  obtain ⟨e', hi', hlater⟩ := htypes i n e hi
  exact ⟨e', by rw [KeyedSet.items, List.getElem?_map, hi', Option.map_some], hlater⟩

theorem refl (r : Registry) : r.Extends r :=
  of_parts (List.prefix_refl _) (.of_types_eq rfl) (List.prefix_refl _)

theorem trans (h : r.Extends s) (h' : s.Extends s') : r.Extends s' := by
  refine ⟨h.packages.trans h'.packages, fun i e he => ?_, h.funcs.trans h'.funcs⟩
  obtain ⟨e₁, he₁, hlater₁⟩ := h.types i e he
  obtain ⟨e₂, he₂, hlater₂⟩ := h'.types i e₁ he₁
  exact ⟨e₂, he₂, hlater₁.trans hlater₂⟩

theorem perform (r : Registry) (ha : a.func? = none) : r.Extends (r.perform a) := by
  refine of_parts ?_ (.perform r a) ?_
  · cases a with
    | package p => exact KeyedSet.entries_prefix_insert
    | _ => exact List.prefix_refl _
  · cases a with
    | func f => cases ha
    | _ => exact List.prefix_refl _

theorem loaded (h : Loaded r us s) (hr : r.AtRest) : r.Extends s :=
  of_parts (isPrefix_packages h hr) (.loaded h hr) (h.isPrefix_funcs hr)

theorem call (hr : r.AtRest) (h : Call r s) : r.Extends s := by
  have hpackage : ∀ path, r.Extends (r.addPackage (.ofPath path)) := fun path =>
    perform r (a := .package (.ofPath path)) rfl
  cases h with
  | package path => exact hpackage path
  | typeIn package name =>
    cases package with
    | none => exact perform r (a := .type (.lookup none name)) rfl
    | some path =>
      exact (hpackage path).trans (perform _ (a := .type (.lookup (some (.ofPath path)) name)) rfl)
  | declareType package d =>
    have htype := (hpackage package).trans
      (perform _ (a := .type (.lookup (some (.ofPath package)) d.name)) rfl)
    exact htype.trans (perform _ (a := .attach _ (declarationOf r.settings.marker none d)) rfl)
  | load h => exact loaded h hr
  | look => exact refl r

theorem calls (hr : r.AtRest) (h : Relation.ReflTransGen Call r s) : r.Extends s := by
  induction h with
  | refl => exact refl r
  | tail hcalls next ih => exact ih.trans (call (hr.calls hcalls).1 next)

end Extends

/-- **Whatever is called, a registry only grows.**  A function stays with its signature, since no
call ends before the signatures are looked up. -/
theorem ByCalls.grows (hr : r.ByCalls) (h : Relation.ReflTransGen Call r s) :
    r.Extends s ∧ ∀ f ∈ r.funcs, f.signature?.isSome := by
  refine ⟨.calls hr.atRest h, fun f hf => ?_⟩
  exact hr.atRest.settled _ f ((mem_funcs_iff_findFunc? hr.atRest.reachable.wellFormed).1 hf)

/-- A registry that loaded one file, which declares `T` and mentions `U`. -/
def shelf : Registry :=
  ((empty .default).loadAll
    [⟨"p", some "a.go", [], [⟨"T", .struct, []⟩], [takes "Open" "U"]⟩]).2

/-- The same registry after `U` is declared, and after two more files: one declares `T` and `Open`
again and is loaded together with the other. -/
def fullShelf : Registry :=
  ((shelf.declareType "p" ⟨"U", .interface, []⟩).2.loadAll
    [⟨"p", some "b.go", [], [⟨"T", .other, []⟩], [takes "Open" "T"]⟩,
      ⟨"p", some "c.go", [], [⟨"V", .other, []⟩], [takes "Close" "V"]⟩]).2

theorem byCalls_shelf : shelf.ByCalls := by
  have hr : (empty .default).ByCalls := @ByCalls.create .default _ (by cbv)
  exact hr.call (.load .all)

theorem calls_fullShelf : Relation.ReflTransGen Call shelf fullShelf :=
  (Relation.ReflTransGen.single (.declareType "p" ⟨"U", .interface, []⟩)).tail (.load .all)

theorem grows_fullShelf : shelf.ByCalls ∧ Relation.ReflTransGen Call shelf fullShelf ∧
    shelf.Extends fullShelf ∧
    shelf.types.items.map (fun e => (e.name.fqn, e.declaration.map (·.kind)))
      = [("p.T", some .struct), ("p.U", none)] ∧
    fullShelf.types.items.map (fun e => (e.name.fqn, e.declaration.map (·.kind)))
      = [("p.T", some .struct), ("p.U", some .interface), ("p.V", some .other)] ∧
    fullShelf.funcs.map (fun f => (f.fqn, f.file))
      = [("p.Open", some "a.go"), ("p.Close", some "c.go")] :=
  ⟨byCalls_shelf, calls_fullShelf, (byCalls_shelf.grows calls_fullShelf).1, by cbv, by cbv, by cbv⟩

end Registry

end Wiring
