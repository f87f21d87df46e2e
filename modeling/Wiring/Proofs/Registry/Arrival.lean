import Wiring.Proofs.Registry.Parts

/-!
# The order of arrival does not show

Two registries are `Alike` when they differ at most in the order in which their functions arrived.
Whoever lists the functions lists them by their places, so this order cannot be seen
(`Alike.funcs_eq`), as long as no two functions have one place; and looking up signatures, which
takes the functions in the order of their places, keeps registries alike
(`Alike.resolveSignatures`).

`WellFormed` is what every registry promises about its functions: each stands under its own full
name and has a place of its own in a unit that has its number already.  None of this rests on
signatures, and a signature is all that changes when it is looked up
(`bareArrivals_resolveSignatures`).
-/

namespace Wiring

namespace Ordinal

theorem le_trans {a b c : Ordinal} (hab : a.le b = true) (hbc : b.le c = true) :
    a.le c = true := by
  simp only [Ordinal.le, Bool.or_eq_true, Bool.and_eq_true, decide_eq_true_eq, beq_iff_eq] at *
  omega

theorem le_total (a b : Ordinal) : (a.le b || b.le a) = true := by
  simp only [Ordinal.le, Bool.or_eq_true, Bool.and_eq_true, decide_eq_true_eq, beq_iff_eq]
  omega

theorem le_antisymm {a b : Ordinal} (hab : a.le b = true) (hba : b.le a = true) : a = b := by
  obtain ⟨u, i⟩ := a
  obtain ⟨v, j⟩ := b
  simp only [Ordinal.le, Bool.or_eq_true, Bool.and_eq_true, decide_eq_true_eq, beq_iff_eq,
    Ordinal.mk.injEq] at *
  omega

end Ordinal

namespace Registry

variable {r r' : Registry} {fqn : String} {f : Func}

/-- The places of the functions, in the order of their arrival. -/
def ordinals (r : Registry) : List Ordinal :=
  r.arrivals.entries.map fun e => e.2.ordinal

/-- Every function stands under its own full name, at a place of its own, in a unit before the next.
-/
structure WellFormed (r : Registry) : Prop where
  named : ∀ e ∈ r.arrivals.entries, e.2.fqn = e.1
  numbered : ∀ e ∈ r.arrivals.entries, e.2.ordinal.unit < r.nextUnit
  placed : r.ordinals.Nodup

/-- The same registries but for the order in which the functions arrived. -/
structure Alike (r r' : Registry) : Prop where
  settings : r.settings = r'.settings
  packages : r.packages = r'.packages
  types : r.types = r'.types
  arrivals : r.arrivals.entries.Perm r'.arrivals.entries
  nextUnit : r.nextUnit = r'.nextUnit

theorem Alike.declaration?_eq (h : r.Alike r') (fqn : String) :
    r.declaration? fqn = r'.declaration? fqn := by
  rw [declaration?, declaration?, findType?, findType?, h.types]

theorem Alike.findFunc?_eq (h : r.Alike r') (fqn : String) : r.findFunc? fqn = r'.findFunc? fqn :=
  KeyedSet.get?_perm h.arrivals fqn

/-! ## Listing the functions -/

theorem perm_funcs : r.funcs.Perm r.arrivals.items :=
  List.mergeSort_perm _ _

theorem mem_funcs_iff : f ∈ r.funcs ↔ ∃ fqn, (fqn, f) ∈ r.arrivals.entries := by
  rw [perm_funcs.mem_iff, KeyedSet.items]
  simp

theorem sorted_funcs : r.funcs.Pairwise fun f g => f.ordinal.le g.ordinal = true :=
  @List.pairwise_mergeSort _ (fun f g => f.ordinal.le g.ordinal)
    (fun _ _ _ => Ordinal.le_trans) (fun _ _ => Ordinal.le_total _ _) r.arrivals.items

/-- A place belongs to one function. -/
theorem WellFormed.eq_of_ordinal_eq (hr : r.WellFormed) {f g : Func} (hf : f ∈ r.funcs)
    (hg : g ∈ r.funcs) (h : f.ordinal = g.ordinal) : f = g := by
  obtain ⟨n, hn⟩ := mem_funcs_iff.1 hf
  obtain ⟨m, hm⟩ := mem_funcs_iff.1 hg
  exact congrArg Prod.snd (List.inj_on_of_nodup_map hr.placed hn hm h)

/-- The functions are listed with their places in a row. -/
theorem WellFormed.nodup_places (hr : r.WellFormed) : (r.funcs.map Func.ordinal).Nodup := by
  refine (perm_funcs.map _).nodup_iff.2 ?_
  rw [KeyedSet.items, List.map_map]
  exact hr.placed

theorem WellFormed.nodup_funcs (hr : r.WellFormed) : r.funcs.Nodup :=
  hr.nodup_places.of_map _

/-- A full name belongs to one function. -/
theorem WellFormed.eq_of_fqn_eq (hr : r.WellFormed) {f g : Func} (hf : f ∈ r.funcs)
    (hg : g ∈ r.funcs) (h : f.fqn = g.fqn) : f = g := by
  obtain ⟨n, hn⟩ := mem_funcs_iff.1 hf
  obtain ⟨m, hm⟩ := mem_funcs_iff.1 hg
  obtain rfl : n = m := (hr.named _ hn).symm.trans (h.trans (hr.named _ hm))
  have hf' := KeyedSet.get?_eq_some_iff.2 hn
  exact Option.some.inj (hf'.symm.trans (KeyedSet.get?_eq_some_iff.2 hm))

/-- **The order of arrival does not show among the functions.** -/
theorem Alike.funcs_eq (h : r.Alike r') (hr : r.WellFormed) : r.funcs = r'.funcs := by
  have hperm : r.funcs.Perm r'.funcs :=
    perm_funcs.trans ((h.arrivals.map Prod.snd).trans perm_funcs.symm)
  refine hperm.eq_of_pairwise (fun f g hf hg hfg hgf => ?_) sorted_funcs sorted_funcs
  exact hr.eq_of_ordinal_eq hf (hperm.mem_iff.2 hg) (Ordinal.le_antisymm hfg hgf)

/-! ## Looking up signatures -/

theorem addTypes_eq (ts : List TypeName) : r.addTypes ts
    = { r with types := r.types.insertAll (ts.map fun t => (t.fqn, ⟨t, none⟩)) } := by
  induction ts generalizing r with
  | nil => rfl
  | cons t ts ih => exact ih

/-- The registry with the types that a function refers to. -/
def withMentioned (r : Registry) (f : Func) : Registry :=
  r.addTypes (f.scope.mentioned f.decl)

/-- A function with its signature as the registry has it. -/
def signed (r : Registry) (f : Func) : Func :=
  { f with signature? := some (f.scope.signature r.canonical f.decl) }

/-- A function gets its signature the first time that it is looked up. -/
theorem resolveSignature_eq (r : Registry) (fqn : String) : r.resolveSignature fqn
    = match r.arrivals.get? fqn with
      | some f => if f.signature?.isSome then r else
          { r.withMentioned f with
            arrivals := r.arrivals.modify fqn fun _ => (r.withMentioned f).signed f }
      | none => r := by
  unfold resolveSignature
  cases r.arrivals.get? fqn with
  | none => rfl
  | some f =>
    obtain ⟨decl, scope, ordinal, signature?⟩ := f
    cases signature? with
    | none => simp [signed, withMentioned, addTypes_eq]
    | some σ => rfl

theorem Alike.resolveSignature (h : r.Alike r') (fqn : String) :
    (r.resolveSignature fqn).Alike (r'.resolveSignature fqn) := by
  have hget : r.arrivals.get? fqn = r'.arrivals.get? fqn := h.findFunc?_eq fqn
  rw [resolveSignature_eq, resolveSignature_eq, hget]
  cases r'.arrivals.get? fqn with
  | none => exact h
  | some f =>
    have htypes : (r.withMentioned f).types = (r'.withMentioned f).types := by
      rw [withMentioned, withMentioned, addTypes_eq, addTypes_eq, h.types]
    have hsigned : (r.withMentioned f).signed f = (r'.withMentioned f).signed f := by
      have hc : (r.withMentioned f).canonical = (r'.withMentioned f).canonical := by
        funext t
        rw [canonical, canonical, htypes]
      rw [signed, signed, hc]
    dsimp only
    by_cases hs : f.signature?.isSome = true
    · rw [if_pos hs, if_pos hs]
      exact h
    · rw [if_neg hs, if_neg hs, hsigned]
      refine ⟨?_, ?_, htypes, ?_, ?_⟩
      · simpa [withMentioned, addTypes_eq] using h.settings
      · simpa [withMentioned, addTypes_eq] using h.packages
      · exact h.arrivals.map _
      · simpa [withMentioned, addTypes_eq] using h.nextUnit

/-- **Looking up signatures keeps registries alike.** -/
theorem Alike.resolveSignatures (h : r.Alike r') (fqns : List String) :
    (r.resolveSignatures fqns).Alike (r'.resolveSignatures fqns) := by
  induction fqns generalizing r r' with
  | nil => exact h
  | cons fqn fqns ih => exact ih (h.resolveSignature fqn)

/-! ## What a signature does not change -/

def bareArrivals (r : Registry) : List (String × Func) :=
  r.arrivals.entries.map fun e => (e.1, e.2.bare)

theorem bareArrivals_resolveSignature (r : Registry) (fqn : String) :
    (r.resolveSignature fqn).bareArrivals = r.bareArrivals := by
  rw [resolveSignature_eq]
  cases hf : r.arrivals.get? fqn with
  | none => rfl
  | some f =>
    dsimp only
    by_cases hs : f.signature?.isSome = true
    · rw [if_pos hs]
    · rw [if_neg hs]
      simp only [bareArrivals, KeyedSet.modify, List.map_map]
      refine List.map_congr_left fun e he => ?_
      obtain ⟨n, g⟩ := e
      by_cases hn : n = fqn
      · subst hn
        obtain rfl : f = g := Option.some.inj (hf.symm.trans (KeyedSet.get?_eq_some_iff.2 he))
        simp [signed, Func.bare]
      · simp [hn]

@[simp] theorem bareArrivals_resolveSignatures (fqns : List String) :
    (r.resolveSignatures fqns).bareArrivals = r.bareArrivals := by
  induction fqns generalizing r with
  | nil => rfl
  | cons fqn fqns ih => exact ih.trans (bareArrivals_resolveSignature r fqn)

theorem exists_resolveSignature_eq (r : Registry) (fqn : String) : ∃ types arrivals,
    r.resolveSignature fqn = { r with types := types, arrivals := arrivals } := by
  rw [resolveSignature_eq]
  cases r.arrivals.get? fqn with
  | none => exact ⟨r.types, r.arrivals, rfl⟩
  | some f =>
    dsimp only
    by_cases hs : f.signature?.isSome = true
    · exact ⟨r.types, r.arrivals, if_pos hs⟩
    · rw [if_neg hs, withMentioned, addTypes_eq]
      exact ⟨_, _, rfl⟩

/-- Only the types and the functions change when signatures are looked up. -/
theorem exists_resolveSignatures_eq (r : Registry) (fqns : List String) : ∃ types arrivals,
    r.resolveSignatures fqns = { r with types := types, arrivals := arrivals } := by
  induction fqns generalizing r with
  | nil => exact ⟨r.types, r.arrivals, rfl⟩
  | cons fqn fqns ih =>
    obtain ⟨types, arrivals, hone⟩ := r.exists_resolveSignature_eq fqn
    obtain ⟨types', arrivals', hrest⟩ := ih (r.resolveSignature fqn)
    refine ⟨types', arrivals', hrest.trans ?_⟩
    rw [hone]

@[simp] theorem nextUnit_resolveSignatures (fqns : List String) :
    (r.resolveSignatures fqns).nextUnit = r.nextUnit := by
  obtain ⟨types, arrivals, h⟩ := exists_resolveSignatures_eq r fqns
  rw [h]

@[simp] theorem settings_resolveSignatures (fqns : List String) :
    (r.resolveSignatures fqns).settings = r.settings := by
  obtain ⟨types, arrivals, h⟩ := exists_resolveSignatures_eq r fqns
  rw [h]

@[simp] theorem packages_resolveSignatures (fqns : List String) :
    (r.resolveSignatures fqns).packages = r.packages := by
  obtain ⟨types, arrivals, h⟩ := exists_resolveSignatures_eq r fqns
  rw [h]

theorem declaration?_resolveSignature (r : Registry) (n : String) :
    (r.resolveSignature n).declaration? fqn = r.declaration? fqn := by
  have hadd : ∀ (ts : List TypeName) (r : Registry),
      (r.addTypes ts).declaration? fqn = r.declaration? fqn := by
    intro ts
    induction ts with
    | nil => exact fun _ => rfl
    | cons t ts ih => exact fun r => (ih _).trans (declaration?_addType r t fqn)
  rw [resolveSignature_eq]
  cases r.arrivals.get? n with
  | none => rfl
  | some f =>
    dsimp only
    split
    · rfl
    · exact hadd _ r

@[simp] theorem declaration?_resolveSignatures (fqns : List String) :
    (r.resolveSignatures fqns).declaration? fqn = r.declaration? fqn := by
  induction fqns generalizing r with
  | nil => rfl
  | cons n fqns ih => exact ih.trans (declaration?_resolveSignature r n)

/-- Of a function, only the signature changes. -/
theorem bare_findFunc?_resolveSignatures (fqns : List String) :
    ((r.resolveSignatures fqns).findFunc? fqn).map Func.bare = (r.findFunc? fqn).map Func.bare := by
  have hlookup : ∀ r : Registry, (r.findFunc? fqn).map Func.bare = r.bareArrivals.lookup fqn := by
    intro r
    have hself : r.arrivals.entries.lookup fqn
        = (r.arrivals.entries.find? (·.1 == fqn)).map Prod.snd := by
      rw [← KeyedSet.lookup_map, List.map_id']
    rw [findFunc?, KeyedSet.get?, hself, bareArrivals, KeyedSet.lookup_map, Option.map_map]
    rfl
  rw [hlookup, hlookup, bareArrivals_resolveSignatures]

/-- Full names and places are all that matters. -/
theorem wellFormed_congr (h : r.bareArrivals = r'.bareArrivals) (hu : r.nextUnit = r'.nextUnit)
    (hr : r.WellFormed) : r'.WellFormed := by
  have hof : ∀ e ∈ r'.arrivals.entries, ∃ e' ∈ r.arrivals.entries,
      e'.1 = e.1 ∧ e'.2.bare = e.2.bare := by
    intro e he
    have hm : (e.1, e.2.bare) ∈ r.bareArrivals := h ▸ List.mem_map_of_mem he
    obtain ⟨e', he', heq⟩ := List.mem_map.1 hm
    exact ⟨e', he', (Prod.mk.inj heq).1, (Prod.mk.inj heq).2⟩
  refine ⟨fun e he => ?_, fun e he => ?_, ?_⟩
  · obtain ⟨e', he', hn, hb⟩ := hof e he
    rw [← hn, ← hr.named e' he', ← Func.fqn_bare, ← hb, Func.fqn_bare]
  · obtain ⟨e', he', -, hb⟩ := hof e he
    rw [← Func.ordinal_bare, ← hb, Func.ordinal_bare, ← hu]
    exact hr.numbered e' he'
  · have hmap : ∀ r : Registry, r.ordinals = r.bareArrivals.map fun e => e.2.ordinal :=
      fun r => by simp [ordinals, bareArrivals]
    rw [hmap, ← h, ← hmap]
    exact hr.placed

theorem WellFormed.resolveSignatures (hr : r.WellFormed) (fqns : List String) :
    (r.resolveSignatures fqns).WellFormed :=
  wellFormed_congr (by simp) (by simp) hr

end Registry

end Wiring
