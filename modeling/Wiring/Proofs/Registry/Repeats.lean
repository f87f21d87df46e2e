import Mathlib
import Wiring.Proofs.Registry.Reload

/-!
# Repeats in a batch

A batch can name a unit several times, and it can name units that were loaded before.  It leaves
what it would leave without these repeats (`reload_harmless`), but for one thing: a unit is
numbered by its place in the batch, so a repeat takes a number too, and the units after it are
numbered higher.  `Renumbers` says of two registries that they differ in these numbers only.

The first pass lists nothing for a repeat (`performAll_claimSteps_freshUnits`).  In the second pass
the first declaration of a full name counts, which is never one of a repeat
(`find?_placed_freshUnits`).  And a signature does not depend on a number, so the two registries
stay as they are to each other when the signatures are looked up (`Renumbers.resolved`); the order
in which this happens is the same, since the numbers are changed in order
(`numberIn_lt`).
-/

namespace Wiring

variable {number : Nat → Nat}

/-! ## Other numbers -/

def Ordinal.renumber (number : Nat → Nat) (o : Ordinal) : Ordinal :=
  ⟨number o.unit, o.index⟩

def Placed.renumber {δ : Type} (number : Nat → Nat) (e : Placed δ) : Placed δ :=
  { e with ordinal := e.ordinal.renumber number }

namespace Func

def renumber (number : Nat → Nat) (f : Func) : Func :=
  { f with ordinal := f.ordinal.renumber number }

@[simp] theorem fqn_renumber (f : Func) : (f.renumber number).fqn = f.fqn := rfl

theorem renumber_eq_self {f : Func} (h : number f.ordinal.unit = f.ordinal.unit) :
    f.renumber number = f := by
  rw [renumber, Ordinal.renumber, h]

end Func

/-- The units of a batch without repeats: those that were not loaded before, each once. -/
def freshUnits (old us : List SourceUnit) : List SourceUnit :=
  us.eraseDups.filter (· ∉ old)

/-- The number in the batch `us` of the unit that has the number `n` in the batch `vs`, where both
are numbered from `base` on. -/
def numberIn (base : Nat) (us vs : List SourceUnit) (n : Nat) : Nat :=
  if n < base then n else vs[n - base]?.elim n fun u => base + us.idxOf u

section

variable {old us vs : List SourceUnit} {u v : SourceUnit} {base n m i j : Nat}

theorem mem_freshUnits : u ∈ freshUnits old us ↔ u ∈ us ∧ u ∉ old := by
  rw [freshUnits, List.mem_filter, List.mem_eraseDups, decide_eq_true_eq]

theorem freshUnits_append_singleton (old us : List SourceUnit) (u : SourceUnit) :
    freshUnits old (us ++ [u])
      = if u ∈ us ∨ u ∈ old then freshUnits old us else freshUnits old us ++ [u] := by
  rw [freshUnits, eraseDups_append_singleton]
  by_cases hus : u ∈ us
  · rw [if_pos (List.mem_eraseDups.2 hus), if_pos (.inl hus), freshUnits]
  · rw [if_neg (mt List.mem_eraseDups.1 hus), List.filter_append, freshUnits]
    by_cases hold : u ∈ old <;> simp [hus, hold]

/-- The units that are kept stand in the order of their first places in the batch. -/
theorem idxOf_lt_of_freshUnits (hu : (freshUnits old us)[i]? = some u)
    (hv : (freshUnits old us)[j]? = some v) (h : i < j) : us.idxOf u < us.idxOf v := by
  have hsorted : (freshUnits old us).Pairwise fun u v => us.idxOf u < us.idxOf v :=
    (pairwise_idxOf_eraseDups us).sublist List.filter_sublist
  obtain ⟨hi, rfl⟩ := List.getElem?_eq_some_iff.1 hu
  obtain ⟨hj, rfl⟩ := List.getElem?_eq_some_iff.1 hv
  exact List.pairwise_iff_getElem.1 hsorted i j hi hj h

theorem numberIn_of_lt (h : n < base) : numberIn base us vs n = n :=
  if_pos h

theorem numberIn_add (h : vs[i]? = some u) : numberIn base us vs (base + i) = base + us.idxOf u := by
  rw [numberIn, if_neg (by omega), Nat.add_sub_cancel_left, h]
  rfl

/-- **The numbers are changed in order.** -/
theorem numberIn_lt (hmn : m < n) (hn : n < base + (freshUnits old us).length) :
    numberIn base us (freshUnits old us) m < numberIn base us (freshUnits old us) n := by
  have hunit : ∀ k, base ≤ k → k < base + (freshUnits old us).length →
      ∃ i u, k = base + i ∧ (freshUnits old us)[i]? = some u := by
    intro k hk hlt
    exact ⟨k - base, _, by omega, List.getElem?_eq_getElem (by omega)⟩
  rcases Nat.lt_or_ge n base with hlow | hhigh
  · rw [numberIn_of_lt hlow, numberIn_of_lt (by omega)]
    exact hmn
  · obtain ⟨j, v, rfl, hv⟩ := hunit n hhigh hn
    rw [numberIn_add hv]
    rcases Nat.lt_or_ge m base with hlow | hhigh
    · rw [numberIn_of_lt hlow]
      omega
    · obtain ⟨i, u, rfl, hu⟩ := hunit m hhigh (by omega)
      rw [numberIn_add hu]
      have hlt := idxOf_lt_of_freshUnits hu hv (by omega)
      omega

/-- Where the repeats come last the numbers stay. -/
theorem numberIn_eq_self (h : freshUnits old us <+: us)
    (hn : n < base + (freshUnits old us).length) : numberIn base us (freshUnits old us) n = n := by
  rcases Nat.lt_or_ge n base with hlow | hhigh
  · exact numberIn_of_lt hlow
  · have hnodup : (freshUnits old us).Nodup := (nodup_eraseDups us).filter _
    have hlt : n - base < (freshUnits old us).length := by omega
    have hplace : us.idxOf (freshUnits old us)[n - base] = n - base := by
      rw [← h.idxOf_eq_of_mem (List.getElem_mem hlt), hnodup.idxOf_getElem]
    have hnum : numberIn base us (freshUnits old us) (base + (n - base)) = base + (n - base) := by
      rw [numberIn_add (List.getElem?_eq_getElem hlt), hplace]
    rwa [Nat.add_sub_cancel' hhigh] at hnum

variable {δ : Type} {get : SourceUnit → List δ} {name : SourceUnit → δ → String} {fqn : String}
  {d : δ}

/-- A unit of which a declaration is the first one stands at its first place. -/
theorem DeclaredFirst.idxOf_eq (h : DeclaredFirst get name us fqn i j u d) : us.idxOf u = i := by
  have hus : u ∈ us := List.mem_of_getElem? h.unit
  have hle := h.first _ _ _ _ (List.getElem?_idxOf hus) h.decl h.named
  obtain ⟨hi, hunit⟩ := List.getElem?_eq_some_iff.1 h.unit
  have htake : u ∈ us.take (i + 1) := List.mem_take_iff_getElem.2 ⟨i, by omega, hunit⟩
  have hlt := (List.mem_take_iff_idxOf_lt hus).1 htake
  omega

/-- Without the repeats the same declaration is the first one. -/
theorem DeclaredFirst.without_repeats (h : DeclaredFirst get name us fqn i j u d)
    (hn : (freshUnits old us)[n]? = some u) :
    DeclaredFirst get name (freshUnits old us) fqn n j u d := by
  refine ⟨hn, h.decl, h.named, fun n' j' v d' hv hd hname => ?_⟩
  have hplace : us[us.idxOf v]? = some v :=
    List.getElem?_idxOf (mem_freshUnits.1 (List.mem_of_getElem? hv)).1
  have hle := h.first _ _ _ _ hplace hd hname
  rw [← h.idxOf_eq] at hle
  rcases Nat.lt_trichotomy n n' with hlt | rfl | hgt
  · exact .inl hlt
  · obtain rfl : u = v := Option.some.inj (hn.symm.trans hv)
    exact .inr ⟨rfl, by omega⟩
  · have hlt := idxOf_lt_of_freshUnits hv hn hgt
    omega

/-- **The first declaration of a full name is not one of a repeat.** -/
theorem find?_placed_freshUnits (hold : ∀ u ∈ old, ∀ d ∈ get u, name u d ≠ fqn) :
    (placed get base us).find? (fun e => name e.unit e.decl == fqn)
      = ((placed get base (freshUnits old us)).find? fun e => name e.unit e.decl == fqn).map
        (Placed.renumber (numberIn base us (freshUnits old us))) := by
  cases h : (placed get base us).find? fun e => name e.unit e.decl == fqn with
  | none =>
    rw [eq_comm, Option.map_eq_none_iff, List.find?_eq_none]
    intro e he hname
    obtain ⟨i, hi, -, hd⟩ := mem_placed.1 he
    obtain ⟨k, hk⟩ := List.getElem?_of_mem (mem_freshUnits.1 (List.mem_of_getElem? hi)).1
    have hmem : (⟨⟨base + k, e.ordinal.index⟩, e.unit, e.decl⟩ : Placed δ) ∈ placed get base us :=
      mem_placed.2 ⟨k, hk, rfl, hd⟩
    exact List.find?_eq_none.1 h _ hmem hname
  | some e =>
    obtain ⟨i, hi, hfirst⟩ := find?_placed.1 h
    have hus : e.unit ∈ us := List.mem_of_getElem? hfirst.unit
    have hnew : e.unit ∉ old := fun hmem =>
      hold e.unit hmem e.decl (List.mem_of_getElem? hfirst.decl) hfirst.named
    obtain ⟨k, hk⟩ := List.getElem?_of_mem (mem_freshUnits.2 ⟨hus, hnew⟩)
    have hfind : (placed get base (freshUnits old us)).find? (fun e => name e.unit e.decl == fqn)
        = some ⟨⟨base + k, e.ordinal.index⟩, e.unit, e.decl⟩ :=
      find?_placed.2 ⟨k, rfl, hfirst.without_repeats hk⟩
    rw [hfind, Option.map_some, Placed.renumber, Ordinal.renumber, numberIn_add hk,
      hfirst.idxOf_eq, ← hi]

end

namespace TypeEntry

theorem foldl_declare_of_isSome {e : TypeEntry} (h : e.declaration.isSome)
    (ds : List TypeDeclaration) : ds.foldl declare e = e := by
  induction ds with
  | nil => rfl
  | cons d ds ih => rw [List.foldl_cons, declare_of_isSome h, ih]

/-- Of several declarations only the first one counts. -/
theorem foldl_declare (e : TypeEntry) (ds : List TypeDeclaration) :
    ds.foldl declare e = ds.head?.elim e e.declare := by
  cases ds with
  | nil => rfl
  | cons d ds => exact foldl_declare_of_isSome rfl ds

end TypeEntry

namespace Registry

variable {r s s' : Registry} {old us : List SourceUnit} {n : String}

/-! ## The same with other numbers -/

/-- `r` is what `s` is when units have other numbers. -/
structure Renumbers (number : Nat → Nat) (r s : Registry) : Prop where
  packages : r.packages = s.packages
  types : r.types = s.types
  funcs : ∀ n, r.findFunc? n = (s.findFunc? n).map (Func.renumber number)

namespace Renumbers

/-- Numbers that are changed in order leave the functions in their order. -/
theorem funcs_eq (h : Renumbers number r s) (hr : r.WellFormed) (hs : s.WellFormed)
    (hnumber : ∀ m n, m < n → n < s.nextUnit → number m < number n) :
    r.funcs = s.funcs.map (Func.renumber number) := by
  have hlisted : ∀ f ∈ s.funcs, f.ordinal.unit < s.nextUnit := by
    intro f hf
    obtain ⟨n, hn⟩ := mem_funcs_iff.1 hf
    exact hs.numbered _ hn
  refine eq_of_before hr.pairwise_funcs (List.pairwise_map.2 ?_) fun f => ?_
  · refine hs.pairwise_funcs.imp_of_mem fun {f g} _ hg hfg => ?_
    rcases hfg with hlt | ⟨heq, hlt⟩
    · exact .inl (hnumber _ _ hlt (hlisted g hg))
    · exact .inr ⟨congrArg number heq, hlt⟩
  · rw [mem_funcs_iff_findFunc? hr, h.funcs, Option.map_eq_some_iff, List.mem_map]
    constructor
    · rintro ⟨g, hg, rfl⟩
      exact ⟨g, (mem_funcs_iff_findFunc? hs).2 hg, rfl⟩
    · rintro ⟨g, hg, rfl⟩
      exact ⟨g, (mem_funcs_iff_findFunc? hs).1 hg, rfl⟩

/-- A signature does not depend on a number. -/
theorem settle_renumber (h : r.types = s.types) (f : Func) :
    r.settle (f.renumber number) = (s.settle f).renumber number := by
  have hcanonical : (r.withMentioned f).canonical = (s.withMentioned f).canonical := by
    funext t
    rw [canonical, canonical, withMentioned, withMentioned, addTypes_eq, addTypes_eq, h]
  by_cases hf : f.signature?.isSome = true
  · have hf' : (f.renumber number).signature?.isSome = true := hf
    rw [settle, settle, if_pos hf, if_pos hf']
  · have hf' : ¬(f.renumber number).signature?.isSome = true := hf
    rw [settle, settle, if_neg hf, if_neg hf', signed, signed, ← hcanonical]
    rfl

theorem resolveSignature (h : Renumbers number r s) (m : String) :
    Renumbers number (r.resolveSignature m) (s.resolveSignature m) where
  packages := by
    have hr : (r.resolveSignature m).packages = r.packages := packages_resolveSignatures [m]
    have hs : (s.resolveSignature m).packages = s.packages := packages_resolveSignatures [m]
    rw [hr, hs, h.packages]
  types := by
    have hget : r.arrivals.get? m = (s.arrivals.get? m).map (Func.renumber number) := h.funcs m
    rw [resolveSignature_eq, resolveSignature_eq, hget]
    cases s.arrivals.get? m with
    | none => exact h.types
    | some f =>
      dsimp only [Option.map_some]
      by_cases hf : f.signature?.isSome = true
      · have hf' : (f.renumber number).signature?.isSome = true := hf
        rw [if_pos hf, if_pos hf', h.types]
      · have hf' : ¬(f.renumber number).signature?.isSome = true := hf
        rw [if_neg hf, if_neg hf', withMentioned, withMentioned, addTypes_eq, addTypes_eq]
        dsimp only
        rw [h.types]
        rfl
  funcs n := by
    rw [findFunc?_resolveSignature, findFunc?_resolveSignature, h.funcs]
    by_cases hn : n = m
    · rw [if_pos hn, if_pos hn, Option.map_map, Option.map_map]
      congr 1
      funext f
      exact settle_renumber h.types f
    · rw [if_neg hn, if_neg hn]

theorem resolveSignatures (h : Renumbers number r s) (names : List String) :
    Renumbers number (r.resolveSignatures names) (s.resolveSignatures names) := by
  induction names generalizing r s with
  | nil => exact h
  | cons m names ih => exact ih (h.resolveSignature m)

/-- **Looking up the signatures.** -/
theorem resolved (h : Renumbers number r s) (hr : r.WellFormed) (hs : s.WellFormed)
    (hnumber : ∀ m n, m < n → n < s.nextUnit → number m < number n) :
    Renumbers number r.resolved s.resolved := by
  have hnames : r.funcs.map Func.fqn = s.funcs.map Func.fqn := by
    rw [h.funcs_eq hr hs hnumber, List.map_map]
    rfl
  rw [Registry.resolved, Registry.resolved, hnames]
  exact h.resolveSignatures _

end Renumbers

/-! ## The first pass -/

theorem performAll_reserve (r : Registry) (k : Nat) (steps : List LoadStep) :
    (r.reserve k).performAll steps = (r.performAll steps).reserve k := by
  induction steps generalizing r with
  | nil => rfl
  | cons a steps ih =>
    have hone : (r.reserve k).perform a = (r.perform a).reserve k := by cases a <;> rfl
    rw [performAll_cons, performAll_cons, hone, ih]

theorem known_performAll {a : LoadStep} (h : a.Known r) (steps : List LoadStep) :
    a.Known (r.performAll steps) := by
  cases a with
  | package p =>
    have hsub : r.packages.entries <+: (r.performAll steps).packages.entries := by
      rw [packages_performAll]
      exact KeyedSet.entries_prefix_insertAll _
    exact (hsub.map Prod.fst).subset h
  | type t => exact typeKeys_performAll_subset h
  | attach t d => exact typeKeys_performAll_subset h
  | func f => trivial

theorem known_performAll_claimSteps {u : SourceUnit} (hu : u ∈ us) :
    ∀ a ∈ u.claimSteps, a.Known (r.performAll (us.flatMap SourceUnit.claimSteps)) := by
  intro a ha
  have hmem : a ∈ us.flatMap SourceUnit.claimSteps := List.mem_flatMap.2 ⟨u, hu, ha⟩
  rcases List.mem_append.1 ha with ha | ha
  · obtain ⟨p, -, rfl⟩ := List.mem_map.1 ha
    exact mem_packageKeys_performAll hmem
  · obtain ⟨d, -, rfl⟩ := List.mem_map.1 ha
    exact mem_typeKeys_performAll hmem

/-- **A first pass lists nothing for repeats.** -/
theorem performAll_claimSteps_freshUnits (hold : ∀ u ∈ old, r.Holds u) (us : List SourceUnit) :
    r.performAll (us.flatMap SourceUnit.claimSteps)
      = r.performAll ((freshUnits old us).flatMap SourceUnit.claimSteps) := by
  induction us using List.reverseRecOn with
  | nil => rfl
  | append_singleton us u ih =>
    rw [List.flatMap_append, List.flatMap_singleton, performAll_append, freshUnits_append_singleton]
    by_cases hu : u ∈ us ∨ u ∈ old
    · rw [if_pos hu, ← ih]
      refine performAll_eq_self fun a ha => perform_of_known ha ?_
      rcases hu with hus | hold'
      · exact known_performAll_claimSteps hus a ha
      · exact known_performAll ((hold u hold').known_claimSteps a ha) _
    · rw [if_neg hu, List.flatMap_append, List.flatMap_singleton, performAll_append, ih]

theorem claimed_freshUnits (hold : ∀ u ∈ old, r.Holds u) (us : List SourceUnit) :
    (r.claimed us).packages = (r.claimed (freshUnits old us)).packages ∧
      (r.claimed us).types = (r.claimed (freshUnits old us)).types := by
  have hclaimed : ∀ us : List SourceUnit, r.claimed us
      = (r.performAll (us.flatMap SourceUnit.claimSteps)).reserve us.length :=
    fun us => performAll_reserve r us.length _
  rw [hclaimed, hclaimed, performAll_claimSteps_freshUnits hold]
  exact ⟨rfl, rfl⟩

/-! ## The second pass -/

/-- A type that is listed after the first pass gets the same declaration. -/
theorem foldl_attached_freshUnits (hold : ∀ u ∈ old, r.Holds u) (us : List SourceUnit)
    {e : TypeEntry} (he : r.declaration? n = e.declaration) :
    ((r.batch us).tasks.flatten.filterMap (LoadStep.attached? n)).foldl TypeEntry.declare e
      = ((r.batch (freshUnits old us)).tasks.flatten.filterMap (LoadStep.attached? n)).foldl
        TypeEntry.declare e := by
  cases hd : e.declaration with
  | some d =>
    have hsome : e.declaration.isSome := by rw [hd]; rfl
    rw [TypeEntry.foldl_declare_of_isSome hsome, TypeEntry.foldl_declare_of_isSome hsome]
  | none =>
    have hnot : ∀ u ∈ old, ∀ d ∈ u.types, u.typeFqn d ≠ n := by
      rintro u hu d hdecl rfl
      have hsome := (hold u hu).types d hdecl
      rw [he, hd] at hsome
      cases hsome
    rw [TypeEntry.foldl_declare, TypeEntry.foldl_declare, head?_attached_tasks,
      head?_attached_tasks, find?_placed_freshUnits hnot, Option.map_map]
    rfl

/-- A function is found in the same declaration. -/
theorem findFunc?_batch_freshUnits (hr : r.WellFormed) (hold : ∀ u ∈ old, r.Holds u)
    (us : List SourceUnit) (n : String) :
    ((r.claimed us).performAll (r.batch us).tasks.flatten).findFunc? n
      = (((r.claimed (freshUnits old us)).performAll
          (r.batch (freshUnits old us)).tasks.flatten).findFunc? n).map
        (Func.renumber (numberIn r.nextUnit us (freshUnits old us))) := by
  rw [findFunc?_batch, findFunc?_batch]
  cases hf : r.findFunc? n with
  | some f =>
    have hlow : f.ordinal.unit < r.nextUnit := hr.numbered (n, f) (KeyedSet.get?_eq_some_iff.1 hf)
    rw [Option.some_or, Option.some_or, Option.map_some,
      Func.renumber_eq_self (numberIn_of_lt hlow)]
  | none =>
    have hnot : ∀ u ∈ old, ∀ d ∈ u.funcs, u.funcFqn d ≠ n := by
      rintro u hu d hdecl rfl
      have hsome := (hold u hu).funcs d hdecl
      rw [hf] at hsome
      cases hsome
    rw [Option.none_or, Option.none_or, find?_placed_freshUnits hnot, Option.map_map,
      Option.map_map]
    rfl

/-- **Apart from the numbers, repeats do not show in what a batch declares.** -/
theorem renumbers_batch (hr : r.WellFormed) (hold : ∀ u ∈ old, r.Holds u) (us : List SourceUnit) :
    Renumbers (numberIn r.nextUnit us (freshUnits old us))
      ((r.claimed us).performAll (r.batch us).tasks.flatten)
      ((r.claimed (freshUnits old us)).performAll (r.batch (freshUnits old us)).tasks.flatten) := by
  obtain ⟨hpackages, htypes⟩ := claimed_freshUnits hold us
  refine ⟨?_, KeyedSet.ext_entries ?_, findFunc?_batch_freshUnits hr hold us⟩
  · rw [packages_performAll_of_known known_tasks, packages_performAll_of_known known_tasks,
      hpackages]
  · rw [types_performAll known_tasks, types_performAll known_tasks, htypes]
    refine List.map_congr_left fun e he => ?_
    have hfind : (r.claimed (freshUnits old us)).findType? e.1 = some e.2 :=
      KeyedSet.get?_eq_some_iff.2 he
    have hdeclaration : r.declaration? e.1 = e.2.declaration := by
      have hclaimed : (r.claimed (freshUnits old us)).declaration? e.1 = r.declaration? e.1 :=
        declaration?_claimed
      rw [← hclaimed, declaration?, hfind, Option.bind_some]
    rw [foldl_attached_freshUnits hold us hdeclaration]

theorem nextUnit_batch (r : Registry) (us : List SourceUnit) :
    ((r.claimed us).performAll (r.batch us).tasks.flatten).nextUnit = r.nextUnit + us.length := by
  rw [nextUnit_performAll, claimed, nextUnit_performAll]

theorem renumbers_loadAll (hr : r.AtRest) (hold : ∀ u ∈ old, r.Holds u) (us : List SourceUnit) :
    Renumbers (numberIn r.nextUnit us (freshUnits old us)) (r.loadAll us).2
      (r.loadAll (freshUnits old us)).2 := by
  have hwf : ∀ us : List SourceUnit,
      ((r.claimed us).performAll (r.batch us).tasks.flatten).WellFormed :=
    fun us => (hr.reachable.batch (List.Perm.refl _)).wellFormed
  rw [loadAll_eq, loadAll_eq]
  refine (renumbers_batch hr.reachable.wellFormed hold us).resolved (hwf _) (hwf _) ?_
  intro m n hmn hn
  rw [nextUnit_batch] at hn
  exact numberIn_lt hmn hn

/-- **Loading again is harmless.**  Units that were loaded before change nothing when they are
loaded again.  In a batch, units that were loaded before and units that are named twice change
nothing but the numbers of the units after them, and where they come last they do not change these
either. -/
theorem reload_harmless (h : After old r) (us : List SourceUnit) :
    (us ⊆ old → ∀ s, Loaded r us s →
      s.packages = r.packages ∧ s.types = r.types ∧ s.funcs = r.funcs) ∧
    ∀ s s', LoadedTogether r us s → LoadedTogether r (freshUnits old us) s' →
      s.packages = s'.packages ∧ s.types = s'.types ∧
        s.funcs = s'.funcs.map (Func.renumber (numberIn r.nextUnit us (freshUnits old us))) ∧
        (freshUnits old us <+: us → s.funcs = s'.funcs) := by
  have hr := h.atRest
  refine ⟨fun hus s hs => hs.of_holds hr fun u hu => h.holds u (hus hu), fun s s' hs hs' => ?_⟩
  have hsame := renumbers_loadAll hr h.holds us
  obtain ⟨hpackages, htypes, hfuncs⟩ := hs.lists_eq hr
  obtain ⟨hpackages', htypes', hfuncs'⟩ := hs'.lists_eq hr
  have hnext : (r.loadAll (freshUnits old us)).2.nextUnit
      = r.nextUnit + (freshUnits old us).length := nextUnit_loadAll r _
  have hwf := (hr.loadAll (freshUnits old us)).reachable.wellFormed
  have hlist := hsame.funcs_eq (hr.loadAll us).reachable.wellFormed hwf fun m n hmn hn =>
    numberIn_lt hmn (hnext ▸ hn)
  rw [hpackages, hpackages', htypes, htypes', hfuncs, hfuncs']
  refine ⟨hsame.packages, hsame.types, hlist, fun hfirst => hlist.trans ?_⟩
  conv_rhs => rw [← List.map_id (r.loadAll (freshUnits old us)).2.funcs]
  refine List.map_congr_left fun f hf => Func.renumber_eq_self ?_
  obtain ⟨n, hn⟩ := mem_funcs_iff.1 hf
  exact numberIn_eq_self hfirst (hnext ▸ hwf.numbered _ hn)

/-- Files that are read once more after a load of the first one: `late`, with its first file twice
and the file of that load in between. -/
def again : List SourceUnit :=
  late.take 1 ++ [early] ++ late

set_option maxRecDepth 4000 in
theorem reload_harmless_again :
    After [early] ((empty .default).loadEach [early]).2 ∧ freshUnits [early] again = late ∧
      (((empty .default).loadEach [early]).2.loadAll [early, early]).2.funcs
        = ((empty .default).loadEach [early]).2.funcs ∧
      (((empty .default).loadEach [early]).2.loadAll again).2.types
        = (((empty .default).loadEach [early]).2.loadAll late).2.types ∧
      (((empty .default).loadEach [early]).2.loadAll again).2.funcs.map (fun f => (f.fqn, f.ordinal))
        = [("p.Open", ⟨0, 0⟩), ("p.Run", ⟨1, 0⟩), ("p.Stop", ⟨4, 2⟩)] ∧
      (((empty .default).loadEach [early]).2.loadAll late).2.funcs.map (fun f => (f.fqn, f.ordinal))
        = [("p.Open", ⟨0, 0⟩), ("p.Run", ⟨1, 0⟩), ("p.Stop", ⟨2, 2⟩)] := by
  have hafter : After [early] ((empty .default).loadEach [early]).2 :=
    (@After.create .default _ (by cbv)).load .each
  have hfresh : freshUnits [early] again = late := by decide
  have hagain := (reload_harmless hafter again).2 _ _ .all .all
  rw [hfresh] at hagain
  exact ⟨hafter, hfresh, ((reload_harmless hafter [early, early]).1 (by simp) _ .all).2.2,
    hagain.2.1, by cbv, by cbv⟩

set_option maxRecDepth 4000 in
/-- A repeat does change the places of what is declared after it. -/
theorem ordinals_of_repeat : After [] (empty .default) ∧
    freshUnits [] (early :: early :: late) = early :: late ∧
    ((empty .default).loadAll (early :: early :: late)).2.funcs.map Func.ordinal
      = [⟨0, 0⟩, ⟨2, 0⟩, ⟨3, 2⟩] ∧
    ((empty .default).loadAll (early :: late)).2.funcs.map Func.ordinal
      = [⟨0, 0⟩, ⟨1, 0⟩, ⟨2, 2⟩] ∧
    ((empty .default).loadAll (early :: early :: late)).2.funcs
      ≠ ((empty .default).loadAll (early :: late)).2.funcs := by
  have htwice : ((empty .default).loadAll (early :: early :: late)).2.funcs.map Func.ordinal
      = [⟨0, 0⟩, ⟨2, 0⟩, ⟨3, 2⟩] := by cbv
  have honce : ((empty .default).loadAll (early :: late)).2.funcs.map Func.ordinal
      = [⟨0, 0⟩, ⟨1, 0⟩, ⟨2, 2⟩] := by cbv
  refine ⟨@After.create .default _ (by cbv), by decide, htwice, honce, fun hsame => ?_⟩
  rw [hsame, honce] at htwice
  cases htwice

end Registry

end Wiring
