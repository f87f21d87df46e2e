import Wiring.Proofs.Registry.OneByOne
import Wiring.Proofs.Text

/-!
# What functions are told apart by

A function is what its package, the type it belongs to and its name say: a `FuncId`.  The registry
lists functions under their full names, where the three stand in a row with dots between them.  The
last dot of a full name is in front of the name of the function, so all that can be mistaken is
where the path ends: a method of the type `B` in the package `a` has the full name of a function in
the package `a.B` (`fqn_eq_iff`).  Of two such `Rivals` the one that is declared first is kept, and
apart from that every declared `FuncId` is listed once (`funcIds_fresh`).
-/

namespace Wiring

/-- A package, the type that a method belongs to, and a name. -/
structure FuncId where
  path : String
  receiver : Option String
  name : String
  deriving DecidableEq

namespace FuncId

variable {k k' : FuncId}

def fqn (k : FuncId) : String :=
  funcName ⟨k.path⟩ k.receiver k.name

/-- No dot stands in the names that follow the path. -/
structure Dotless (k : FuncId) : Prop where
  receiver : ∀ b ∈ k.receiver, '.' ∉ b.toList
  name : '.' ∉ k.name.toList

instance (k : FuncId) : Decidable k.Dotless :=
  decidable_of_iff ((∀ b ∈ k.receiver, '.' ∉ b.toList) ∧ '.' ∉ k.name.toList)
    ⟨fun h => ⟨h.1, h.2⟩, fun h => ⟨h.receiver, h.name⟩⟩

/-- A method, and a function in the package whose path is the full name of the method's type. -/
def Shadows (k k' : FuncId) : Prop :=
  ∃ b, k.receiver = some b ∧ k'.receiver = none ∧ k'.path = k.path ++ "." ++ b ∧ k'.name = k.name

/-- A method and a function that are mistaken for each other. -/
def Rivals (k k' : FuncId) : Prop :=
  k.Shadows k' ∨ k'.Shadows k

theorem append_dot_inj {s s' t t' : List Char} (ht : '.' ∉ t) (ht' : '.' ∉ t') :
    s ++ '.' :: t = s' ++ '.' :: t' ↔ s = s' ∧ t = t' := by
  constructor
  · intro h
    rcases List.append_eq_append_iff.1 h with ⟨m, hs, hm⟩ | ⟨m, hs, hm⟩
    · cases m with
      | nil => simp_all
      | cons c m =>
        obtain ⟨rfl, rfl⟩ := List.cons_eq_cons.1 hm
        exact absurd (by simp) ht
    · cases m with
      | nil => simp_all
      | cons c m =>
        obtain ⟨rfl, rfl⟩ := List.cons_eq_cons.1 hm
        exact absurd (by simp) ht'
  · rintro ⟨rfl, rfl⟩
    rfl

theorem dotted_inj {p p' n n' : String} (hn : '.' ∉ n.toList) (hn' : '.' ∉ n'.toList) :
    p ++ "." ++ n = p' ++ "." ++ n' ↔ p = p' ∧ n = n' := by
  have hdot : (".".toList : List Char) = ['.'] := rfl
  rw [← String.toList_inj, ← String.toList_inj, ← String.toList_inj]
  simp only [String.toList_append, hdot, List.append_assoc, List.singleton_append]
  exact append_dot_inj hn hn'

/-- **Full names are the same only for rivals**, a method and a function of one name. -/
theorem fqn_eq_iff (hk : k.Dotless) (hk' : k'.Dotless) : k.fqn = k'.fqn ↔ k = k' ∨ k.Rivals k' := by
  obtain ⟨p, receiver, n⟩ := k
  obtain ⟨p', receiver', n'⟩ := k'
  have hn := hk.name
  have hn' := hk'.name
  cases receiver with
  | none =>
    cases receiver' with
    | none => simp [fqn, funcName, dotted_inj hn hn', Rivals, Shadows]
    | some b' =>
      simp [fqn, funcName, dotted_inj hn hn', Rivals, Shadows]
  | some b =>
    cases receiver' with
    | none =>
      simp [fqn, funcName, dotted_inj hn hn', Rivals, Shadows, eq_comm]
    | some b' =>
      have hb := hk.receiver b rfl
      have hb' := hk'.receiver b' rfl
      simp [fqn, funcName, dotted_inj hn hn', dotted_inj hb hb', Rivals, Shadows, and_assoc]

end FuncId

/-! ## What units declare -/

namespace SourceUnit

/-- What a declaration of a unit is told apart by. -/
def funcId (u : SourceUnit) (d : FuncDecl) : FuncId :=
  ⟨u.packagePath, d.receiverBase?, d.name⟩

/-- The path has no white space or quotes around it, and no name of a function or of the type it
belongs to has a dot in it. -/
structure Tidy (u : SourceUnit) : Prop where
  head : ∀ c ∈ u.packagePath.toList.head?, Text.isBlank c = false ∧ Package.isQuote c = false
  last : ∀ c ∈ u.packagePath.toList.getLast?, Text.isBlank c = false ∧ Package.isQuote c = false
  dotless : ∀ d ∈ u.funcs, (u.funcId d).Dotless

theorem Tidy.package_path {u : SourceUnit} (hu : u.Tidy) : u.package.path = u.packagePath := by
  have htrim : Text.trim u.packagePath.toList = u.packagePath.toList :=
    Text.trimEnds_eq_self (fun c hc => (hu.head c hc).1) fun c hc => (hu.last c hc).1
  have hquote : Text.trimWhile Package.isQuote u.packagePath.toList = u.packagePath.toList :=
    Text.trimEnds_eq_self (fun c hc => (hu.head c hc).2) fun c hc => (hu.last c hc).2
  change Package.canonicalPath u.packagePath = u.packagePath
  rw [Package.canonicalPath, htrim, hquote, String.ofList_toList]

end SourceUnit

/-- What several units declare, in order. -/
def funcIds (us : List SourceUnit) : List FuncId :=
  us.flatMap fun u => u.funcs.map u.funcId

theorem funcIds_eq (base : Nat) (us : List SourceUnit) :
    funcIds us = (placed (·.funcs) base us).map fun e => e.unit.funcId e.decl :=
  (map_placed SourceUnit.funcId (·.funcs) base us).symm

theorem dotless_of_mem_funcIds {us : List SourceUnit} (hus : ∀ u ∈ us, u.Tidy) {k : FuncId}
    (hk : k ∈ funcIds us) : k.Dotless := by
  obtain ⟨u, hu, hk⟩ := List.mem_flatMap.1 hk
  obtain ⟨d, hd, rfl⟩ := List.mem_map.1 hk
  exact (hus u hu).dotless d hd

/-! ## What is listed -/

def Func.funcId (f : Func) : FuncId :=
  ⟨f.package.path, f.decl.receiverBase?, f.name⟩

namespace Registry

variable {r s : Registry} {us : List SourceUnit}

theorem WellFormed.nodup_funcIds (hs : s.WellFormed) : (s.funcs.map Func.funcId).Nodup := by
  refine List.Nodup.map_on (fun f hf g hg hfg => ?_) hs.nodup_funcs
  exact hs.eq_of_fqn_eq hf hg (congrArg FuncId.fqn hfg)

theorem mem_funcs_iff_findFunc? (hs : s.WellFormed) {f : Func} :
    f ∈ s.funcs ↔ s.findFunc? f.fqn = some f := by
  rw [mem_funcs_iff, findFunc?, KeyedSet.get?_eq_some_iff]
  constructor
  · rintro ⟨n, hn⟩
    have hname : f.fqn = n := hs.named _ hn
    rw [hname]
    exact hn
  · exact fun h => ⟨_, h⟩

/-- What is left when units were loaded one by one, together, or together by several workers. -/
inductive Loaded (r : Registry) (us : List SourceUnit) : Registry → Prop
  | each : Loaded r us (r.loadEach us).2
  | all : Loaded r us (r.loadAll us).2
  | run {jobs : Nat} {s : Loader} (hrun : Loader.Run (r.batch us) (Loader.start r us jobs) s)
      (hfin : s.Finished (r.batch us)) : Loaded r us s.result

theorem Loaded.wellFormed (h : Loaded r us s) (hr : r.AtRest) : s.WellFormed := by
  cases h with
  | each => exact (hr.loadEach us).reachable.wellFormed
  | all => exact (hr.loadAll us).reachable.wellFormed
  | run hrun hfin => exact (hrun.result_alike hr.reachable hfin).1

theorem Loaded.bare_findFunc? (h : Loaded r us s) (hr : r.AtRest) (n : String) :
    (s.findFunc? n).map Func.bare = ((r.findFunc? n).map Func.bare).or
      (((placed (·.funcs) r.nextUnit us).find? fun e => e.unit.funcFqn e.decl == n).map
        (Placed.func r.settings.marker)) := by
  cases h with
  | each => exact bare_findFunc?_loadEach r us n
  | all => exact bare_findFunc?_loadAll r us n
  | run hrun hfin =>
    rw [(hrun.result_alike hr.reachable hfin).2.findFunc?_eq]
    exact bare_findFunc?_loadAll r us n

theorem funcId_func (marker : String) {base : Nat} (hus : ∀ u ∈ us, u.Tidy)
    {e : Placed FuncDecl} (he : e ∈ placed (·.funcs) base us) :
    (e.func marker).funcId = e.unit.funcId e.decl := by
  obtain ⟨i, hu, -⟩ := mem_placed.1 he
  have hpath := (hus _ (List.mem_of_getElem? hu)).package_path
  change FuncId.mk e.unit.package.path _ _ = FuncId.mk e.unit.packagePath _ _
  rw [hpath]
  rfl

/-- A registry that lists the first declaration of each full name lists what a search among the
declared functions finds. -/
theorem mem_map_funcId_iff (hs : s.WellFormed) (hus : ∀ u ∈ us, u.Tidy) {marker : String}
    {base : Nat} (hfind : ∀ n, (s.findFunc? n).map Func.bare =
      ((placed (·.funcs) base us).find? fun e => e.unit.funcFqn e.decl == n).map
        (Placed.func marker)) {k : FuncId} :
    k ∈ s.funcs.map Func.funcId ↔ (funcIds us).find? (fun k' => k'.fqn == k.fqn) = some k := by
  have hsearch : (s.findFunc? k.fqn).map Func.funcId
      = (funcIds us).find? fun k' => k'.fqn == k.fqn := by
    have hbare : (s.findFunc? k.fqn).map Func.funcId
        = ((s.findFunc? k.fqn).map Func.bare).map Func.funcId := by
      rw [Option.map_map]
      rfl
    have hfqn : ∀ e ∈ placed (·.funcs) base us,
        (e.unit.funcFqn e.decl == k.fqn) = ((e.unit.funcId e.decl).fqn == k.fqn) := by
      intro e he
      rw [← funcId_func marker hus he]
      rfl
    rw [hbare, hfind, funcIds_eq base, List.find?_map, Option.map_map, List.find?_congr hfqn]
    exact Option.map_congr fun e he => funcId_func marker hus (List.mem_of_find?_eq_some he)
  rw [← hsearch, List.mem_map, Option.map_eq_some_iff]
  constructor
  · rintro ⟨f, hf, rfl⟩
    exact ⟨f, (mem_funcs_iff_findFunc? hs).1 hf, rfl⟩
  · rintro ⟨f, hf, rfl⟩
    exact ⟨f, (mem_funcs_iff_findFunc? hs).2 hf, rfl⟩

/-- What is found is what some declaration with no rival before it declares. -/
theorem find?_funcIds_eq_some_iff {ks : List FuncId} (hks : ∀ k ∈ ks, k.Dotless) {k : FuncId} :
    ks.find? (fun k' => k'.fqn == k.fqn) = some k ↔
      ∃ before after, ks = before ++ k :: after ∧ ∀ k' ∈ before, ¬ k'.Rivals k := by
  rw [List.find?_eq_some_iff_append]
  constructor
  · rintro ⟨-, before, after, rfl, hbefore⟩
    refine ⟨before, after, rfl, fun k' hk' hrivals => ?_⟩
    have hfqn : k'.fqn = k.fqn :=
      (FuncId.fqn_eq_iff (hks k' (by simp [hk'])) (hks k (by simp))).2 (.inr hrivals)
    have hne := hbefore k' hk'
    simp [hfqn] at hne
  · rintro ⟨before, after, rfl, hbefore⟩
    -- the first declaration of `k` stands at this place or before it
    have hmem : k ∈ before ++ [k] := by simp
    obtain ⟨front, rest, hsplit, hfront⟩ := List.eq_append_cons_of_mem hmem
    have hsub : ∀ k' ∈ front, k' ∈ before := by
      intro k' hk'
      have hin : k' ∈ before ++ [k] := by rw [hsplit]; simp [hk']
      rcases List.mem_append.1 hin with hin | hin
      · exact hin
      · rw [List.mem_singleton.1 hin] at hk'
        exact absurd hk' hfront
    refine ⟨by simp, front, rest ++ after, ?_, fun k' hk' => ?_⟩
    · have happend := congrArg (· ++ after) hsplit
      simpa using happend
    · have hne : k'.fqn ≠ k.fqn := by
        intro hfqn
        rcases (FuncId.fqn_eq_iff (hks k' (by simp [hsub k' hk'])) (hks k (by simp))).1 hfqn with
          rfl | hrivals
        · exact hfront hk'
        · exact hbefore k' (hsub k' hk') hrivals
      simpa using hne

/-- **Every function that is declared is listed once, unless a rival is declared before it.** -/
theorem funcIds_fresh {settings : ParserSettings} (hr : Registry.create settings = .ok r)
    (hus : ∀ u ∈ us, u.Tidy) (hs : Loaded r us s) :
    (s.funcs.map Func.funcId).Nodup ∧ ∀ k, k ∈ s.funcs.map Func.funcId ↔
      ∃ before after, funcIds us = before ++ k :: after ∧ ∀ k' ∈ before, ¬ k'.Rivals k := by
  have hrest : r.AtRest := .create hr
  have hwf : s.WellFormed := hs.wellFormed hrest
  have hnone : ∀ n, r.findFunc? n = none := by
    unfold Registry.create at hr
    split at hr
    · cases hr
    · cases hr
      exact fun n => rfl
  have hfind : ∀ n, (s.findFunc? n).map Func.bare = ((placed (·.funcs) r.nextUnit us).find?
      fun e => e.unit.funcFqn e.decl == n).map (Placed.func r.settings.marker) := by
    intro n
    have hfirst := hs.bare_findFunc? hrest n
    rw [hnone, Option.map_none, Option.none_or] at hfirst
    exact hfirst
  refine ⟨hwf.nodup_funcIds, fun k => ?_⟩
  rw [mem_map_funcId_iff hwf hus hfind]
  exact find?_funcIds_eq_some_iff fun k hk => dotless_of_mem_funcIds hus hk

/-- Two packages.  The method `Close` of the type `B` in the one and the function `Close` in the
other have the same full name. -/
def mistaken : List SourceUnit :=
  [⟨"ex.com/a", some "a.go", [], [], [{ FuncDecl.ofName "Close" with
      receiver := some (.ofName "b" (.pointer (.named none "B"))) }, .ofName "Close"]⟩,
    ⟨"ex.com/a.B", some "b.go", [], [], [.ofName "Close", .ofName "Open"]⟩]

theorem funcIds_mistaken : funcIds mistaken = [⟨"ex.com/a", some "B", "Close"⟩,
    ⟨"ex.com/a", none, "Close"⟩, ⟨"ex.com/a.B", none, "Close"⟩, ⟨"ex.com/a.B", none, "Open"⟩] := rfl

theorem tidy_mistaken : ∀ u ∈ mistaken, u.Tidy := by
  have hpath : ∀ u ∈ mistaken, u.packagePath = "ex.com/a" ∨ u.packagePath = "ex.com/a.B" := by
    decide
  have hdotless : ∀ u ∈ mistaken, ∀ d ∈ u.funcs, (u.funcId d).Dotless := by
    decide
  intro u hu
  refine ⟨?_, ?_, hdotless u hu⟩
  · rcases hpath u hu with h | h <;> rw [h] <;> simp [Text.isBlank, Package.isQuote]
  · rcases hpath u hu with h | h <;> rw [h] <;> simp [Text.isBlank, Package.isQuote]

theorem funcIds_loadAll_mistaken : ((empty .default).loadAll mistaken).2.funcs.map Func.funcId =
    [⟨"ex.com/a", some "B", "Close"⟩, ⟨"ex.com/a", none, "Close"⟩,
      ⟨"ex.com/a.B", none, "Open"⟩] := by
  cbv

theorem funcIds_loadEach_mistaken : ((empty .default).loadEach mistaken).2.funcs.map Func.funcId =
    [⟨"ex.com/a", some "B", "Close"⟩, ⟨"ex.com/a", none, "Close"⟩,
      ⟨"ex.com/a.B", none, "Open"⟩] := by
  cbv

theorem funcIds_fresh_mistaken : Registry.create .default = .ok (empty .default) ∧
    (∀ u ∈ mistaken, u.Tidy) ∧ ∃ s, Loaded (empty .default) mistaken s ∧
      (s.funcs.map Func.funcId).Nodup ∧
      ⟨"ex.com/a", some "B", "Close"⟩ ∈ s.funcs.map Func.funcId ∧
      ⟨"ex.com/a.B", none, "Open"⟩ ∈ s.funcs.map Func.funcId := by
  have hr : Registry.create .default = .ok (empty .default) := by cbv
  obtain ⟨hnodup, hmem⟩ := funcIds_fresh hr tidy_mistaken .all
  refine ⟨hr, tidy_mistaken, _, .all, hnodup, ?_, ?_⟩
  · exact (hmem _).2 ⟨[], _, funcIds_mistaken, by simp⟩
  · refine (hmem _).2 ⟨[_, _, _], [], funcIds_mistaken, ?_⟩
    simp [FuncId.Rivals, FuncId.Shadows]

/-- Loaded together or one by one, the function `Close` of the second package is lost. -/
theorem lost_mistaken : (∀ u ∈ mistaken, u.Tidy) ∧ (funcIds mistaken).Nodup ∧
    ⟨"ex.com/a.B", none, "Close"⟩ ∈ funcIds mistaken ∧
    ⟨"ex.com/a.B", none, "Close"⟩ ∉ ((empty .default).loadAll mistaken).2.funcs.map Func.funcId ∧
    ⟨"ex.com/a.B", none, "Close"⟩ ∉
      ((empty .default).loadEach mistaken).2.funcs.map Func.funcId := by
  rw [funcIds_mistaken, funcIds_loadAll_mistaken, funcIds_loadEach_mistaken]
  exact ⟨tidy_mistaken, by decide, by decide, by decide, by decide⟩

end Registry

end Wiring
