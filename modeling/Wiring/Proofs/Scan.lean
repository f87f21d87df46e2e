import Wiring.Proofs.Attempt
import Wiring.Proofs.Module
import Wiring.Proofs.Path.Shown
import Wiring.Scan

/-!
# A directory by itself and from above

A directory is scanned by itself, or as one of the directories below another (`packageDirs`).  Both
ways read the same files in the same order, and the file of a unit tells in which directory it lies
(`liesIn`), so that the units of one directory can be picked out of a scan from above.  They are
those that a scan of the directory gives, or none if it is not entered, except for the paths of
their packages (`filter_liesIn_scan`): a scan from above looks for a module once, where it begins,
and does not see that a directory on the way down is the top of another one (`nested_shop`).
-/

namespace Wiring

namespace Scan

variable {fs : FileSystem} {settings : SourceSettings} {m : Module} {names below below' c : List Bytes}
  {t : FileTree} {es : List (Bytes × FileTree)}

/-! ## The directories that are entered -/

theorem enters_iff {name : Bytes} : enters settings name = true ↔
    ∃ s : String, name = Bytes.ofString s ∧ settings.skipsDir s = false := by
  simp only [enters, Option.any_eq_true, Bytes.string?_eq_some_iff, Bool.not_eq_true']

theorem accepts_iff {name : Bytes} : accepts settings name = true ↔
    ∃ s : String, name = Bytes.ofString s ∧ settings.acceptsFile s = true := by
  simp only [accepts, Option.any_eq_true, Bytes.string?_eq_some_iff]

mutual

theorem exists_of_mem_dirsIn {c : List Bytes} : ∀ (t : FileTree) (levels : List IgnoreLevel)
    (names : List Bytes), t.Proper → c ∈ dirsIn settings levels names t →
      ∃ below es, c = names ++ below ∧ t.at? below = some (.dir es) ∧ ∀ n ∈ below, n.IsText
  | .file text?, levels, names, _, h => by
    rw [dirsIn] at h
    cases h
  | .dir es, levels, names, ht, h => by
    rw [dirsIn] at h
    rcases List.mem_cons.1 h with rfl | h
    · exact ⟨[], es, by simp, rfl, by simp⟩
    · cases ht with
      | dir distinct named below =>
        obtain ⟨e, he, chain, es', rfl, hat, htext⟩ := exists_of_mem_dirsAmong es _ names below h
        refine ⟨e.1 :: chain, es', rfl, ?_, htext⟩
        have hentry : FileTree.entry? (.dir es) e.1 = some e.2 := FileTree.lookup_of_mem distinct he
        rw [FileTree.at?, hentry]
        exact hat

theorem exists_of_mem_dirsAmong {c : List Bytes} : ∀ (es : List (Bytes × FileTree))
    (levels : List IgnoreLevel) (names : List Bytes), (∀ e ∈ es, e.2.Proper) →
      c ∈ dirsAmong settings levels names es →
        ∃ e ∈ es, ∃ below es', c = names ++ e.1 :: below ∧ e.2.at? below = some (.dir es') ∧
          ∀ n ∈ e.1 :: below, n.IsText
  | [], levels, names, _, h => by
    rw [dirsAmong] at h
    cases h
  | (name, t) :: rest, levels, names, hes, h => by
    rw [dirsAmong] at h
    rcases List.mem_append.1 h with h | h
    · split at h
      · next hentered =>
        rw [Bool.and_eq_true, enters_iff] at hentered
        obtain ⟨⟨s, hs, -⟩, -⟩ := hentered
        obtain ⟨below, es', rfl, hat, htext⟩ :=
          exists_of_mem_dirsIn t _ _ (hes _ List.mem_cons_self) h
        exact ⟨_, List.mem_cons_self, below, es', by simp, hat,
          List.forall_mem_cons.2 ⟨⟨s, hs⟩, htext⟩⟩
      · cases h
    · obtain ⟨e, he, below, es', heq, hat⟩ := exists_of_mem_dirsAmong rest _ names
        (fun e he => hes e (List.mem_cons_of_mem _ he)) h
      exact ⟨e, List.mem_cons_of_mem _ he, below, es', heq, hat⟩

end

mutual

theorem nodup_dirsIn : ∀ (t : FileTree) (levels : List IgnoreLevel) (names : List Bytes),
    t.Proper → (dirsIn settings levels names t).Nodup
  | .file text?, levels, names, _ => by
    rw [dirsIn]
    exact List.nodup_nil
  | .dir es, levels, names, ht => by
    cases ht with
    | dir distinct named below =>
      rw [dirsIn, List.nodup_cons]
      refine ⟨fun h => ?_, nodup_dirsAmong es _ names distinct below⟩
      obtain ⟨e, he, chain, es', heq, -⟩ := exists_of_mem_dirsAmong es _ names below h
      simp at heq

theorem nodup_dirsAmong : ∀ (es : List (Bytes × FileTree)) (levels : List IgnoreLevel)
    (names : List Bytes), (es.map Prod.fst).Nodup → (∀ e ∈ es, e.2.Proper) →
      (dirsAmong settings levels names es).Nodup
  | [], levels, names, _, _ => by
    rw [dirsAmong]
    exact List.nodup_nil
  | (name, t) :: rest, levels, names, hdistinct, hes => by
    rw [List.map_cons, List.nodup_cons] at hdistinct
    have hrest : ∀ e ∈ rest, e.2.Proper := fun e he => hes e (List.mem_cons_of_mem _ he)
    rw [dirsAmong, List.nodup_append]
    refine ⟨?_, nodup_dirsAmong rest _ names hdistinct.2 hrest, fun c hc c' hc' heq => ?_⟩
    · split
      · exact nodup_dirsIn t _ _ (hes _ List.mem_cons_self)
      · exact List.nodup_nil
    · -- the chains of different entries part at the names of the entries
      subst heq
      split at hc
      · obtain ⟨below, es', rfl, -⟩ := exists_of_mem_dirsIn t _ _ (hes _ List.mem_cons_self) hc
        obtain ⟨e, he, below', es'', heq, -⟩ := exists_of_mem_dirsAmong rest _ names hrest hc'
        rw [List.append_assoc, List.append_cancel_left_eq] at heq
        exact hdistinct.1 (List.mem_map.2 ⟨e, he, (List.cons.inj heq).1.symm⟩)
      · cases hc

end

theorem nodup_packageDirs (ht : t.Proper) : (packageDirs fs settings names t).Nodup :=
  (List.mergeSort_perm _ _).nodup_iff.2 (nodup_dirsIn t _ _ ht)

/-- The directories that are entered are directories below the one in which the scan begins, and the
names on the way to them are texts. -/
theorem exists_of_mem_packageDirs (hfs : fs.root.Proper) (ht : fs.root.at? names = some t)
    (hc : c ∈ packageDirs fs settings names t) :
    ∃ below es, c = names ++ below ∧ fs.root.at? c = some (.dir es) ∧ ∀ n ∈ below, n.IsText := by
  have hmem := List.mem_mergeSort.1 hc
  obtain ⟨below, es, rfl, hat, htext⟩ := exists_of_mem_dirsIn t _ _ (hfs.at? ht).2 hmem
  refine ⟨below, es, rfl, ?_, htext⟩
  rw [FileTree.at?_append, ht]
  exact hat

/-! ## The units of a directory -/

/-- The units of the files among the entries of a directory. -/
def unitsIn (settings : SourceSettings) (c : List Bytes) (es : List (Bytes × FileTree))
    (packagePath : String) : List SourceUnit :=
  (sources settings es).map fun (name, text) => Go.analyze text packagePath
    (some (Bytes.display (Path.join (Path.absolute c) name)))

/-- Whether the file of a unit lies directly in a directory, as it is shown. -/
def liesIn (dir : List Bytes) (u : SourceUnit) : Bool :=
  (u.filePath.bind fun f => Path.parent? f.toList) == some (Bytes.shown (Path.absolute dir))

theorem scanPackage_absolute (hfs : fs.root.Proper) (h : fs.root.at? c = some (.dir es))
    (packagePath : String) : scanPackage fs settings (Path.absolute c) packagePath
      = .ok (unitsIn settings c es packagePath) := by
  rw [scanPackage, FileSystem.readDir_absolute hfs h]
  rfl

/-- The path of the package is all that a unit has from its module. -/
theorem unitsIn_eq (c : List Bytes) (es : List (Bytes × FileTree)) (p p' : String) :
    unitsIn settings c es p
      = (unitsIn settings c es p').map fun u => { u with packagePath := p } := by
  rw [unitsIn, unitsIn, List.map_map]
  rfl

theorem mem_sources_iff {name : Bytes} {text : String} : (name, text) ∈ sources settings es ↔
    (name, .file (some text)) ∈ es ∧ accepts settings name = true := by
  rw [sources, List.mem_mergeSort, List.mem_filterMap]
  constructor
  · rintro ⟨⟨name', t⟩, hmem, heq⟩
    dsimp only at heq
    split at heq
    · split at heq
      · next haccept =>
        cases heq
        exact ⟨hmem, haccept⟩
      · cases heq
    · cases heq
  · rintro ⟨hmem, haccept⟩
    refine ⟨_, hmem, ?_⟩
    dsimp only
    rw [if_pos haccept]

/-- What is shown of a file tells its directory among those to which texts lead. -/
theorem liesIn_iff_of_mem_unitsIn (hc : ∀ name ∈ names ++ below, Path.IsName name)
    (hc' : ∀ name ∈ names ++ below', Path.IsName name) (htext : ∀ n ∈ below, n.IsText)
    (htext' : ∀ n ∈ below', n.IsText) (hes : ∀ e ∈ es, Path.IsName e.1) {p : String}
    {u : SourceUnit} (hu : u ∈ unitsIn settings (names ++ below) es p) :
    liesIn (names ++ below') u = true ↔ names ++ below = names ++ below' := by
  obtain ⟨⟨name, text⟩, he, rfl⟩ := List.mem_map.1 hu
  have hname : Path.IsName name := hes _ (mem_sources_iff.1 he).1
  have hparent : Path.parent? (Bytes.shown (Path.join (Path.absolute (names ++ below)) name))
      = some (Bytes.shown (Path.absolute (names ++ below))) := by
    rw [Path.join_absolute hc, Path.shown_absolute, List.map_append, List.map_singleton,
      Path.parent?_absolute (List.forall_mem_map.2 fun s hs => (hc s hs).shown) hname.shown,
      Path.shown_absolute]
  have hlies : liesIn (names ++ below') (Go.analyze text p
      (some (Bytes.display (Path.join (Path.absolute (names ++ below)) name))))
        = (Path.parent? (Bytes.shown (Path.join (Path.absolute (names ++ below)) name))
            == some (Bytes.shown (Path.absolute (names ++ below')))) := by
    simp [liesIn, Go.analyze, Bytes.display]
  rw [hlies, hparent, beq_iff_eq, Option.some.injEq]
  constructor
  · exact fun heq => Path.eq_of_shown_eq hc hc' htext htext' heq
  · intro heq
    rw [heq]

/-- The units of the directory at the end of a chain of names, in a module. -/
def unitsAt (fs : FileSystem) (settings : SourceSettings) (m : Module) (c : List Bytes) :
    List SourceUnit :=
  match fs.root.at? c, m.packagePath? (Path.absolute c) with
  | some (.dir es), some p => unitsIn settings c es p
  | _, _ => []

theorem unitsAt_eq {p : String} (h : fs.root.at? c = some (.dir es))
    (hp : m.packagePath? (Path.absolute c) = some p) :
    unitsAt fs settings m c = unitsIn settings c es p := by
  rw [unitsAt, h, hp]

/-- Directories are read one after the other. -/
theorem scanDirs_absolute (hfs : fs.root.Proper) {cs : List (List Bytes)}
    (hcs : ∀ c ∈ cs, ∃ es, fs.root.at? c = some (.dir es)) (m : Module) :
    scanDirs fs settings m (cs.map Path.absolute)
      = .ok (cs.flatMap (unitsAt fs settings m)) := by
  rw [scanDirs, List.mapM_map, mapM_eq_ok (g := unitsAt fs settings m)]
  · rfl
  · intro c hc
    obtain ⟨es, hes⟩ := hcs c hc
    rw [Function.comp_apply]
    cases hp : m.packagePath? (Path.absolute c) with
    | none => simp [unitsAt, hes, hp]
    | some p =>
      rw [unitsAt_eq hes hp]
      exact scanPackage_absolute hfs hes p

/-- Of the units of several directories, those that lie in one directory are the units of this
one. -/
theorem filter_liesIn_flatMap (hfs : fs.root.Proper) {cs : List (List Bytes)} (hnodup : cs.Nodup)
    (hcs : ∀ c ∈ cs, ∃ below es, c = names ++ below ∧ fs.root.at? c = some (.dir es) ∧
      ∀ n ∈ below, n.IsText) (m : Module)
    (hc : ∀ name ∈ names ++ below, Path.IsName name) (htext : ∀ n ∈ below, n.IsText) :
    (cs.flatMap (unitsAt fs settings m)).filter (liesIn (names ++ below))
      = if names ++ below ∈ cs then unitsAt fs settings m (names ++ below) else [] := by
  have hlies : ∀ c ∈ cs, ∀ u ∈ unitsAt fs settings m c,
      liesIn (names ++ below) u = true ↔ c = names ++ below := by
    intro c hmem u hu
    obtain ⟨below', es, rfl, hes, htext'⟩ := hcs c hmem
    obtain ⟨hnames, hdir⟩ := hfs.at? hes
    cases hdir with
    | dir distinct named _ =>
      cases hp : m.packagePath? (Path.absolute (names ++ below')) with
      | none => simp [unitsAt, hes, hp] at hu
      | some p =>
        rw [unitsAt_eq hes hp] at hu
        exact liesIn_iff_of_mem_unitsIn hnames hc htext' htext named hu
  induction cs with
  | nil => rfl
  | cons c cs ih =>
    rw [List.nodup_cons] at hnodup
    have hrest := ih hnodup.2 (fun c hc => hcs c (List.mem_cons_of_mem _ hc))
      fun c hc => hlies c (List.mem_cons_of_mem _ hc)
    have hfirst := hlies c List.mem_cons_self
    rw [List.flatMap_cons, List.filter_append, hrest]
    by_cases heq : c = names ++ below
    · subst heq
      rw [if_neg hnodup.1, if_pos List.mem_cons_self, List.append_nil, List.filter_eq_self]
      exact fun u hu => (hfirst u hu).2 rfl
    · have hnone : (unitsAt fs settings m c).filter (liesIn (names ++ below)) = [] := by
        rw [List.filter_eq_nil_iff]
        exact fun u hu hlie => heq ((hfirst u hu).1 hlie)
      have hmem : names ++ below ∈ c :: cs ↔ names ++ below ∈ cs := by
        simp [Ne.symm heq]
      rw [hnone, List.nil_append]
      simp only [hmem]

/-! ## Two ways to scan a directory -/

theorem scan_eq {pattern : String} (h : fs.find (splitPattern pattern).1 = .ok (names, t)) :
    scan fs settings pattern
      = (Module.find fs (Path.absolute names) settings.maxModuleDepth).bind fun m =>
        scanDirs fs settings m ((if (splitPattern pattern).2 then
          packageDirs fs settings names t else [names]).map Path.absolute) := by
  rw [scan]
  cases hsplit : splitPattern pattern with
  | mk dir recursive =>
    rw [hsplit] at h
    dsimp only at h ⊢
    rw [h]
    rfl

/-- A scan from above reads the directories that are entered. -/
theorem scan_above (hfs : fs.root.Proper) {pattern : String}
    (hpattern : (splitPattern pattern).2 = true)
    (hroot : fs.find (splitPattern pattern).1 = .ok (names, t))
    (hm : Module.find fs (Path.absolute names) settings.maxModuleDepth = .ok m) :
    scan fs settings pattern
      = .ok ((packageDirs fs settings names t).flatMap (unitsAt fs settings m)) := by
  have ht : fs.root.at? names = some t := FileSystem.at?_of_find hroot
  have hcs : ∀ c ∈ packageDirs fs settings names t, ∃ es, fs.root.at? c = some (.dir es) := by
    intro c hc
    obtain ⟨-, es, -, hes, -⟩ := exists_of_mem_packageDirs hfs ht hc
    exact ⟨es, hes⟩
  rw [scan_eq hroot, if_pos hpattern, hm]
  exact scanDirs_absolute hfs hcs m

/-- A scan of one directory reads this one. -/
theorem scan_single (hfs : fs.root.Proper) {pattern : String}
    (hpattern : (splitPattern pattern).2 = false)
    (hdir : fs.find (splitPattern pattern).1 = .ok (c, .dir es))
    (hm : Module.find fs (Path.absolute c) settings.maxModuleDepth = .ok m) :
    scan fs settings pattern = .ok (unitsAt fs settings m c) := by
  have hcs : ∀ c' ∈ [c], ∃ es, fs.root.at? c' = some (.dir es) := by
    intro c' hc'
    rw [List.mem_singleton.1 hc']
    exact ⟨es, FileSystem.at?_of_find hdir⟩
  rw [scan_eq hdir, hpattern, if_neg Bool.false_ne_true, hm]
  refine (scanDirs_absolute hfs hcs m).trans ?_
  rw [List.flatMap_singleton]

theorem exists_module_of_scan {pattern : String} {us : List SourceUnit}
    (hfind : fs.find (splitPattern pattern).1 = .ok (names, t))
    (hus : scan fs settings pattern = .ok us) :
    ∃ m, Module.find fs (Path.absolute names) settings.maxModuleDepth = .ok m := by
  rw [scan_eq hfind] at hus
  cases hm : Module.find fs (Path.absolute names) settings.maxModuleDepth with
  | error e =>
    rw [hm] at hus
    cases hus
  | ok m => exact ⟨m, rfl⟩

/-- What a scan from above finds in a directory. -/
theorem filter_liesIn_packageDirs (hfs : fs.root.Proper) (ht : fs.root.at? names = some t)
    (hc : ∀ name ∈ names ++ below, Path.IsName name) (htext : ∀ n ∈ below, n.IsText) (m : Module) :
    ((packageDirs fs settings names t).flatMap (unitsAt fs settings m)).filter
        (liesIn (names ++ below))
      = if names ++ below ∈ packageDirs fs settings names t then
          unitsAt fs settings m (names ++ below) else [] :=
  filter_liesIn_flatMap hfs (nodup_packageDirs (hfs.at? ht).2)
    (fun _ hc => exists_of_mem_packageDirs hfs ht hc) m hc htext

/-- **What a scan from above finds in a directory is what a scan of the directory finds**, or
nothing if the directory is not entered; only the path of the package is that of the module found
from above.  It is the same path if no directory from there down to this one is the top of a
module.  A directory is not entered unless all names down to it are texts, and only then its files
are told by what is shown of them. -/
theorem filter_liesIn_scan (hfs : fs.root.Proper) {pattern pattern' : String}
    {us vs : List SourceUnit}
    (hpattern : (splitPattern pattern).2 = true) (hpattern' : (splitPattern pattern').2 = false)
    (hroot : fs.find (splitPattern pattern).1 = .ok (names, t))
    (hdir : fs.find (splitPattern pattern').1 = .ok (names ++ below, .dir es))
    (hus : scan fs settings pattern = .ok us) (hvs : scan fs settings pattern' = .ok vs) :
    ((∀ n ∈ below, n.IsText) → names ++ below ∉ packageDirs fs settings names t →
        us.filter (liesIn (names ++ below)) = []) ∧
      (names ++ below ∈ packageDirs fs settings names t → (∀ n ∈ below, n.IsText) ∧ ∃ m p,
        Module.find fs (Path.absolute names) settings.maxModuleDepth = .ok m ∧
        m.packagePath? (Path.absolute (names ++ below)) = some p ∧
        us.filter (liesIn (names ++ below)) = vs.map fun u => { u with packagePath := p }) ∧
      ((∀ n ∈ below, n.IsText) →
        (∀ middle, middle ≠ [] → middle <+: below → Module.isTop fs (names ++ middle) = false) →
        us.filter (liesIn (names ++ below)) = [] ∨ us.filter (liesIn (names ++ below)) = vs) := by
  have ht : fs.root.at? names = some t := FileSystem.at?_of_find hroot
  have hes : fs.root.at? (names ++ below) = some (.dir es) := FileSystem.at?_of_find hdir
  have hnames : ∀ name ∈ names ++ below, Path.IsName name := (hfs.at? hes).1
  obtain ⟨m, hm⟩ := exists_module_of_scan hroot hus
  obtain ⟨m', hm'⟩ := exists_module_of_scan hdir hvs
  have hall := hus.symm.trans (scan_above hfs hpattern hroot hm)
  have hone := hvs.symm.trans (scan_single hfs hpattern' hdir hm')
  rw [Except.ok.injEq] at hall hone
  have hfilter : (∀ n ∈ below, n.IsText) → us.filter (liesIn (names ++ below))
      = if names ++ below ∈ packageDirs fs settings names t then
          unitsAt fs settings m (names ++ below) else [] := by
    intro htext
    rw [hall]
    exact filter_liesIn_packageDirs hfs ht hnames htext m
  obtain ⟨p, hp⟩ := Option.isSome_iff_exists.1 (Module.isSome_packagePath? hnames hm)
  refine ⟨fun htext hmem => ?_, fun hmem => ?_, fun htext htop => ?_⟩
  · rw [hfilter htext, if_neg hmem]
  · -- each module gives the directory a path, and the units differ in nothing else
    obtain ⟨below', -, heq, -, htext⟩ := exists_of_mem_packageDirs hfs ht hmem
    obtain rfl := List.append_cancel_left heq
    have hnames' : ∀ name ∈ (names ++ below) ++ [], Path.IsName name := by
      rwa [List.append_nil]
    have hp' := Module.isSome_packagePath? hnames' hm'
    rw [List.append_nil] at hp'
    obtain ⟨p', hp'⟩ := Option.isSome_iff_exists.1 hp'
    refine ⟨htext, m, p, hm, hp, ?_⟩
    rw [hfilter htext, if_pos hmem, hone, unitsAt_eq hes hp, unitsAt_eq hes hp']
    exact unitsIn_eq _ es p p'
  · -- the search for the lower module goes on to the upper one
    have habove := Module.find_above hnames htop hm'
    rw [hm, Except.ok.injEq] at habove
    rw [hfilter htext, hone, habove]
    by_cases hmem : names ++ below ∈ packageDirs fs settings names t
    · exact .inr (if_pos hmem)
    · exact .inl (if_neg hmem)

/-- The file of a package, and what else is in its directory. -/
def payFiles (more : List (Bytes × FileTree)) : List (Bytes × FileTree) :=
  ("pay.go", .file (some "package pay\n")) :: more

/-- A module with a package below its top. -/
def shop (more : List (Bytes × FileTree)) : FileSystem :=
  ⟨.dir [("go.mod", .file (some "module ex.com/shop\n")), ("pay", .dir (payFiles more))], []⟩

/-- What makes the directory of the package the top of a module. -/
def payMod : List (Bytes × FileTree) :=
  [("go.mod", .file (some "module ex.com/pay\n"))]

theorem proper_shop {more : List (Bytes × FileTree)} (h : more = [] ∨ more = payMod) :
    (shop more).root.Proper := by
  rcases h with rfl | rfl <;> decide

theorem unitsAt_shop {more : List (Bytes × FileTree)} (h : more = [] ∨ more = payMod) {m : Module}
    {p : String} (hp : m.packagePath? (Path.absolute ["pay"]) = some p) :
    unitsAt (shop more) .default m ["pay"]
      = [Go.analyze "package pay\n" p (some "/pay/pay.go")] := by
  have hsources : sources .default (payFiles more)
      = [((("pay.go" : String) : Bytes), "package pay\n")] := by
    rcases h with rfl | rfl <;> exact List.mergeSort_singleton _
  rw [unitsAt_eq rfl hp, unitsIn, hsources]
  rfl

theorem find_root_shop (more : List (Bytes × FileTree)) :
    (shop more).find (splitPattern "...").1 = .ok ([], (shop more).root) := rfl

theorem find_pay_shop (more : List (Bytes × FileTree)) :
    (shop more).find (splitPattern "pay").1
      = .ok ([] ++ (["pay"] : List Bytes), .dir (payFiles more)) := rfl

theorem module_root_shop (more : List (Bytes × FileTree)) : Module.find (shop more)
    (Path.absolute []) SourceSettings.default.maxModuleDepth = .ok ⟨"ex.com/shop", "/"⟩ := rfl

/-- The name of the directory of the package is a text. -/
theorem isText_pay : ∀ n ∈ (["pay"] : List Bytes), n.IsText := by
  decide

theorem filter_liesIn_scan_shop : ∃ us vs, scan (shop []) .default "..." = .ok us ∧
    scan (shop []) .default "pay" = .ok vs ∧ vs.map (·.packagePath) = ["ex.com/shop/pay"] ∧
    (us.filter (liesIn ["pay"]) = [] ∨ us.filter (liesIn ["pay"]) = vs) := by
  have hfs := proper_shop (.inl rfl)
  have hmodule : Module.find (shop []) (Path.absolute ["pay"]) SourceSettings.default.maxModuleDepth
      = .ok ⟨"ex.com/shop", "/"⟩ := rfl
  have hus := scan_above hfs rfl (find_root_shop []) (module_root_shop [])
  have hvs := scan_single hfs rfl (find_pay_shop []) hmodule
  have htop : ∀ middle : List Bytes, middle ≠ [] → middle <+: ["pay"] →
      Module.isTop (shop []) ([] ++ middle) = false := by
    intro middle hne hmiddle
    rcases List.prefix_cons_iff.1 hmiddle with rfl | ⟨rest, rfl, hrest⟩
    · exact absurd rfl hne
    · rw [List.prefix_nil.1 hrest]
      rfl
  refine ⟨_, _, hus, hvs, ?_, ?_⟩
  · rw [List.nil_append, @unitsAt_shop _ (.inl rfl) _ "ex.com/shop/pay" rfl]
    rfl
  · exact (filter_liesIn_scan hfs rfl rfl (find_root_shop []) (find_pay_shop []) hus hvs).2.2
      isText_pay htop

/-- Seen from above, the package of the inner module has a path in the outer one. -/
theorem nested_shop : ∃ us vs, scan (shop payMod) .default "..." = .ok us ∧
    scan (shop payMod) .default "pay" = .ok vs ∧
    (us.filter (liesIn ["pay"])).map (·.packagePath) = ["ex.com/shop/pay"] ∧
    vs.map (·.packagePath) = ["ex.com/pay"] ∧
    us.filter (liesIn ["pay"]) ≠ [] ∧ us.filter (liesIn ["pay"]) ≠ vs := by
  have hfs := proper_shop (.inr rfl)
  have hmodule : Module.find (shop payMod) (Path.absolute ["pay"]) SourceSettings.default.maxModuleDepth
      = .ok ⟨"ex.com/pay", "/pay"⟩ := rfl
  have hus := scan_above hfs rfl (find_root_shop payMod) (module_root_shop payMod)
  have hvs := scan_single hfs rfl (find_pay_shop payMod) hmodule
  have hnames : ∀ name ∈ [] ++ (["pay"] : List Bytes), Path.IsName name := by decide
  have hentered : [] ++ (["pay"] : List Bytes)
      ∈ packageDirs (shop payMod) .default [] (shop payMod).root :=
    List.mem_mergeSort.2 (by decide)
  have habove := @filter_liesIn_packageDirs _ .default [] _ _ hfs rfl hnames isText_pay
    ⟨"ex.com/shop", "/"⟩
  rw [if_pos hentered, List.nil_append, @unitsAt_shop _ (.inr rfl) _ "ex.com/shop/pay" rfl] at habove
  refine ⟨_, _, hus, hvs, ?_, ?_, ?_, ?_⟩
  · rw [habove]
    rfl
  · rw [List.nil_append, @unitsAt_shop _ (.inr rfl) _ "ex.com/pay" rfl]
    rfl
  · rw [habove]
    exact List.cons_ne_nil _ _
  · rw [habove, List.nil_append, @unitsAt_shop _ (.inr rfl) _ "ex.com/pay" rfl]
    intro heq
    have hpath := congrArg SourceUnit.packagePath (List.cons.inj heq).1
    exact absurd hpath (by decide)

end Scan

end Wiring
