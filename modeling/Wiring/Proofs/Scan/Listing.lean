import Wiring.Proofs.Module.PackagePath
import Wiring.Proofs.Scan

/-!
# What a scan from above reads

Where no file says what to ignore (`Unignored`), a scan enters a directory below its own exactly if
the settings skip no name on the way (`append_mem_dirsIn_iff`).  Directories are read in the order of
their chains of names and the files of each in the order of their names, and since no two entries of
a directory have the same name, nothing is read twice (`pairwise_before`).  So a scan is told by the
files that it reads, `Admitted`, and by their order, `Before` (`scan_reads`).

The order is by names and not by paths: `a/b` is read before `a-b`, though `-` comes before `/`.
-/

namespace Wiring

namespace FileTree

variable {t t' : FileTree} {name : Bytes} {names : List Bytes} {es : List (Bytes × FileTree)}

/-- The files that say what to ignore, from the directory for which they say it. -/
def ignoreFiles : List (List Bytes) :=
  [[".ignore"], [".gitignore"], [".git", "info", "exclude"]]

def Unignored (t : FileTree) : Prop :=
  ∀ dir, ∀ file ∈ ignoreFiles, ∀ text?, t.at? (dir ++ file) ≠ some (.file text?)

theorem Unignored.at? (ht : t.Unignored) (h : t.at? names = some t') : t'.Unignored := by
  intro dir file hfile text? heq
  refine ht (names ++ dir) file hfile text? ?_
  rw [List.append_assoc, at?_append, h]
  exact heq

theorem Unignored.entry? (ht : t.Unignored) (h : t.entry? name = some t') : t'.Unignored := by
  have hat : t.at? [name] = some t' := Option.bind_eq_some_iff.2 ⟨t', h, rfl⟩
  exact ht.at? hat

theorem Unignored.textAt? (ht : t.Unignored) {file : List Bytes} (hfile : file ∈ ignoreFiles) :
    t.textAt? file = none := by
  rw [FileTree.textAt?]
  split
  · next text? hat => exact absurd hat (ht [] file hfile text?)
  · rfl

/-- Nobody says what to ignore in a directory and below its entries. -/
theorem Unignored.dir (hhere : ∀ file ∈ ignoreFiles, ((FileTree.dir es).at? file).isNone)
    (hbelow : ∀ e ∈ es, e.2.Unignored) : (FileTree.dir es).Unignored := by
  intro dir file hfile text? h
  cases dir with
  | nil =>
    have hnone := hhere file hfile
    rw [← List.nil_append file, h] at hnone
    cases hnone
  | cons name dir =>
    obtain ⟨e, he, hrest⟩ := Option.bind_eq_some_iff.1 h
    exact hbelow _ (mem_of_lookup he) dir file hfile text? hrest

theorem Unignored.file (text? : Option String) : (FileTree.file text?).Unignored := by
  intro dir file hfile text? h
  have hne : file ≠ [] := by
    rintro rfl
    simp [ignoreFiles] at hfile
  cases hnames : dir ++ file with
  | nil => exact hne (List.append_eq_nil_iff.1 hnames).2
  | cons name names =>
    rw [hnames] at h
    cases h

end FileTree

namespace IgnoreLevel

variable {levels : List IgnoreLevel} {l : IgnoreLevel} {t : FileTree}

structure Bare (l : IgnoreLevel) : Prop where
  plain : l.plain = []
  git : l.git = []
  exclude : l.exclude = []

theorem bare_ofDir (ht : t.Unignored) (depth : Nat) : (ofDir depth t).Bare := by
  have hrules : ∀ file ∈ FileTree.ignoreFiles,
      ((t.textAt? file).map IgnoreRule.ofText).getD [] = [] := by
    intro file hfile
    rw [ht.textAt? hfile]
    rfl
  exact ⟨hrules _ (by decide), hrules _ (by decide), hrules _ (by decide)⟩

theorem bare_above {names : List Bytes} (ht : t.Unignored) (hl : ∀ l ∈ levels, l.Bare)
    (depth : Nat) : ∀ l ∈ above t depth names levels, l.Bare := by
  induction names generalizing t depth levels with
  | nil => exact hl
  | cons name names ih =>
    rw [above]
    refine ih ?_ (List.forall_mem_cons.2 ⟨bare_ofDir ht depth, hl⟩) _
    cases he : t.entry? name with
    | none => exact FileTree.Unignored.dir (by decide) (by simp)
    | some t' => exact ht.entry? he

theorem mem_of_mem_withinRepository (h : l ∈ withinRepository levels) : l ∈ levels := by
  induction levels with
  | nil => exact h
  | cons l' levels ih =>
    rw [withinRepository] at h
    split at h
    · rw [List.mem_singleton.1 h]
      exact List.mem_cons_self
    · rcases List.mem_cons.1 h with rfl | h
      · exact List.mem_cons_self
      · exact List.mem_cons_of_mem _ (ih h)

/-- Without rules no directory is left out. -/
theorem ignores_eq_false (hl : ∀ l ∈ levels, l.Bare) (names : List Bytes) :
    ignores levels names = false := by
  have hnone : ∀ (rules : IgnoreLevel → List IgnoreRule) (levels : List IgnoreLevel),
      (∀ l ∈ levels, rules l = []) → nearest? rules levels names = none := by
    intro rules levels hrules
    rw [nearest?, List.findSome?_eq_none_iff]
    intro l hmem
    rw [hrules l hmem]
    rfl
  have hrepository : ∀ l ∈ if levels.any (·.isRepository) then withinRepository levels else [],
      l.Bare := by
    intro l hmem
    split at hmem
    · exact hl l (mem_of_mem_withinRepository hmem)
    · cases hmem
  rw [ignores, hnone _ _ fun l hmem => (hl l hmem).plain,
    hnone _ _ fun l hmem => (hrepository l hmem).git,
    hnone _ _ fun l hmem => (hrepository l hmem).exclude]
  rfl

end IgnoreLevel

namespace Scan

variable {fs : FileSystem} {settings : SourceSettings} {m : Module}
  {names below c top : List Bytes} {t : FileTree} {es : List (Bytes × FileTree)}

/-! ## The directories -/

theorem skipsDir_eq_false_iff {name : String} : settings.skipsDir name = false ↔
    name ∉ settings.skippedDirs ∧ name.toList.head? ≠ some '.' ∧ name.toList.head? ≠ some '_' := by
  have hprefix : ∀ c : Char, [c].isPrefixOf name.toList = false ↔ name.toList.head? ≠ some c := by
    intro c
    cases name.toList with
    | nil => simp [List.isPrefixOf]
    | cons d cs => simp [List.isPrefixOf, beq_eq_false_iff_ne, ne_comm]
  rw [SourceSettings.skipsDir, Bool.or_eq_false_iff, Bool.or_eq_false_iff, hprefix, hprefix,
    List.contains_eq_mem, decide_eq_false_iff_not]
  tauto

theorem mem_dirsAmong_iff {levels : List IgnoreLevel} (hl : ∀ l ∈ levels, l.Bare) :
    c ∈ dirsAmong settings levels names es ↔ ∃ e ∈ es, enters settings e.1 = true ∧
      c ∈ dirsIn settings levels (names ++ [e.1]) e.2 := by
  induction es with
  | nil => simp [dirsAmong]
  | cons e es ih =>
    obtain ⟨name, t⟩ := e
    rw [dirsAmong, List.mem_append, ih, IgnoreLevel.ignores_eq_false hl, Bool.not_false, Bool.and_true,
      List.exists_mem_cons_iff]
    refine or_congr ?_ Iff.rfl
    cases enters settings name <;> simp

/-- A chain of names goes on through the entry of its next name. -/
theorem append_cons_mem_dirsIn_iff {levels : List IgnoreLevel} {n : Bytes}
    (ht : (FileTree.dir es).Proper) (hplain : (FileTree.dir es).Unignored)
    (hl : ∀ l ∈ levels, l.Bare) : names ++ n :: below ∈ dirsIn settings levels names (.dir es) ↔
      ∃ t, FileTree.entry? (.dir es) n = some t ∧ enters settings n = true ∧
        (names ++ [n]) ++ below ∈
          dirsIn settings (.ofDir names.length (.dir es) :: levels) (names ++ [n]) t := by
  have hl' : ∀ l ∈ IgnoreLevel.ofDir names.length (.dir es) :: levels, l.Bare :=
    List.forall_mem_cons.2 ⟨IgnoreLevel.bare_ofDir hplain _, hl⟩
  have hself : names ++ n :: below ≠ names := by simp
  have hstep : names ++ n :: below = (names ++ [n]) ++ below := by simp
  rw [dirsIn, List.mem_cons, or_iff_right hself, mem_dirsAmong_iff hl']
  cases ht with
  | dir distinct named proper =>
    constructor
    · rintro ⟨e, he, hskip, hmem⟩
      obtain ⟨below', es', heq, -⟩ := exists_of_mem_dirsIn e.2 _ _ (proper e he) hmem
      obtain rfl : n = e.1 := by
        rw [List.append_assoc, List.append_cancel_left_eq] at heq
        exact (List.cons.inj heq).1
      exact ⟨e.2, FileTree.lookup_of_mem distinct he, hskip, hstep ▸ hmem⟩
    · rintro ⟨t, he, hskip, hmem⟩
      exact ⟨(n, t), FileTree.mem_of_lookup he, hskip, hstep ▸ hmem⟩

/-- **The directories that a scan enters** are those to which no name on the way is skipped. -/
theorem append_mem_dirsIn_iff {levels : List IgnoreLevel} (ht : t.Proper) (hplain : t.Unignored)
    (hl : ∀ l ∈ levels, l.Bare) : names ++ below ∈ dirsIn settings levels names t ↔
      (∃ es, t.at? below = some (.dir es)) ∧ ∀ n ∈ below, enters settings n = true := by
  induction below generalizing names levels t with
  | nil => cases t <;> simp [dirsIn, FileTree.at?]
  | cons n below ih =>
    cases t with
    | file text? => simp [dirsIn, FileTree.at?, FileTree.entry?, FileTree.entries]
    | dir es =>
      have hl' : ∀ l ∈ IgnoreLevel.ofDir names.length (.dir es) :: levels, l.Bare :=
        List.forall_mem_cons.2 ⟨IgnoreLevel.bare_ofDir hplain _, hl⟩
      rw [append_cons_mem_dirsIn_iff ht hplain hl, FileTree.at?, List.forall_mem_cons]
      cases he : FileTree.entry? (.dir es) n with
      | none => simp
      | some t =>
        simp only [Option.some.injEq, exists_eq_left', Option.bind_some,
          ih (ht.of_entry he).2 (hplain.entry? he) hl']
        exact and_left_comm

theorem mem_packageDirs_iff (hfs : fs.root.Proper) (hplain : fs.root.Unignored)
    (ht : fs.root.at? names = some t) : c ∈ packageDirs fs settings names t ↔
      ∃ below, c = names ++ below ∧ (∃ es, fs.root.at? c = some (.dir es)) ∧
        ∀ n ∈ below, enters settings n = true := by
  have hl : ∀ l ∈ IgnoreLevel.above fs.root 0 names [], l.Bare :=
    IgnoreLevel.bare_above hplain (by simp) 0
  have hat : ∀ below, fs.root.at? (names ++ below) = t.at? below := by
    intro below
    rw [FileTree.at?_append, ht]
    rfl
  rw [packageDirs, List.mem_mergeSort]
  constructor
  · intro hmem
    obtain ⟨below, -, rfl, -⟩ := exists_of_mem_dirsIn t _ _ (hfs.at? ht).2 hmem
    rw [append_mem_dirsIn_iff (hfs.at? ht).2 (hplain.at? ht) hl] at hmem
    exact ⟨below, rfl, by rwa [hat]⟩
  · rintro ⟨below, rfl, hmem⟩
    rw [hat] at hmem
    exact (append_mem_dirsIn_iff (hfs.at? ht).2 (hplain.at? ht) hl).2 hmem

/-- The directories are in the order of their chains of names, and none is entered twice. -/
theorem pairwise_packageDirs (ht : t.Proper) :
    (packageDirs fs settings names t).Pairwise (· < ·) := by
  have hchain : ∀ {a b : List Bytes}, chainLe a b = true ↔ a ≤ b := by
    intro a b
    rw [chainLe, Bool.not_eq_true', decide_eq_false_iff_not, List.not_lt]
  have hsorted : (packageDirs fs settings names t).Pairwise fun a b => chainLe a b = true := by
    refine List.pairwise_mergeSort (fun a b c hab hbc => ?_) (fun a b => ?_) _
    · exact hchain.2 (Std.le_trans (hchain.1 hab) (hchain.1 hbc))
    · rw [Bool.or_eq_true, hchain, hchain]
      exact Std.le_total
  refine (hsorted.and (nodup_packageDirs ht)).imp ?_
  rintro a b ⟨hle, hne⟩
  exact Std.lt_of_le_of_ne (hchain.1 hle) hne

/-! ## The files -/

/-- A file with its text, in the directory at the end of a chain of names from the root. -/
structure Source where
  dir : List Bytes
  name : Bytes
  text : String
  deriving DecidableEq, Repr

/-- What a scan reads that begins at the end of a chain of names: an accepted file with a text, in
this directory or below it where the names on the way are texts and the settings skip none. -/
structure Admitted (fs : FileSystem) (settings : SourceSettings) (names : List Bytes)
    (f : Source) : Prop where
  entered : ∃ below, f.dir = names ++ below ∧ ∀ n ∈ below, ∃ s : String, n = Bytes.ofString s ∧
    s ∉ settings.skippedDirs ∧ s.toList.head? ≠ some '.' ∧ s.toList.head? ≠ some '_'
  isText : fs.root.at? (f.dir ++ [f.name]) = some (.file (some f.text))
  accepted : ∃ s : String, f.name = Bytes.ofString s ∧ settings.acceptsFile s = true

/-- The order of directories name by name, and in a directory that of the files. -/
def Source.Before (f g : Source) : Prop :=
  f.dir < g.dir ∨ f.dir = g.dir ∧ f.name < g.name

/-- The accepted files of the directory at the end of a chain of names. -/
def sourcesAt (fs : FileSystem) (settings : SourceSettings) (c : List Bytes) : List Source :=
  match fs.root.at? c with
  | some (.dir es) => (sources settings es).map fun (name, text) => ⟨c, name, text⟩
  | _ => []

theorem pairwise_sources (hes : (es.map Prod.fst).Nodup) :
    (sources settings es).Pairwise fun a b => a.1 < b.1 := by
  have hsorted : (sources settings es).Pairwise fun a b => decide (a.1 ≤ b.1) = true := by
    refine List.pairwise_mergeSort (fun a b c hab hbc => ?_) (fun a b => ?_) _
    · exact decide_eq_true (Std.le_trans (of_decide_eq_true hab) (of_decide_eq_true hbc))
    · rw [Bool.or_eq_true, decide_eq_true_iff, decide_eq_true_iff]
      exact Std.le_total
  -- what is read from an entry keeps its name
  have hread : ∀ {e : Bytes × FileTree} {b : Bytes × String}, b ∈ sources settings [e] →
      e.1 = b.1 := by
    intro e b hb
    rw [← List.mem_singleton.1 (mem_sources_iff.1 hb).1]
  have hdistinct : (sources settings es).Pairwise fun a b => a.1 ≠ b.1 := by
    refine (List.mergeSort_perm _ _).pairwise_iff (fun h => h.symm) |>.2 ?_
    refine (List.pairwise_map.1 hes).filterMap _ fun e e' hne b hb b' hb' => ?_
    have hone : b ∈ sources settings [e] :=
      List.mem_mergeSort.2 (List.mem_filterMap.2 ⟨e, List.mem_singleton_self e, hb⟩)
    have hone' : b' ∈ sources settings [e'] :=
      List.mem_mergeSort.2 (List.mem_filterMap.2 ⟨e', List.mem_singleton_self e', hb'⟩)
    rwa [← hread hone, ← hread hone']
  refine (hsorted.and hdistinct).imp ?_
  rintro a b ⟨hle, hne⟩
  exact Std.lt_of_le_of_ne (of_decide_eq_true hle) hne

theorem mem_sourcesAt_iff (hfs : fs.root.Proper) {f : Source} : f ∈ sourcesAt fs settings c ↔
    f.dir = c ∧ fs.root.at? (c ++ [f.name]) = some (.file (some f.text)) ∧
      accepts settings f.name = true := by
  rw [FileTree.at?_concat_eq_some_iff, sourcesAt]
  split
  · next es hes =>
    cases (hfs.at? hes).2 with
    | dir distinct named below =>
      have hlookup : (∃ es', fs.root.at? c = some (.dir es') ∧
          es'.lookup f.name = some (.file (some f.text))) ↔
            (f.name, .file (some f.text)) ∈ es := by
        rw [hes]
        simp only [Option.some.injEq, FileTree.dir.injEq, exists_eq_left']
        exact ⟨FileTree.mem_of_lookup, FileTree.lookup_of_mem distinct⟩
      rw [hlookup, ← mem_sources_iff, List.mem_map]
      constructor
      · rintro ⟨e, he, rfl⟩
        exact ⟨rfl, he⟩
      · rintro ⟨rfl, hmem⟩
        exact ⟨_, hmem, rfl⟩
  · next hnone =>
    constructor
    · intro hmem
      cases hmem
    · rintro ⟨-, ⟨es, hes, -⟩, -⟩
      exact absurd hes (hnone es)

theorem pairwise_sourcesAt (hfs : fs.root.Proper) :
    (sourcesAt fs settings c).Pairwise Source.Before := by
  rw [sourcesAt]
  split
  · next es hes =>
    cases (hfs.at? hes).2 with
    | dir distinct named below =>
      exact List.pairwise_map.2 ((pairwise_sources distinct).imp fun hlt => .inr ⟨rfl, hlt⟩)
  · exact List.Pairwise.nil

theorem mem_flatMap_sourcesAt_iff (hfs : fs.root.Proper) (hplain : fs.root.Unignored)
    (ht : fs.root.at? names = some t) {f : Source} :
    f ∈ (packageDirs fs settings names t).flatMap (sourcesAt fs settings) ↔
      Admitted fs settings names f := by
  simp only [List.mem_flatMap, mem_sourcesAt_iff hfs, mem_packageDirs_iff hfs hplain ht, enters_iff,
    accepts_iff, skipsDir_eq_false_iff]
  constructor
  · rintro ⟨c, ⟨below, hbelow, -, hentered⟩, rfl, htext, haccept⟩
    exact ⟨⟨below, hbelow, hentered⟩, htext, haccept⟩
  · rintro ⟨⟨below, hbelow, hentered⟩, htext, haccept⟩
    obtain ⟨es, hes, -⟩ := FileTree.at?_concat_eq_some_iff.1 htext
    exact ⟨f.dir, ⟨below, hbelow, ⟨es, hes⟩, hentered⟩, rfl, htext, haccept⟩

theorem pairwise_before (hfs : fs.root.Proper) (ht : fs.root.at? names = some t) :
    ((packageDirs fs settings names t).flatMap (sourcesAt fs settings)).Pairwise
      Source.Before := by
  rw [List.pairwise_flatMap]
  refine ⟨fun c _ => pairwise_sourcesAt hfs, (pairwise_packageDirs (hfs.at? ht).2).imp ?_⟩
  intro c c' hlt f hf g hg
  refine .inl ?_
  rwa [((mem_sourcesAt_iff hfs).1 hf).1, ((mem_sourcesAt_iff hfs).1 hg).1]

/-! ## The units -/

/-- The path of the package of a file in a module whose directory is at the end of `top`. -/
def Source.packagePath (m : Module) (top : List Bytes) (f : Source) : String :=
  m.path ++ String.join ((f.dir.drop top.length).map fun n => "/" ++ n.display)

def Source.filePath (f : Source) : String :=
  Bytes.display (Path.absolute (f.dir ++ [f.name]))

theorem unitsAt_eq_map (hfs : fs.root.Proper) (hroot : m.root = Path.absolute top)
    (hc : fs.root.at? c = some (.dir es)) (htop : top <+: c) :
    unitsAt fs settings m c = (sourcesAt fs settings c).map fun f =>
      Go.analyze f.text (f.packagePath m top) (some f.filePath) := by
  obtain ⟨rest, rfl⟩ := htop
  have hnames := (hfs.at? hc).1
  rw [unitsAt_eq hc (Module.packagePath?_absolute hnames hroot), sourcesAt, hc, unitsIn,
    List.map_map]
  refine List.map_congr_left fun e _ => ?_
  simp only [Function.comp_apply, Source.packagePath, Source.filePath, Path.join_absolute hnames,
    List.drop_left]

/-- A path with the ending for all below it, read back without the slashes before the ending. -/
theorem splitPattern_dots (d : String) : splitPattern (d ++ "/...") =
    (if (Text.trimEndWhile (· == '/') d.toList).isEmpty then "."
      else String.ofList (Text.trimEndWhile (· == '/') d.toList), true) := by
  have hsuffix : "...".toList.isSuffixOf? (d ++ "/...").toList = some (d.toList ++ ['/']) := by
    rw [List.isSuffixOf?_eq_some_iff_append_eq, String.toList_append, List.append_assoc]
    rfl
  have htrim : Text.trimEndWhile (· == '/') (d.toList ++ ['/'])
      = Text.trimEndWhile (· == '/') d.toList :=
    List.rdropWhile_concat_pos (· == '/') d.toList '/' BEq.rfl
  rw [splitPattern, hsuffix]
  dsimp only
  rw [htrim]

theorem splitPattern_recursive {dir : String} (hne : dir ≠ "")
    (hlast : dir.toList.getLast? ≠ some '/') : splitPattern (dir ++ "/...") = (dir, true) := by
  have htrim : Text.trimEndWhile (· == '/') dir.toList = dir.toList := by
    refine Text.rdropWhile_eq_self fun c hc => beq_eq_false_iff_ne.2 ?_
    rintro rfl
    exact hlast hc
  have hempty : ¬ dir.toList.isEmpty = true := by simpa using hne
  rw [splitPattern_dots, htrim, if_neg hempty, String.ofList_toList]

/-- Every directory to which texts lead can be named as the one in which a scan of all below it
begins. -/
theorem exists_pattern (hfs : fs.root.Proper) (h : fs.root.at? names = some (.dir es))
    (htext : ∀ n ∈ names, n.IsText) :
    ∃ dir : String, (names ≠ [] → Bytes.ofString dir = Path.absolute names) ∧
      splitPattern (dir ++ "/...") = (dir, true) ∧ fs.find dir = .ok (names, .dir es) := by
  rcases List.eq_nil_or_concat names with rfl | ⟨front, last, rfl⟩
  · -- the root itself is no name before the ending, but `/.` is one
    exact ⟨"/.", fun hne => absurd rfl hne, splitPattern_recursive (by decide) (by decide),
      FileSystem.find_root_here h⟩
  · rw [List.concat_eq_append] at *
    have hlast : Path.IsName last := (hfs.at? h).1 last (by simp)
    have hpath := (Path.isText_absolute htext).ofString_display
    have hshown : (Bytes.display (Path.absolute (front ++ [last]))).toList
        = Path.absolute (front.map Bytes.shown ++ [Bytes.shown last]) := by
      rw [Bytes.display, String.toList_ofList, Path.shown_absolute, List.map_append]
      rfl
    refine ⟨_, fun _ => hpath, splitPattern_recursive ?_ ?_, ?_⟩
    · rw [Ne, ← String.toList_inj, hshown]
      exact Path.absolute_ne_nil _
    · rw [hshown]
      exact Path.getLast?_absolute_concat hlast.shown
    · rw [hpath]
      exact FileSystem.find_absolute hfs h

/-- **A scan of all below a directory reads exactly what the settings admit**, each file once and in
order.  The unit of a file has the path of its package, which is that of the module and the names from
the directory of the module down, each behind a slash, and the path of the file, both as they are
shown. -/
theorem scan_reads (hfs : fs.root.Proper) (hplain : fs.root.Unignored) :
    (∀ names es, fs.root.at? names = some (.dir es) → (∀ n ∈ names, n.IsText) → ∃ dir : String,
      (names ≠ [] → Bytes.ofString dir = Path.absolute names) ∧
        splitPattern (dir ++ "/...") = (dir, true) ∧ fs.find dir = .ok (names, .dir es)) ∧
    ∀ settings pattern names t m, (splitPattern pattern).2 = true →
      fs.find (splitPattern pattern).1 = .ok (names, t) →
      Module.find fs (Path.absolute names) settings.maxModuleDepth = .ok m →
      ∃ (top : List Bytes) (files : List Source) (us : List SourceUnit),
        m.root = Path.absolute top ∧ top <+: names ∧
        (∀ f, f ∈ files ↔ Admitted fs settings names f) ∧ files.Pairwise Source.Before ∧
        scan fs settings pattern = .ok us ∧
        us.map (·.packagePath) = files.map (fun f => m.path ++
          String.join ((f.dir.drop top.length).map fun n => "/" ++ n.display)) ∧
        us.map (·.filePath) = files.map (fun f =>
          some (Bytes.display (Path.absolute (f.dir ++ [f.name])))) ∧
        us = files.map fun f => Go.analyze f.text (f.packagePath m top) (some f.filePath) := by
  refine ⟨fun names es h htext => exists_pattern hfs h htext, ?_⟩
  intro settings pattern names t m hpattern hfind hm
  have ht : fs.root.at? names = some t := FileSystem.at?_of_find hfind
  obtain ⟨top, rest, rfl, hroot⟩ := Module.exists_root_eq (hfs.at? ht).1 hm
  have hus : (packageDirs fs settings (top ++ rest) t).flatMap (unitsAt fs settings m)
      = ((packageDirs fs settings (top ++ rest) t).flatMap (sourcesAt fs settings)).map fun f =>
        Go.analyze f.text (f.packagePath m top) (some f.filePath) := by
    rw [List.map_flatMap]
    refine List.flatMap_congr fun c hc => ?_
    obtain ⟨below, es, rfl, hes, -⟩ := exists_of_mem_packageDirs hfs ht hc
    refine unitsAt_eq_map hfs hroot hes ?_
    rw [List.append_assoc]
    exact List.prefix_append _ _
  refine ⟨top, _, _, hroot, List.prefix_append _ _,
    fun f => mem_flatMap_sourcesAt_iff hfs hplain ht, pairwise_before hfs ht,
    scan_above hfs hpattern hfind hm, ?_, ?_, hus⟩
  · rw [hus, List.map_map]
    rfl
  · rw [hus, List.map_map]
    rfl

/-- A module with directories of which one is skipped, and one has a name that begins as that of
another. -/
def catalogue : FileSystem :=
  ⟨.dir [("go.mod", .file (some "module ex.com/shop\n")),
    ("a-b", .dir [("c.go", .file (some "package c\n")), ("c_test.go", .file (some "package c\n"))]),
    ("a", .dir [("b", .dir [("b.go", .file (some "package b\n"))])]),
    ("vendor", .dir [("v.go", .file (some "package v\n"))])], []⟩

theorem unignored_catalogue : catalogue.root.Unignored := by
  have hb : (FileTree.dir [("b.go", .file (some "package b\n"))]).Unignored :=
    .dir (by decide) (by simp [FileTree.Unignored.file])
  refine .dir (by decide) ?_
  simp only [List.forall_mem_cons]
  exact ⟨.file _, .dir (by decide) (by simp [FileTree.Unignored.file]),
    .dir (by decide) (by simpa using hb), .dir (by decide) (by simp [FileTree.Unignored.file]),
    by simp⟩

theorem scan_reads_catalogue : catalogue.root.Proper ∧ catalogue.root.Unignored ∧
    ∃ (files : List Source) (us : List SourceUnit),
      ⟨["a", "b"], "b.go", "package b\n"⟩ ∈ files ∧
      (∀ f ∈ files, f.dir ≠ ["vendor"] ∧ f.name ≠ "c_test.go") ∧ files.Pairwise Source.Before ∧
      scan catalogue .default "/./..." = .ok us ∧
      us.map (·.packagePath) = files.map fun f =>
        "ex.com/shop" ++ String.join (f.dir.map fun n => "/" ++ n.display) := by
  have hproper : catalogue.root.Proper := by decide
  obtain ⟨top, files, us, hroot, htop, hmem, hsorted, hscan, hpackages, -⟩ :=
    (scan_reads hproper unignored_catalogue).2 .default "/./..." [] catalogue.root
      ⟨"ex.com/shop", "/"⟩ rfl rfl rfl
  obtain rfl := List.prefix_nil.1 htop
  refine ⟨hproper, unignored_catalogue, files, us, ?_, fun f hf => ?_, hsorted, hscan, hpackages⟩
  · refine (hmem _).2 ⟨⟨["a", "b"], rfl, ?_⟩, rfl, "b.go", rfl, rfl⟩
    simp only [List.forall_mem_cons]
    exact ⟨⟨"a", rfl, by decide⟩, ⟨"b", rfl, by decide⟩, by simp⟩
  · obtain ⟨⟨below, hbelow, hentered⟩, -, s, hs, haccept⟩ := (hmem f).1 hf
    rw [List.nil_append] at hbelow
    constructor
    · intro hvendor
      rw [hvendor] at hbelow
      subst hbelow
      obtain ⟨s, hs, hskip, -⟩ := hentered _ List.mem_cons_self
      obtain rfl := Bytes.ofString_injective hs
      exact absurd hskip (by decide)
    · intro htest
      rw [htest] at hs
      obtain rfl := Bytes.ofString_injective hs
      exact absurd haccept (by decide)

/-- A module with a directory whose name is no text. -/
def veiled : FileSystem :=
  ⟨.dir [("go.mod", .file (some "module ex.com/shop\n")),
    ([0xFF], .dir [("x.go", .file (some "package x\n"))])], []⟩

/-- **A directory is not read if its name is no text**, whatever the settings skip, and nothing is read
with settings that skip what cannot be a name. -/
theorem scan_veiled : veiled.root.Proper ∧
    (∀ file ∈ FileTree.ignoreFiles, (veiled.root.at? file).isNone) ∧
    veiled.root.at? [[0xFF], "x.go"] = some (.file (some "package x\n")) ∧
    SourceSettings.default.acceptsFile "x.go" = true ∧
    (∀ s ∈ SourceSettings.default.skippedDirs, Bytes.ofString s ≠ [0xFF]) ∧
    scan veiled .default "/./..." = .ok [] ∧
    { SourceSettings.default with skippedDirs := ["a/b"] }.validate?
      = some (.badSkippedDir "a/b") := by
  have hproper : veiled.root.Proper := by decide
  have hdirs : packageDirs veiled .default [] veiled.root = [[]] := List.mergeSort_singleton _
  have hsources : sources .default veiled.root.entries = [] := List.mergeSort_nil
  have hscan : scan veiled .default "/./..."
      = .ok ((packageDirs veiled .default [] veiled.root).flatMap
        (unitsAt veiled .default ⟨"ex.com/shop", "/"⟩)) :=
    scan_above hproper rfl rfl rfl
  refine ⟨hproper, by decide, rfl, by decide, by decide, ?_, rfl⟩
  rw [hscan, hdirs, List.flatMap_singleton, unitsAt_eq rfl rfl, unitsIn]
  exact congrArg (fun files => Except.ok (List.map _ files)) hsources

end Scan

end Wiring
