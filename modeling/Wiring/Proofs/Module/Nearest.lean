import Wiring.Proofs.Module.PackagePath
import Wiring.Proofs.Path.Climb
import Wiring.Proofs.Scan

/-!
# The nearest module

A search for a module passes a directory and its parents, as many of them as it may, and comes to
the first one that holds a file `go.mod` (`find?_upward_eq_some_iff`).  That file decides: it gives
the module, or it is no module's file, or no text at all, and only where no file is found there is
no module (`find_eq_iff`).

The directory of a module that is found has components with which those of the directory begin for
which it was searched.  So the module gives a path to this directory and to all below it, and no
directory that a scan comes to is outside (`find_nearest`).
-/

namespace Wiring

namespace Module

variable {fs : FileSystem} {dir d : Bytes} {depth : Nat} {m : Module}
  {text? : Option String} {result : Except ScanError Module}

/-! ## The file of a directory -/

/-- A directory holds a file `go.mod`, with this text if it is one. -/
def Holds (fs : FileSystem) (dir : Bytes) (text? : Option String) : Prop :=
  ∃ place, fs.find (fileIn dir) = .ok (place, .file text?)

theorem isFile_fileIn_iff : fs.isFile (fileIn d) = true ↔ ∃ text?, Holds fs d text? := by
  rw [FileSystem.isFile]
  constructor
  · intro h
    split at h
    · next place text? hfind => exact ⟨text?, place, hfind⟩
    · cases h
  · rintro ⟨text?, place, hfind⟩
    rw [hfind]

/-- What a file `go.mod` of this content makes of its directory. -/
def ofContent (dir : Bytes) : Option String → Except ScanError Module
  | none => .error (.file .notText)
  | some text =>
    match pathOfText? text with
    | none => .error (.noModuleLine (fileIn dir))
    | some path => .ok ⟨path, dir⟩

theorem ofDir_eq (h : Holds fs d text?) : ofDir fs d = ofContent d text? := by
  obtain ⟨place, hfind⟩ := h
  have hread : fs.readText (fileIn d) = (FileTree.file text?).readText := by
    rw [FileSystem.readText, hfind]
    rfl
  cases text? with
  | none =>
    rw [ofDir, hread]
    rfl
  | some text =>
    simp only [ofDir, hread, FileTree.readText, Except.mapError, bind, Except.bind, ofContent]
    cases pathOfText? text <;> rfl

/-- In a directory of the tree, the file is the entry. -/
theorem holds_absolute_iff {names : List Bytes} {es : List (Bytes × FileTree)}
    (hfs : fs.root.Proper) (h : fs.root.at? names = some (.dir es)) :
    Holds fs (Path.absolute names) text? ↔ es.lookup goMod = some (.file text?) := by
  have hname : Path.IsName goMod := by decide
  have hfile : fileIn (Path.absolute names) = Path.absolute (names ++ [goMod]) :=
    Path.join_absolute (hfs.at? h).1 goMod
  rw [Holds, hfile, FileSystem.find_absolute_concat hfs h hname]
  cases es.lookup goMod with
  | none => simp
  | some t => simp

/-! ## The search -/

/-- A directory is the first among `dir` and its parents, at most `depth` of them, that holds a
file `go.mod`. -/
structure First (fs : FileSystem) (dir : Bytes) (depth : Nat) (d : Bytes)
    (text? : Option String) : Prop where
  holds : Holds fs d text?
  nearest : ∃ k ≤ depth, Path.climb? k dir = some d ∧
    ∀ j < k, ∀ d' text?, Path.climb? j dir = some d' → ¬ Holds fs d' text?

/-- What is found for a directory, at most `depth` parents up. -/
inductive Found (fs : FileSystem) (dir : Bytes) (depth : Nat) : Except ScanError Module → Prop
  | module {d : Bytes} {text path : String} (first : First fs dir depth d (some text))
      (line : pathOfText? text = some path) : Found fs dir depth (.ok ⟨path, d⟩)
  | noLine {d : Bytes} {text : String} (first : First fs dir depth d (some text))
      (line : pathOfText? text = none) : Found fs dir depth (.error (.noModuleLine (fileIn d)))
  | unreadable {d : Bytes} (first : First fs dir depth d none) :
      Found fs dir depth (.error (.file .notText))
  | nowhere (none : ∀ k ≤ depth, ∀ d text?, Path.climb? k dir = some d → ¬ Holds fs d text?) :
      Found fs dir depth (.error (.moduleNotFound dir depth))

theorem find?_upward_eq_some_iff {dir : Bytes} :
    (Path.upward depth dir).find? (fun d => fs.isFile (fileIn d)) = some d ↔
      ∃ text?, First fs dir depth d text? := by
  -- the paths before the one that is found are those that are reached in fewer steps
  have hplace : ∀ k d, (Path.upward depth dir)[k]? = some d ↔
      k ≤ depth ∧ Path.climb? k dir = some d := by
    intro k d
    rw [Path.getElem?_upward]
    by_cases hk : k ≤ depth <;> simp [hk]
  rw [List.find?_eq_some_iff_getElem, isFile_fileIn_iff]
  constructor
  · rintro ⟨⟨text?, hholds⟩, k, hk, hget, hbefore⟩
    obtain ⟨hle, hclimb⟩ := (hplace k d).1 (List.getElem?_eq_some_iff.2 ⟨hk, hget⟩)
    refine ⟨text?, hholds, k, hle, hclimb, fun j hj d' text?' hd' hholds' => ?_⟩
    obtain ⟨hj', hget'⟩ := List.getElem?_eq_some_iff.1 ((hplace j d').2 ⟨by omega, hd'⟩)
    have hnot := hbefore j hj
    rw [hget', isFile_fileIn_iff.2 ⟨text?', hholds'⟩] at hnot
    cases hnot
  · rintro ⟨text?, hholds, k, hle, hclimb, hnearer⟩
    obtain ⟨hk, hget⟩ := List.getElem?_eq_some_iff.1 ((hplace k d).2 ⟨hle, hclimb⟩)
    refine ⟨⟨text?, hholds⟩, k, hk, hget, fun j hj => ?_⟩
    rw [Bool.not_eq_true', ← Bool.not_eq_true, isFile_fileIn_iff]
    rintro ⟨text?', hholds'⟩
    obtain ⟨-, hd'⟩ := (hplace j _).1 (List.getElem?_eq_getElem (hj.trans hk))
    exact hnearer j hj _ text?' hd' hholds'

theorem find?_upward_eq_none_iff {dir : Bytes} :
    (Path.upward depth dir).find? (fun d => fs.isFile (fileIn d)) = none ↔
      ∀ k ≤ depth, ∀ d text?, Path.climb? k dir = some d → ¬ Holds fs d text? := by
  rw [List.find?_eq_none]
  constructor
  · intro h k hk d text? hclimb hholds
    have hmem : d ∈ Path.upward depth dir := by
      refine List.mem_of_getElem? (i := k) ?_
      rw [Path.getElem?_upward, if_pos hk, hclimb]
    exact h d hmem (isFile_fileIn_iff.2 ⟨text?, hholds⟩)
  · intro h d hmem hfile
    obtain ⟨k, hk⟩ := List.mem_iff_getElem?.1 hmem
    obtain ⟨text?, hholds⟩ := isFile_fileIn_iff.1 hfile
    rw [Path.getElem?_upward] at hk
    split at hk
    · next hle => exact h k hle d text? hk hholds
    · cases hk

theorem find_of_first (h : First fs dir depth d text?) : find fs dir depth = ofDir fs d := by
  rw [find, find?_upward_eq_some_iff.2 ⟨text?, h⟩]

/-- **The first directory with a file decides.** -/
theorem find_eq_iff : find fs dir depth = result ↔ Found fs dir depth result := by
  constructor
  · rintro rfl
    cases hsearch : (Path.upward depth dir).find? fun d => fs.isFile (fileIn d) with
    | none =>
      rw [find, hsearch]
      exact .nowhere (find?_upward_eq_none_iff.1 hsearch)
    | some d =>
      obtain ⟨text?, hfirst⟩ := find?_upward_eq_some_iff.1 hsearch
      rw [find_of_first hfirst, ofDir_eq hfirst.holds]
      cases text? with
      | none => exact .unreadable hfirst
      | some text =>
        rw [ofContent]
        cases hline : pathOfText? text with
        | none => exact .noLine hfirst hline
        | some path => exact .module hfirst hline
  · intro h
    cases h with
    | module first line => rw [find_of_first first, ofDir_eq first.holds, ofContent, line]
    | noLine first line => rw [find_of_first first, ofDir_eq first.holds, ofContent, line]
    | unreadable first => rw [find_of_first first, ofDir_eq first.holds, ofContent]
    | nowhere none => rw [find, find?_upward_eq_none_iff.2 none]

/-- The components of the directory of a module are the first ones of the directory for which it
was searched. -/
theorem components_root_begins (h : find fs dir depth = .ok m) :
    Path.components m.root <+: Path.components dir := by
  cases find_eq_iff.1 h with
  | module first line =>
    obtain ⟨k, -, hclimb, -⟩ := first.nearest
    obtain ⟨last, -, -, hlast⟩ := Path.components_climb? hclimb
    rw [hlast]
    exact List.prefix_append _ _

/-- What there is to say of a search that begins at a directory. -/
structure Search (fs : FileSystem) (dir : Bytes) (depth : Nat) : Prop where
  /-- The first directory with a file decides. -/
  decided : ∀ result, find fs dir depth = result ↔ Found fs dir depth result
  /-- One parent up there is one component less, and the root stays. -/
  parents : ∀ k d, Path.climb? k dir = some d → ∃ last : List (Path.Component UInt8),
    last.length = k ∧ .root ∉ last ∧
      Path.components dir = Path.components d ++ last
  /-- There is a parent as long as there is a component besides the root. -/
  reach : ∀ k, (∃ d, Path.climb? k dir = some d) ↔ k ≤ Path.height dir
  /-- The module gives a path to the directory and to all below it. -/
  inside : ∀ m, find fs dir depth = .ok m → ∀ below : Bytes,
    Path.components dir <+: Path.components below → (m.packagePath? below).isSome

theorem search (fs : FileSystem) (dir : Bytes) (depth : Nat) : Search fs dir depth where
  decided _ := find_eq_iff
  parents _ _ hclimb := Path.components_climb? hclimb
  reach _ := Path.exists_climb?_iff
  inside _ hm _ hbelow := isSome_packagePath?_iff.2 ((components_root_begins hm).trans hbelow)

/-- **The nearest file decides the search for a module, and no scan leaves the module.**  A file is
looked for where the entries of a directory of the tree say, and whatever directory a scan comes
to, the module that it found gives it a path. -/
theorem find_nearest (hfs : fs.root.Proper) : (∀ dir depth, Search fs dir depth) ∧
    (∀ names es text?, fs.root.at? names = some (.dir es) →
      (Holds fs (Path.absolute names) text? ↔
        es.lookup goMod = some (.file text?))) ∧
    ∀ settings pattern names t m, fs.find (Scan.splitPattern pattern).1 = .ok (names, t) →
      find fs (Path.absolute names) settings.maxModuleDepth = .ok m →
      ∀ c ∈ if (Scan.splitPattern pattern).2 then Scan.packageDirs fs settings names t else [names],
        (m.packagePath? (Path.absolute c)).isSome := by
  refine ⟨search fs, fun names es text? => holds_absolute_iff hfs, ?_⟩
  intro settings pattern names t m hfind hm c hc
  have ht : fs.root.at? names = some t := FileSystem.at?_of_find hfind
  have hbelow : ∃ below, c = names ++ below ∧ ∀ name ∈ c, Path.IsName name := by
    split at hc
    · obtain ⟨below, es, rfl, hes, -⟩ := Scan.exists_of_mem_packageDirs hfs ht hc
      exact ⟨below, rfl, (hfs.at? hes).1⟩
    · obtain rfl := List.mem_singleton.1 hc
      exact ⟨[], (List.append_nil _).symm, (hfs.at? ht).1⟩
  obtain ⟨below, rfl, hnames⟩ := hbelow
  exact isSome_packagePath? hnames hm

/-- A module, and in it a directory whose file `go.mod` has no module line. -/
def broken : FileSystem :=
  ⟨.dir [("go.mod", .file (some "module ex.com/shop\n")),
    ("lib", .dir [("go.mod", .file (some "go 1.22\n")), ("sub", .dir [])])], []⟩

theorem proper_broken : broken.root.Proper := by
  decide

/-- One parent up the search ends at the bad file, although the module is one more up. -/
theorem find_nearest_broken : broken.root.Proper ∧
    Found broken "/lib/sub" 0 (.error (.moduleNotFound "/lib/sub" 0)) ∧
    Found broken "/lib/sub" 7 (.error (.noModuleLine "/lib/go.mod")) ∧
    Found broken "/" 7 (.ok ⟨"ex.com/shop", "/"⟩) ∧
    Holds broken "/lib" (some "go 1.22\n") ∧
    ∀ c ∈ Scan.packageDirs broken .default [] broken.root,
      ((⟨"ex.com/shop", "/"⟩ : Module).packagePath? (Path.absolute c)).isSome := by
  obtain ⟨hsearch, hholds, hscan⟩ := find_nearest proper_broken
  refine ⟨proper_broken, (hsearch _ _).1 _ |>.1 rfl, (hsearch _ _).1 _ |>.1 rfl,
    (hsearch _ _).1 _ |>.1 rfl, (hholds ["lib"] _ _ rfl).2 rfl, ?_⟩
  exact hscan .default "..." [] broken.root ⟨"ex.com/shop", "/"⟩ rfl rfl

end Module

end Wiring
