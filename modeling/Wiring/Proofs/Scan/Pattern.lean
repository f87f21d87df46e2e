import Mathlib.Data.Bool.AllAny
import Wiring.Proofs.Scan.Listing

/-!
# A directory with all below it

The pattern of a directory with all below it is a path of the directory, a slash and three dots.
Read back, it gives the path without the slashes at its end (`splitPattern_dots`), and these do not
matter to where a path leads (`find_trimEndWhile`).  The directory itself comes first in the order
of directories (`exists_packageDirs_eq`), so a scan with all below it begins with the units of a
scan without.

There is one exception, `scan_recursive`.  Of a path of slashes alone nothing is left without them,
and the pattern then means not the root but the directory in which paths start.
-/

namespace Wiring

namespace FileSystem

variable {fs : FileSystem} {path : Bytes} {names : List Bytes} {t : FileTree}

/-! ## Slashes at the end of a path -/

/-- Empty segments lead nowhere else. -/
theorem eq_of_foldlM_empty {segments trail trail' : List Bytes}
    (hsegments : ∀ segment ∈ segments, segment = [])
    (h : segments.foldlM fs.step trail = .ok trail') : trail' = trail := by
  induction segments with
  | nil => exact (Except.ok.inj h).symm
  | cons segment segments ih =>
    obtain ⟨rfl, hrest⟩ := List.forall_mem_cons.1 hsegments
    rw [List.foldlM_cons, bind_eq_ok_iff] at h
    obtain ⟨next, hnext, h⟩ := h
    have hself : next = trail := by
      rw [step] at hnext
      split at hnext
      · cases hnext
      · cases hnext
      · rw [if_pos (.inl rfl)] at hnext
        exact (Except.ok.inj hnext).symm
    rw [hself] at h
    exact ih hrest h

/-- One slash more leads nowhere else. -/
theorem find_of_append_slash (hpath : path ≠ []) (h : fs.find (path ++ [Path.slash]) = .ok (names, t)) :
    fs.find path = .ok (names, t) := by
  have hhead : (path ++ [Path.slash]).head? = path.head? := List.head?_append_of_ne_nil path hpath
  rw [find_eq (by simp), bind_eq_ok_iff, walk, hhead, Text.splitOn_append_cons,
    List.foldlM_append] at h
  obtain ⟨trail, hall, harrive⟩ := h
  obtain ⟨trail', hwalk, hlast⟩ := bind_eq_ok_iff.1 hall
  rw [eq_of_foldlM_empty (by simp) hlast] at harrive
  rw [find_eq hpath, bind_eq_ok_iff]
  exact ⟨trail', hwalk, harrive⟩

/-- **Slashes at the end of a path do not matter to where it leads.** -/
theorem find_trimEndWhile {s : List Char} (hne : Text.trimEndWhile (· == '/') s ≠ [])
    (h : fs.find (Bytes.ofText s) = .ok (names, t)) :
    fs.find (Bytes.ofText (Text.trimEndWhile (· == '/') s)) = .ok (names, t) := by
  induction s using List.reverseRecOn with
  | nil => exact absurd rfl hne
  | append_singleton s c ih =>
    by_cases hc : c = '/'
    · subst hc
      have htrim : Text.trimEndWhile (· == '/') (s ++ ['/']) = Text.trimEndWhile (· == '/') s :=
        List.rdropWhile_concat_pos (· == '/') s '/' BEq.rfl
      have hs : Bytes.ofText s ≠ [] := by
        intro hnil
        obtain rfl := Bytes.ofText_injective (hnil.trans Bytes.ofText_nil.symm)
        exact hne htrim
      rw [htrim] at hne ⊢
      rw [Bytes.ofText_append] at h
      exact ih hne (find_of_append_slash hs h)
    · have htrim : Text.trimEndWhile (· == '/') (s ++ [c]) = s ++ [c] :=
        List.rdropWhile_concat_neg (· == '/') s c (by simpa using hc)
      rwa [htrim]

/-- Slashes alone lead to the root. -/
theorem eq_nil_of_find_slashes (hpath : ∀ b ∈ path, b = Path.slash)
    (h : fs.find path = .ok (names, t)) : names = [] := by
  have hne : path ≠ [] := by
    rintro rfl
    cases h
  obtain ⟨b, rest, rfl⟩ := List.exists_cons_of_ne_nil hne
  obtain rfl : b = Path.slash := hpath b List.mem_cons_self
  rw [find_eq hne, bind_eq_ok_iff] at h
  obtain ⟨trail, hwalk, harrive⟩ := h
  have hsegments : ∀ segment ∈ (Path.slash :: rest).splitOn Path.slash, segment = [] := by
    intro segment hsegment
    obtain ⟨hslash, before, after, heq, -⟩ := Text.isPiece_of_mem_splitOn hsegment
    refine List.eq_nil_iff_forall_not_mem.2 fun b hb => hslash ?_
    rwa [← hpath b (heq ▸ by simp [hb])]
  rw [eq_of_foldlM_empty hsegments hwalk] at harrive
  exact (Prod.mk.inj (Except.ok.inj harrive)).1.symm

/-- A dot leads to the directory in which paths start. -/
theorem find_here {es : List (Bytes × FileTree)}
    (h : fs.root.at? fs.workingDir = some (.dir es)) :
    fs.find "." = .ok (fs.workingDir, .dir es) := by
  have hsegments : (Bytes.ofString ".").splitOn Path.slash = [[Path.dot]] := by decide
  refine find_of_walk (by decide) ?_ h
  rw [walk, hsegments, if_neg (by decide)]
  exact foldlM_here (by rwa [List.reverse_reverse]) (by simp)

end FileSystem

namespace Scan

variable {fs : FileSystem} {settings : SourceSettings} {names : List Bytes} {t : FileTree}
  {es : List (Bytes × FileTree)} {d : String}

/-! ## The pattern -/

theorem splitPattern_eq_self (hdots : ¬ "...".toList <:+ d.toList) :
    splitPattern d = (d, false) := by
  have hnone : "...".toList.isSuffixOf? d.toList = none := by
    rw [Option.eq_none_iff_forall_not_mem]
    intro rest hrest
    exact hdots ⟨rest, List.isSuffixOf?_eq_some_iff_append_eq.1 hrest⟩
  rw [splitPattern, hnone]

/-! ## The directory itself -/

/-- The directory in which a scan begins comes first. -/
theorem exists_packageDirs_eq (hfs : fs.root.Proper) (h : fs.root.at? names = some (.dir es)) :
    ∃ rest, packageDirs fs settings names (.dir es) = names :: rest := by
  have hmem : names ∈ packageDirs fs settings names (.dir es) := by
    rw [packageDirs, List.mem_mergeSort, dirsIn]
    exact List.mem_cons_self
  have hsorted := @pairwise_packageDirs fs settings names _ (hfs.at? h).2
  cases hdirs : packageDirs fs settings names (.dir es) with
  | nil =>
    rw [hdirs] at hmem
    cases hmem
  | cons first rest =>
    have hfirst : first ∈ packageDirs fs settings names (.dir es) := by
      rw [hdirs]
      exact List.mem_cons_self
    obtain ⟨below, -, rfl, -⟩ := exists_of_mem_packageDirs hfs h hfirst
    rw [hdirs] at hmem hsorted
    rcases List.mem_cons.1 hmem with heq | hrest
    · exact ⟨rest, by rw [← heq]⟩
    · -- what is below a directory does not come before it
      have hlt := (List.pairwise_cons.1 hsorted).1 names hrest
      exact absurd hlt (List.not_lt.2 List.le_append_left)

/-- **The pattern of a directory with all below it means this directory**, and what a scan of it
reads a scan of the pattern reads first, unless the directory is written with slashes alone.  That
is the root, and the pattern means the directory in which paths start. -/
theorem scan_recursive (hfs : fs.root.Proper) (hdots : ¬ "...".toList <:+ d.toList)
    (hd : fs.find d = .ok (names, .dir es)) :
    (splitPattern (d ++ "/...")).2 = true ∧
    ((∃ c ∈ d.toList, c ≠ '/') →
      fs.find (splitPattern (d ++ "/...")).1 = .ok (names, .dir es) ∧
      ∀ settings us, scan fs settings d = .ok us →
        ∃ more, scan fs settings (d ++ "/...") = .ok (us ++ more)) ∧
    ((∀ c ∈ d.toList, c = '/') → names = [] ∧
      ∀ es', fs.root.at? fs.workingDir = some (.dir es') →
        fs.find (splitPattern (d ++ "/...")).1 = .ok (fs.workingDir, .dir es')) := by
  have hpattern := splitPattern_dots d
  have hempty : Text.trimEndWhile (· == '/') d.toList = [] ↔ ∀ c ∈ d.toList, c = '/' := by
    simp [Text.trimEndWhile]
  refine ⟨by rw [hpattern], fun hslash => ?_, fun hslashes => ?_⟩
  · have hne : Text.trimEndWhile (· == '/') d.toList ≠ [] := by
      intro hnil
      obtain ⟨c, hc, hne⟩ := hslash
      exact hne (hempty.1 hnil c hc)
    have hfind : fs.find (splitPattern (d ++ "/...")).1 = .ok (names, .dir es) := by
      rw [hpattern, if_neg (by simpa using hne), Bytes.ofString, String.toList_ofList]
      exact FileSystem.find_trimEndWhile hne hd
    refine ⟨hfind, fun settings us hus => ?_⟩
    have hself := splitPattern_eq_self hdots
    have hsingle : fs.find (splitPattern d).1 = .ok (names, .dir es) := by rwa [hself]
    obtain ⟨m, hm⟩ := exists_module_of_scan hsingle hus
    obtain ⟨rest, hdirs⟩ := @exists_packageDirs_eq fs settings _ _ hfs (FileSystem.at?_of_find hd)
    have hfirst := hus.symm.trans (scan_single hfs (by rw [hself]) hsingle hm)
    refine ⟨rest.flatMap (unitsAt fs settings m), ?_⟩
    rw [scan_above hfs (by rw [hpattern]) hfind hm, hdirs, List.flatMap_cons, Except.ok.inj hfirst]
  · have hbytes : ∀ b ∈ Bytes.ofString d, b = Path.slash := by
      intro b hb
      obtain ⟨c, hc, hmem⟩ := List.mem_flatMap.1 hb
      rw [hslashes c hc] at hmem
      exact List.mem_singleton.1 hmem
    refine ⟨FileSystem.eq_nil_of_find_slashes hbytes hd, fun es' hes' => ?_⟩
    rw [hpattern, if_pos (by simpa using hempty.2 hslashes)]
    exact FileSystem.find_here hes'

def libFiles : List (Bytes × FileTree) :=
  [("b.go", .file (some "package lib\n"))]

/-- A module with a package at its top and one in `lib`, where paths start. -/
def shelf : FileSystem :=
  ⟨.dir [("go.mod", .file (some "module ex.com/shelf\n")),
    ("a.go", .file (some "package shelf\n")), ("lib", .dir libFiles)], ["lib"]⟩

def shelfModule : Module :=
  ⟨"ex.com/shelf", "/"⟩

theorem proper_shelf : shelf.root.Proper := by decide

theorem find_root_shelf : shelf.find "/" = .ok ([], shelf.root) := rfl

theorem find_lib_shelf : shelf.find "." = .ok (["lib"], .dir libFiles) := rfl

theorem scan_recursive_shelf : shelf.root.Proper ∧
    (¬ "...".toList <:+ "..//".toList ∧ shelf.find "..//" = .ok ([], shelf.root) ∧
      (∃ c ∈ "..//".toList, c ≠ '/') ∧ ∀ us, scan shelf .default "..//" = .ok us →
        ∃ more, scan shelf .default ("..//" ++ "/...") = .ok (us ++ more)) ∧
    ¬ "...".toList <:+ "/".toList ∧ (∀ c ∈ "/".toList, c = '/') ∧
      shelf.find (splitPattern ("/" ++ "/...")).1 = .ok (["lib"], .dir libFiles) := by
  have hdots : ¬ "...".toList <:+ "..//".toList := by decide
  have hdots' : ¬ "...".toList <:+ "/".toList := by decide
  have hfind : shelf.find "..//" = .ok ([], shelf.root) := rfl
  have hslash : ∃ c ∈ "..//".toList, c ≠ '/' := List.any_iff_exists_prop.1 (by decide)
  have hslashes : ∀ c ∈ "/".toList, c = '/' := List.all_iff_forall_prop.1 (by decide)
  refine ⟨proper_shelf, ⟨hdots, hfind, hslash, fun us hus => ?_⟩, hdots', hslashes, ?_⟩
  · exact ((scan_recursive proper_shelf hdots hfind).2.1 hslash).2 .default us hus
  · exact ((scan_recursive proper_shelf hdots' find_root_shelf).2.2 hslashes).2 _ rfl

/-- **The pattern of the root with all below it does not mean the root**, and a scan of it does not
read what a scan of the root reads. -/
theorem scan_slashes_shelf : shelf.find "/" = .ok ([], shelf.root) ∧
    splitPattern ("/" ++ "/...") = (".", true) ∧
    shelf.find "." = .ok (["lib"], .dir libFiles) ∧
    ∃ us vs u, scan shelf .default "/" = .ok us ∧ scan shelf .default ("/" ++ "/...") = .ok vs ∧
      u ∈ us ∧ u ∉ vs := by
  have hus : scan shelf .default "/" = .ok (unitsAt shelf .default shelfModule []) :=
    scan_single proper_shelf rfl find_root_shelf rfl
  have hvs : scan shelf .default ("/" ++ "/...") = .ok ((packageDirs shelf .default ["lib"]
      (.dir libFiles)).flatMap (unitsAt shelf .default shelfModule)) :=
    scan_above proper_shelf rfl find_lib_shelf rfl
  have hfile : sources .default shelf.root.entries
      = [(Bytes.ofString "a.go", "package shelf\n")] :=
    List.mergeSort_singleton _
  have hunits : unitsAt shelf .default shelfModule []
      = [Go.analyze "package shelf\n" "ex.com/shelf" (some "/a.go")] := by
    rw [unitsAt_eq rfl rfl, unitsIn]
    exact congrArg (List.map _) hfile
  refine ⟨find_root_shelf, rfl, find_lib_shelf, _, _, _, hus, hvs,
    hunits ▸ List.mem_singleton_self _, fun hmem => ?_⟩
  -- the unit lies in the root, which is not entered from the other directory
  have hlib := FileSystem.at?_of_find find_lib_shelf
  have htexts : ∀ c ∈ packageDirs shelf .default ["lib"] (.dir libFiles), ∃ below es, c = [] ++ below ∧
      shelf.root.at? c = some (.dir es) ∧ ∀ n ∈ below, n.IsText := by
    intro c hc
    obtain ⟨below, es, rfl, hes, htext⟩ := exists_of_mem_packageDirs proper_shelf hlib hc
    exact ⟨_, es, (List.nil_append _).symm, hes, List.forall_mem_cons.2 ⟨⟨"lib", rfl⟩, htext⟩⟩
  have hnone := @filter_liesIn_flatMap shelf .default [] [] proper_shelf _
    (nodup_packageDirs (proper_shelf.at? hlib).2) htexts shelfModule (by simp) (by simp)
  rw [if_neg] at hnone
  · exact List.filter_eq_nil_iff.1 hnone _ hmem rfl
  · intro hentered
    obtain ⟨below, -, heq, -⟩ := exists_of_mem_packageDirs proper_shelf hlib hentered
    cases heq

end Scan

end Wiring
