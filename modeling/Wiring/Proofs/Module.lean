import Wiring.Module
import Wiring.Proofs.FileTree

/-!
# The module of a directory

The module of a directory is found at the nearest directory upwards that `isTop` holds of.  So it is
also that of every directory on the way there (`find_above`), and it gives all directories below
these a path (`isSome_packagePath?`).
-/

namespace Wiring

namespace Module

variable {fs : FileSystem} {names below : List Bytes} {depth : Nat} {m : Module}

def isTop (fs : FileSystem) (names : List Bytes) : Bool :=
  fs.isFile (fileIn (Path.absolute names))

theorem find_eq_ok_iff {dir : Bytes} : find fs dir depth = .ok m ↔ ∃ d,
    (Path.upward depth dir).find? (fun d => fs.isFile (fileIn d)) = some d ∧
      ofDir fs d = .ok m := by
  rw [find]
  cases (Path.upward depth dir).find? (fun d => fs.isFile (fileIn d)) with
  | none => simp
  | some d => simp

theorem root_of_ofDir {d : Bytes} (h : ofDir fs d = .ok m) : m.root = d := by
  simp only [ofDir, bind, Except.bind] at h
  split at h
  · cases h
  · split at h
    · cases h
      rfl
    · cases h

theorem find_mono {dir : Bytes} {depth' : Nat} (hdepth : depth ≤ depth')
    (h : find fs dir depth = .ok m) : find fs dir depth' = .ok m := by
  obtain ⟨d, hd, hm⟩ := find_eq_ok_iff.1 h
  obtain ⟨further, hfurther⟩ := Path.upward_prefix hdepth dir
  refine find_eq_ok_iff.2 ⟨d, ?_, hm⟩
  rw [← hfurther, List.find?_append, hd, Option.some_or]

/-- The directory of a module is above the one that it was found for. -/
theorem exists_root_eq (hnames : ∀ name ∈ names, Path.IsName name)
    (h : find fs (Path.absolute names) depth = .ok m) :
    ∃ front rest, names = front ++ rest ∧ m.root = Path.absolute front := by
  obtain ⟨d, hd, hm⟩ := find_eq_ok_iff.1 h
  obtain ⟨front, ⟨rest, rfl⟩, rfl⟩ :=
    Path.mem_upward_absolute hnames (List.mem_of_find?_eq_some hd)
  exact ⟨front, rest, rfl, root_of_ofDir hm⟩

/-- A module gives a path to all directories below the one that it was found for. -/
theorem isSome_packagePath? (hnames : ∀ name ∈ names ++ below, Path.IsName name)
    (h : find fs (Path.absolute names) depth = .ok m) :
    (m.packagePath? (Path.absolute (names ++ below))).isSome := by
  obtain ⟨front, rest, rfl, hdir⟩ :=
    exists_root_eq (fun name hname => hnames name (List.mem_append_left _ hname)) h
  have hfront : ∀ name ∈ front, Path.IsName name := fun name hname =>
    hnames name (List.mem_append_left _ (List.mem_append_left _ hname))
  have hprefix : (Path.components m.root).isPrefixOf?
      (Path.components (Path.absolute (front ++ rest ++ below)))
        = some ((rest ++ below).map .name) := by
    rw [hdir, Path.components_absolute hfront, Path.components_absolute hnames,
      List.isPrefixOf?_eq_some_iff_append_eq]
    simp
  rw [packagePath?, hprefix]
  rfl

/-- The module of a directory is that of a directory above it, if no directory from there down is
the top of a module. -/
theorem find_above (hnames : ∀ name ∈ names ++ below, Path.IsName name)
    (htop : ∀ middle, middle ≠ [] → middle <+: below → isTop fs (names ++ middle) = false)
    (h : find fs (Path.absolute (names ++ below)) depth = .ok m) :
    find fs (Path.absolute names) depth = .ok m := by
  induction below using List.reverseRecOn generalizing depth with
  | nil => rwa [List.append_nil] at h
  | append_singleton below last ih =>
    have hlast : isTop fs (names ++ (below ++ [last])) = false :=
      htop _ (by simp) List.prefix_rfl
    have hshorter : ∀ name ∈ names ++ below, Path.IsName name := by
      intro name hname
      refine hnames name ?_
      rw [← List.append_assoc]
      exact List.mem_append_left _ hname
    have htop' : ∀ middle, middle ≠ [] → middle <+: below → isTop fs (names ++ middle) = false :=
      fun middle hne hmiddle => htop middle hne (hmiddle.trans (List.prefix_append _ _))
    obtain ⟨d, hd, hm⟩ := find_eq_ok_iff.1 h
    cases depth with
    | zero =>
      rw [Path.upward, List.find?_singleton] at hd
      rw [isTop] at hlast
      rw [hlast] at hd
      cases hd
    | succ depth =>
      -- the search passes the lowest directory and goes on from the one above it
      rw [isTop] at hlast
      have hup : (Path.upward depth (Path.absolute (names ++ below))).find?
          (fun d => fs.isFile (fileIn d)) = some d := by
        rw [← List.append_assoc] at hd hlast
        rwa [Path.upward_absolute hshorter (hnames last (by simp)), List.find?_cons, hlast] at hd
      exact find_mono (Nat.le_succ depth) (ih hshorter htop' (find_eq_ok_iff.2 ⟨d, hup, hm⟩))

end Module

end Wiring
