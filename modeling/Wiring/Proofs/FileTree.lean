import Wiring.FileTree
import Wiring.Proofs.Path

/-!
# File trees as an operating system keeps them

In a `Proper` tree the entries of a directory have names, and no two have the same.  A chain of
names that leads somewhere in it can be written as a path, and this path is found where the chain
leads (`find_absolute`).
-/

namespace Wiring

namespace FileTree

variable {t t' : FileTree} {es : List (Bytes × FileTree)} {name : Bytes} {names : List Bytes}

/-- The entries of every directory have names, and no two the same. -/
inductive Proper : FileTree → Prop
  | file (text? : Option String) : Proper (.file text?)
  | dir {es : List (Bytes × FileTree)} (distinct : (es.map Prod.fst).Nodup)
      (named : ∀ e ∈ es, Path.IsName e.1) (below : ∀ e ∈ es, Proper e.2) : Proper (.dir es)

theorem mem_of_lookup (h : es.lookup name = some t) : (name, t) ∈ es := by
  induction es with
  | nil => cases h
  | cons e es ih =>
    obtain ⟨n, t'⟩ := e
    rw [List.lookup_cons] at h
    by_cases hn : name = n
    · subst hn
      rw [BEq.rfl] at h
      cases h
      exact List.mem_cons_self
    · have hne : (name == n) = false := beq_eq_false_iff_ne.2 hn
      rw [hne] at h
      exact List.mem_cons_of_mem _ (ih h)

theorem lookup_of_mem (hes : (es.map Prod.fst).Nodup) (h : (name, t) ∈ es) :
    es.lookup name = some t := by
  induction es with
  | nil => cases h
  | cons e es ih =>
    obtain ⟨n, t'⟩ := e
    rw [List.map_cons, List.nodup_cons] at hes
    rw [List.lookup_cons]
    rcases List.mem_cons.1 h with heq | hmem
    · cases heq
      rw [BEq.rfl]
    · have hne : name ≠ n := by
        rintro rfl
        exact hes.1 (List.mem_map.2 ⟨_, hmem, rfl⟩)
      rw [beq_eq_false_iff_ne.2 hne]
      exact ih hes.2 hmem

mutual

def isProper : FileTree → Bool
  | .file _ => true
  | .dir es => decide (es.map Prod.fst).Nodup && areProper es

/-- Whether entries have names and what is below them is proper. -/
def areProper : List (Bytes × FileTree) → Bool
  | [] => true
  | (name, t) :: rest => decide (Path.IsName name) && isProper t && areProper rest

end

mutual

theorem isProper_iff : ∀ t : FileTree, t.isProper = true ↔ t.Proper
  | .file text? => by simp [isProper, Proper.file]
  | .dir es => by
    rw [isProper, Bool.and_eq_true, decide_eq_true_iff, areProper_iff es]
    constructor
    · rintro ⟨distinct, hes⟩
      exact .dir distinct (fun e he => (hes e he).1) fun e he => (hes e he).2
    · intro h
      cases h with
      | dir distinct named below => exact ⟨distinct, fun e he => ⟨named e he, below e he⟩⟩

theorem areProper_iff : ∀ es : List (Bytes × FileTree),
    areProper es = true ↔ ∀ e ∈ es, Path.IsName e.1 ∧ e.2.Proper
  | [] => by simp [areProper]
  | (name, t) :: rest => by
    rw [areProper, Bool.and_eq_true, Bool.and_eq_true, decide_eq_true_iff, isProper_iff t,
      areProper_iff rest, List.forall_mem_cons]

end

instance (t : FileTree) : Decidable t.Proper :=
  decidable_of_iff _ (isProper_iff t)

theorem Proper.of_entry (ht : t.Proper) (h : t.entry? name = some t') :
    Path.IsName name ∧ t'.Proper := by
  cases ht with
  | file text? => cases h
  | dir distinct named below =>
    have hmem := mem_of_lookup h
    exact ⟨named _ hmem, below _ hmem⟩

theorem Proper.at? (ht : t.Proper) (h : t.at? names = some t') :
    (∀ name ∈ names, Path.IsName name) ∧ t'.Proper := by
  induction names generalizing t with
  | nil =>
    cases h
    exact ⟨by simp, ht⟩
  | cons name names ih =>
    obtain ⟨e, he, hrest⟩ := Option.bind_eq_some_iff.1 h
    obtain ⟨hname, he'⟩ := ht.of_entry he
    obtain ⟨hnames, ht'⟩ := ih he' hrest
    exact ⟨List.forall_mem_cons.2 ⟨hname, hnames⟩, ht'⟩

theorem at?_append (t : FileTree) (names names' : List Bytes) :
    t.at? (names ++ names') = (t.at? names).bind (·.at? names') := by
  induction names generalizing t with
  | nil => rfl
  | cons name names ih =>
    rw [List.cons_append, FileTree.at?, FileTree.at?, Option.bind_assoc]
    congr
    funext e
    exact ih e

/-- Whatever has entries is a directory. -/
theorem exists_dir_of_entry (h : t.entry? name = some t') : ∃ es, t = .dir es := by
  cases t with
  | file text? => cases h
  | dir es => exact ⟨es, rfl⟩

/-- One name further: the directory before it has an entry of this name. -/
theorem at?_concat_eq_some_iff : t.at? (names ++ [name]) = some t' ↔
    ∃ es, t.at? names = some (.dir es) ∧ es.lookup name = some t' := by
  rw [at?_append, Option.bind_eq_some_iff]
  constructor
  · rintro ⟨t₀, ht₀, hlast⟩
    obtain ⟨e, he, heq⟩ := Option.bind_eq_some_iff.1 hlast
    cases heq
    obtain ⟨es, rfl⟩ := exists_dir_of_entry he
    exact ⟨es, ht₀, he⟩
  · rintro ⟨es, hes, he⟩
    exact ⟨_, hes, Option.bind_eq_some_iff.2 ⟨t', he, rfl⟩⟩

end FileTree

namespace FileSystem

variable {fs : FileSystem} {names : List Bytes} {path : Bytes} {t : FileTree}
  {es : List (Bytes × FileTree)}

theorem at?_of_find (h : fs.find path = .ok (names, t)) : fs.root.at? names = some t := by
  simp only [find, bind, Except.bind, pure, Except.pure] at h
  split at h
  · cases h
  · split at h
    · cases h
    · split at h
      · next hat =>
        cases h
        exact hat
      · cases h

/-- Empty segments and dots lead nowhere else. -/
theorem step_here {trail : List Bytes} {segment : Bytes}
    (h : fs.root.at? trail.reverse = some (.dir es)) (hsegment : segment = [] ∨ segment = [Path.dot]) :
    fs.step trail segment = .ok trail := by
  rw [step, h]
  exact if_pos hsegment

theorem foldlM_here {trail segments : List Bytes}
    (h : fs.root.at? trail.reverse = some (.dir es))
    (hsegments : ∀ segment ∈ segments, segment = [] ∨ segment = [Path.dot]) :
    segments.foldlM fs.step trail = .ok trail := by
  induction segments with
  | nil => rfl
  | cons segment segments ih =>
    rw [List.forall_mem_cons] at hsegments
    rw [List.foldlM_cons, step_here h hsegments.1]
    exact ih hsegments.2

/-- A step by a name leads to the entry of this name. -/
theorem step_eq {trail : List Bytes} {name : Bytes}
    (h : fs.root.at? trail.reverse = some (.dir es)) (hname : Path.IsName name) :
    fs.step trail name
      = if (es.lookup name).isSome then .ok (name :: trail) else .error .notFound := by
  have hhere : ¬ (name = [] ∨ name = [Path.dot]) := fun heq => heq.elim hname.ne_nil hname.ne_here
  rw [step, h]
  dsimp only
  rw [if_neg hhere, if_neg hname.ne_up]

theorem step_name {trail : List Bytes} {name : Bytes}
    (h : fs.root.at? trail.reverse = some (.dir es)) (hname : Path.IsName name)
    (he : (es.lookup name).isSome) : fs.step trail name = .ok (name :: trail) := by
  rw [step_eq h hname, if_pos he]

/-- Going along a chain of names that leads to a directory. -/
theorem foldlM_step (hfs : fs.root.Proper) {front : List Bytes}
    (h : fs.root.at? (front ++ names) = some t) :
    names.foldlM fs.step front.reverse = .ok (front ++ names).reverse := by
  induction names generalizing front with
  | nil => simp; rfl
  | cons name names ih =>
    rw [FileTree.at?_append, Option.bind_eq_some_iff] at h
    obtain ⟨t₀, ht₀, hrest⟩ := h
    -- the next name leads somewhere, so what it is looked up in is a directory
    obtain ⟨e, he, hbelow⟩ := Option.bind_eq_some_iff.1 hrest
    obtain ⟨es, rfl⟩ := FileTree.exists_dir_of_entry he
    have hname := ((hfs.at? ht₀).2.of_entry he).1
    have hlookup : (es.lookup name).isSome := Option.isSome_iff_exists.2 ⟨e, he⟩
    have hstep : fs.step front.reverse name = .ok (front ++ [name]).reverse := by
      rw [step_name (by rwa [List.reverse_reverse]) hname hlookup, List.reverse_concat]
    have hall : fs.root.at? ((front ++ [name]) ++ names) = some t := by
      rw [List.append_assoc, FileTree.at?_append, ht₀]
      exact hrest
    have hrest := ih hall
    rw [List.append_assoc] at hrest
    rw [List.foldlM_cons, hstep]
    exact hrest

/-- The root is a directory if anything but itself is there. -/
theorem exists_root_entries (h : fs.root.at? names = some (.dir es)) :
    ∃ es, fs.root.at? [] = some (.dir es) := by
  cases names with
  | nil => exact ⟨es, h⟩
  | cons name names =>
    obtain ⟨e, he, -⟩ := Option.bind_eq_some_iff.1 h
    obtain ⟨es, hes⟩ := FileTree.exists_dir_of_entry he
    exact ⟨es, congrArg some hes⟩

/-- Going along a path from the root that leads to a directory. -/
theorem foldlM_from_root (hfs : fs.root.Proper) (h : fs.root.at? names = some (.dir es)) :
    ([] :: names).foldlM fs.step [] = .ok names.reverse := by
  obtain ⟨es₀, hes₀⟩ := exists_root_entries h
  have hempty : fs.step [] [] = .ok [] := step_here hes₀ (.inl rfl)
  rw [List.foldlM_cons, hempty]
  exact @foldlM_step _ names _ hfs [] h

def walk (fs : FileSystem) (path : Bytes) : Except FileError (List Bytes) :=
  (path.splitOn Path.slash).foldlM fs.step
    (if path.head? = some Path.slash then [] else fs.workingDir.reverse)

def arrive (fs : FileSystem) (trail : List Bytes) : Except FileError (List Bytes × FileTree) :=
  match fs.root.at? trail.reverse with
  | some t => .ok (trail.reverse, t)
  | none => .error .notFound

theorem find_eq (h : path ≠ []) : fs.find path = fs.walk path >>= fs.arrive := by
  have hempty : ¬ path.isEmpty = true := by simpa using h
  simp only [find, if_neg hempty]
  rfl

theorem find_of_walk (hpath : path ≠ []) (hwalk : fs.walk path = .ok names.reverse)
    (h : fs.root.at? names = some t) : fs.find path = .ok (names, t) := by
  rw [find_eq hpath, hwalk]
  change fs.arrive names.reverse = _
  rw [arrive, List.reverse_reverse, h]

theorem walk_absolute (names : List Bytes) : fs.walk (Path.absolute names)
    = ((Path.absolute names).splitOn Path.slash).foldlM fs.step [] := by
  rw [walk, if_pos]
  rfl

/-- **The path of a chain of names is found where the chain leads.** -/
theorem find_absolute (hfs : fs.root.Proper) (h : fs.root.at? names = some (.dir es)) :
    fs.find (Path.absolute names) = .ok (names, .dir es) := by
  refine find_of_walk (Path.absolute_ne_nil _) ?_ h
  rw [walk_absolute]
  by_cases hnil : names = []
  · subst hnil
    rw [Path.splitOn_absolute_nil]
    exact foldlM_here h (by simp)
  · rw [Path.splitOn_absolute (hfs.at? h).1 hnil]
    exact foldlM_from_root hfs h

/-- A dot behind the slash of the root. -/
theorem find_root_here (h : fs.root.at? [] = some (.dir es)) :
    fs.find "/." = .ok ([], .dir es) := by
  have hsegments : (("/." : String) : Bytes).splitOn Path.slash = [[], [Path.dot]] := by decide
  refine find_of_walk (by decide) ?_ h
  rw [walk, hsegments]
  exact foldlM_here h (by simp)

/-- An entry of a directory is found where the entries of the directory say. -/
theorem find_absolute_concat (hfs : fs.root.Proper) (h : fs.root.at? names = some (.dir es))
    {name : Bytes} (hname : Path.IsName name) : fs.find (Path.absolute (names ++ [name])) =
      match es.lookup name with
      | some t => .ok (names ++ [name], t)
      | none => .error .notFound := by
  have hnames : ∀ n ∈ names ++ [name], Path.IsName n := by
    intro n hn
    rcases List.mem_append.1 hn with hn | hn
    · exact (hfs.at? h).1 n hn
    · exact List.mem_singleton.1 hn ▸ hname
  have hat : fs.root.at? names.reverse.reverse = some (.dir es) := by
    rwa [List.reverse_reverse]
  have hwalk : fs.walk (Path.absolute (names ++ [name])) = fs.step names.reverse name := by
    rw [walk_absolute, Path.splitOn_absolute hnames (by simp), ← List.cons_append, List.foldlM_append,
      foldlM_from_root hfs h]
    change (fs.step names.reverse name >>= fun trail => pure trail) = _
    cases fs.step names.reverse name <;> rfl
  cases he : es.lookup name with
  | none =>
    rw [find_eq (Path.absolute_ne_nil _), hwalk, step_eq hat hname, he]
    rfl
  | some t =>
    have hstep : fs.step names.reverse name = .ok (names ++ [name]).reverse := by
      rw [step_name hat hname (Option.isSome_iff_exists.2 ⟨t, he⟩), List.reverse_concat]
    exact find_of_walk (Path.absolute_ne_nil _) (hwalk.trans hstep)
      (FileTree.at?_concat_eq_some_iff.2 ⟨es, h, he⟩)

theorem readDir_absolute (hfs : fs.root.Proper) (h : fs.root.at? names = some (.dir es)) :
    fs.readDir (Path.absolute names) = .ok es := by
  rw [readDir, find_absolute hfs h]
  rfl

end FileSystem

end Wiring
