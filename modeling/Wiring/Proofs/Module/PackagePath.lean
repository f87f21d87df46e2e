import Wiring.Module
import Wiring.Proofs.FileTree
import Wiring.Proofs.Path.Shown

/-!
# Paths of packages

A module gives a path to the directories whose components begin with its own
(`packagePath?_eq_some_iff`).  The path is that of the module and then each of the other components
behind a slash, as it is shown.  Components can be told from the text in which they stand behind slashes
(`Path.written_injective`), so directories have one path only if their components are shown alike, and
if these spell texts, only if they are the same (`packagePath?_identifies`).
-/

namespace Wiring.Module

variable {m : Module} {dir dir' : Bytes} {p : String} {rest rest' : List (Path.Component UInt8)}

theorem toList_pathBelow (m : Module) (rest : List (Path.Component UInt8)) :
    (m.pathBelow rest).toList = m.path.toList ++ Path.written (rest.map Path.Component.shown) := by
  have hslash : ("/" : String).toList = ['/'] := rfl
  rw [pathBelow, String.toList_append, String.toList_join, List.flatMap_map, Path.written,
    List.flatMap_map]
  simp only [String.toList_append, hslash, Bytes.display, String.toList_ofList,
    Path.Component.text_shown]
  rfl

/-- A module gives a path to what its own components are the beginning of. -/
theorem packagePath?_eq_some_iff : m.packagePath? dir = some p ↔
    ∃ rest, Path.components m.root ++ rest = Path.components dir ∧ p = m.pathBelow rest := by
  rw [packagePath?, Option.map_eq_some_iff]
  simp only [List.isPrefixOf?_eq_some_iff_append_eq, eq_comm (b := p)]

/-- The path of a directory that is given by names. -/
theorem packagePath?_absolute {top below : List Bytes}
    (hnames : ∀ name ∈ top ++ below, Path.IsName name) (hroot : m.root = Path.absolute top) :
    m.packagePath? (Path.absolute (top ++ below))
      = some (m.path ++ String.join (below.map fun name => "/" ++ name.display)) := by
  have htop : ∀ name ∈ top, Path.IsName name := fun name hname =>
    hnames name (List.mem_append_left _ hname)
  refine packagePath?_eq_some_iff.2 ⟨below.map .name, ?_, ?_⟩
  · rw [hroot, Path.components_absolute htop, Path.components_absolute hnames, List.map_append]
    rfl
  · rw [pathBelow, List.map_map]
    rfl

theorem isSome_packagePath?_iff : (m.packagePath? dir).isSome ↔
    Path.components m.root <+: Path.components dir := by
  rw [Option.isSome_iff_exists]
  constructor
  · rintro ⟨p, hp⟩
    obtain ⟨rest, hrest, -⟩ := packagePath?_eq_some_iff.1 hp
    exact ⟨rest, hrest⟩
  · rintro ⟨rest, hrest⟩
    exact ⟨_, packagePath?_eq_some_iff.2 ⟨rest, hrest, rfl⟩⟩

/-- The components of a directory that follow those of the module. -/
theorem exists_packagePath?_iff (hrest : Path.components m.root ++ rest = Path.components dir)
    (hrest' : Path.components m.root ++ rest' = Path.components dir') :
    (∃ p, m.packagePath? dir = some p ∧ m.packagePath? dir' = some p) ↔
      m.pathBelow rest = m.pathBelow rest' := by
  have hp : m.packagePath? dir = some (m.pathBelow rest) :=
    packagePath?_eq_some_iff.2 ⟨rest, hrest, rfl⟩
  have hp' : m.packagePath? dir' = some (m.pathBelow rest') :=
    packagePath?_eq_some_iff.2 ⟨rest', hrest', rfl⟩
  rw [hp, hp']
  simp [eq_comm]

/-- Paths below a module are the same for components that are shown alike. -/
theorem pathBelow_eq_iff (hrest : ∀ c ∈ rest, c.Legal) (hrest' : ∀ c ∈ rest', c.Legal) :
    m.pathBelow rest = m.pathBelow rest' ↔
      rest.map (fun c => Bytes.display c.text) = rest'.map fun c => Bytes.display c.text := by
  constructor
  · intro h
    rw [← String.toList_inj, toList_pathBelow, toList_pathBelow, List.append_cancel_left_eq] at h
    have hlegal : ∀ {rest : List (Path.Component UInt8)}, (∀ c ∈ rest, c.Legal) →
        ∀ c ∈ rest.map Path.Component.shown, c.Legal := fun hrest =>
      List.forall_mem_map.2 fun c hc => (hrest c hc).shown
    have hshown := Path.written_injective (hlegal hrest) (hlegal hrest') h
    have htexts := congrArg (List.map fun c => String.ofList c.text) hshown
    simp only [List.map_map, Function.comp_def, Path.Component.text_shown] at htexts
    exact htexts
  · intro h
    have hslashes := congrArg (fun texts => m.path ++ String.join (texts.map ("/" ++ ·))) h
    simp only [List.map_map] at hslashes
    exact hslashes

/-- Components that spell texts can be told from what is shown of them. -/
theorem eq_of_display_eq (hrest : ∀ c ∈ rest, c.Legal ∧ Bytes.IsText c.text)
    (hrest' : ∀ c ∈ rest', c.Legal ∧ Bytes.IsText c.text)
    (h : rest.map (fun c => Bytes.display c.text) = rest'.map fun c => Bytes.display c.text) :
    rest = rest' := by
  have hback : ∀ {rest : List (Path.Component UInt8)}, (∀ c ∈ rest, c.Legal ∧ Bytes.IsText c.text) →
      (rest.map fun c => Bytes.display c.text).map
        (fun text => Path.Component.ofText (Bytes.ofString text)) = rest := by
    intro rest hrest
    rw [List.map_map]
    refine (List.map_congr_left fun c hc => ?_).trans (List.map_id rest)
    rw [Function.comp_apply, (hrest c hc).2.ofString_display, (hrest c hc).1.ofText_text, id]
  rw [← hback hrest, h, hback hrest']

/-- **The path of a package tells the directory, as far as it is shown**: a module gives a path to the
directories whose components begin with its own, it is made of what is shown of the components that
follow, and it is the same for directories of which the same is shown.  If these components spell texts,
the directories have the same components. -/
theorem packagePath?_identifies (m : Module) (dir dir' : Bytes) :
    ((m.packagePath? dir).isSome ↔ Path.components m.root <+: Path.components dir) ∧
    (∀ p, m.packagePath? dir = some p ↔ ∃ rest,
      Path.components m.root ++ rest = Path.components dir ∧
        p = m.path ++ String.join (rest.map fun c => "/" ++ Bytes.display c.text)) ∧
    ∀ rest rest', Path.components m.root ++ rest = Path.components dir →
      Path.components m.root ++ rest' = Path.components dir' →
      ((∃ p, m.packagePath? dir = some p ∧ m.packagePath? dir' = some p) ↔
        rest.map (fun c => Bytes.display c.text) = rest'.map fun c => Bytes.display c.text) ∧
      ((∀ c ∈ rest ++ rest', Bytes.IsText c.text) →
        ((∃ p, m.packagePath? dir = some p ∧ m.packagePath? dir' = some p) ↔
          Path.components dir = Path.components dir')) := by
  refine ⟨isSome_packagePath?_iff, fun p => packagePath?_eq_some_iff, ?_⟩
  intro rest rest' hrest hrest'
  have hlegal : ∀ c ∈ rest, c.Legal := fun c hc =>
    Path.legal_of_mem_components (hrest ▸ List.mem_append_right _ hc)
  have hlegal' : ∀ c ∈ rest', c.Legal := fun c hc =>
    Path.legal_of_mem_components (hrest' ▸ List.mem_append_right _ hc)
  rw [exists_packagePath?_iff hrest hrest', pathBelow_eq_iff hlegal hlegal']
  refine ⟨Iff.rfl, fun htext => ?_⟩
  rw [List.forall_mem_append] at htext
  rw [← hrest, ← hrest', List.append_cancel_left_eq]
  constructor
  · exact eq_of_display_eq (fun c hc => ⟨hlegal c hc, htext.1 c hc⟩)
      fun c hc => ⟨hlegal' c hc, htext.2 c hc⟩
  · rintro rfl
    rfl

/-- A module in a directory of its own. -/
def shop : Module :=
  ⟨"ex.com/shop", "/src/shop"⟩

theorem packagePath?_identifies_shop :
    Path.components shop.root ++ [.name "pay"] = Path.components "//src/./shop//pay/" ∧
      Path.components shop.root ++ [.name "pay"] = Path.components "/src/shop/pay" ∧
      (∀ c ∈ ([.name "pay"] : List (Path.Component UInt8)) ++ [.name "pay"], Bytes.IsText c.text) ∧
      ∃ p, shop.packagePath? "//src/./shop//pay/" = some p ∧
        shop.packagePath? "/src/shop/pay" = some p := by
  have hdir : Path.components shop.root ++ [.name "pay"] = Path.components "//src/./shop//pay/" := by
    decide
  have hdir' : Path.components shop.root ++ [.name "pay"] = Path.components "/src/shop/pay" := by
    decide
  have htext : ∀ c ∈ ([.name "pay"] : List (Path.Component UInt8)) ++ [.name "pay"],
      Bytes.IsText c.text := by
    decide
  refine ⟨hdir, hdir', htext, ?_⟩
  exact (((packagePath?_identifies shop _ _).2.2 _ _ hdir hdir').2 htext).2 (hdir.symm.trans hdir')

/-- **Directories of different components share a path**, where their names spell no texts. -/
theorem packagePath?_unreadable :
    shop.packagePath? (Path.absolute ["src", "shop", [0xFF]]) = some "ex.com/shop/\ufffd" ∧
      shop.packagePath? (Path.absolute ["src", "shop", [0xFE]]) = some "ex.com/shop/\ufffd" ∧
      Path.components (Path.absolute (["src", "shop", [0xFF]] : List Bytes))
        ≠ Path.components (Path.absolute ["src", "shop", [0xFE]]) := by
  decide

/-- Slashes and dots that do not matter are passed over, and a directory whose name only begins as
that of the module is outside. -/
example : shop.packagePath? "//src/./shop//pay/" = some "ex.com/shop/pay" ∧
    shop.packagePath? "/src/shop/../pay" = some "ex.com/shop/../pay" ∧
    shop.packagePath? "/src/shopping" = none := by
  decide

end Wiring.Module
