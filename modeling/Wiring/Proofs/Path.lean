import Wiring.Path
import Wiring.Proofs.Text

/-!
# Paths of names

A path from the root that consists of names between single slashes, `absolute`, has these names as
its components, so different names make different paths.  Going up from it goes through the paths of
fewer and fewer names (`mem_upward_absolute`).
-/

namespace Wiring.Path

variable {α : Type} [Letters α]

/-- A segment that stands for an entry of a directory. -/
structure IsName (s : List α) : Prop where
  ne_nil : s ≠ []
  ne_here : s ≠ [dot]
  ne_up : s ≠ [dot, dot]
  slash : slash ∉ s

instance [DecidableEq α] (s : List α) : Decidable (IsName s) :=
  decidable_of_iff (s ≠ [] ∧ s ≠ [dot] ∧ s ≠ [dot, dot] ∧ slash ∉ s)
    ⟨fun ⟨h, h', h'', h'''⟩ => ⟨h, h', h'', h'''⟩, fun ⟨h, h', h'', h'''⟩ => ⟨h, h', h'', h'''⟩⟩

variable {names names' : List (List α)} {s : List α}

theorem isName_concat (h : ∀ s ∈ names, IsName s) (hs : IsName s) :
    ∀ s' ∈ names ++ [s], IsName s' := by
  intro s' hs'
  rcases List.mem_append.1 hs' with hs' | hs'
  · exact h s' hs'
  · exact List.mem_singleton.1 hs' ▸ hs

theorem absolute_ne_nil (names : List (List α)) : absolute names ≠ [] :=
  List.cons_ne_nil _ _

theorem absolute_concat (hne : names ≠ []) (s : List α) :
    absolute (names ++ [s]) = absolute names ++ slash :: s := by
  rw [absolute, Text.intercalate_concat hne]
  rfl

theorem getLast?_absolute_concat (hs : IsName s) :
    (absolute (names ++ [s])).getLast? ≠ some slash := by
  have hsplit : ∃ front, absolute (names ++ [s]) = front ++ s := by
    by_cases hne : names = []
    · subst hne
      exact ⟨[slash], by simp [absolute]⟩
    · exact ⟨absolute names ++ [slash], by simp [absolute_concat hne]⟩
  obtain ⟨front, hfront⟩ := hsplit
  rw [hfront, List.getLast?_append_of_ne_nil _ hs.ne_nil]
  exact fun hlast => hs.slash (List.mem_of_getLast? hlast)

variable [DecidableEq α]

theorem inner?_of_isName (hs : IsName s) : inner? s = some (.name s) := by
  have hmatters : ¬ (s = [] ∨ s = [dot]) := fun h => h.elim hs.ne_nil hs.ne_here
  rw [inner?, if_neg hmatters, if_neg hs.ne_up]

theorem filterMap_inner? (h : ∀ s ∈ names, IsName s) :
    names.filterMap inner? = names.map .name := by
  induction names with
  | nil => rfl
  | cons s names ih =>
    rw [List.filterMap_cons, inner?_of_isName (h s List.mem_cons_self),
      ih fun s hs => h s (List.mem_cons_of_mem _ hs)]
    rfl

/-! ## Segments -/

theorem splitOn_absolute_nil : (absolute ([] : List (List α))).splitOn slash = [[], []] := by
  simp [absolute, List.splitOn_cons_eq_if_modifyHead]

theorem splitOn_absolute (h : ∀ s ∈ names, IsName s) (hne : names ≠ []) :
    (absolute names).splitOn slash = [] :: names := by
  rw [absolute, List.splitOn_cons_eq_if_modifyHead, if_pos BEq.rfl,
    List.splitOn_intercalate slash (fun s hs => (h s hs).slash) hne]

theorem components_absolute (h : ∀ s ∈ names, IsName s) :
    components (absolute names) = .root :: names.map .name := by
  rw [components]
  by_cases hne : names = []
  · subst hne
    rw [splitOn_absolute_nil]
    rfl
  · rw [splitOn_absolute h hne]
    dsimp only
    rw [if_neg (absolute_ne_nil names), filterMap_inner? h]

theorem absolute_injective (h : ∀ s ∈ names, IsName s) (h' : ∀ s ∈ names', IsName s)
    (heq : absolute names = absolute names') : names = names' := by
  have hcomponents := congrArg components heq
  rw [components_absolute h, components_absolute h'] at hcomponents
  refine List.map_injective_iff.2 (fun s s' hs => ?_) (List.cons.inj hcomponents).2
  exact Component.name.inj hs

/-- One name more. -/
theorem join_absolute (h : ∀ s ∈ names, IsName s) (s : List α) :
    join (absolute names) s = absolute (names ++ [s]) := by
  rcases List.eq_nil_or_concat names with rfl | ⟨front, last, rfl⟩
  · simp [join, absolute]
  · rw [List.concat_eq_append] at *
    have hlast : IsName last := h last (by simp)
    have hslash : ¬ (absolute (front ++ [last]) = [] ∨
        (absolute (front ++ [last])).getLast? = some slash) := by
      rintro (hnil | hslash)
      · cases hnil
      · exact getLast?_absolute_concat hlast hslash
    have hne : front ++ [last] ≠ [] := by simp
    rw [join, if_neg hslash, absolute_concat hne]

/-! ## Going up -/

theorem dropTrailing_of_isName (h : ∀ s ∈ names, IsName s) : dropTrailing names = names := by
  refine Text.rdropWhile_eq_self fun s hs => ?_
  rw [inner?_of_isName (h s (List.mem_of_getLast? hs))]
  rfl

theorem dropLastComponent?_concat (h : ∀ s ∈ names, IsName s) (hs : IsName s) :
    dropLastComponent? (names ++ [s]) = some names := by
  have hall := isName_concat h hs
  have hkept : dropTrailing (names ++ [s]).dropLast = names := by
    rw [List.dropLast_concat, dropTrailing_of_isName h]
  rw [dropLastComponent?, dropTrailing_of_isName hall]
  cases hcons : names ++ [s] with
  | nil => simp at hcons
  | cons first rest =>
    rw [hcons] at hkept
    exact congrArg some hkept

theorem parent?_absolute_nil : parent? (absolute ([] : List (List α))) = none := by
  rw [parent?, splitOn_absolute_nil]
  rfl

/-- One name less. -/
theorem parent?_absolute (h : ∀ s ∈ names, IsName s) (hs : IsName s) :
    parent? (absolute (names ++ [s])) = some (absolute names) := by
  have hall := isName_concat h hs
  rw [parent?, splitOn_absolute hall (by simp)]
  dsimp only
  rw [if_pos rfl, dropLastComponent?_concat h hs]
  rfl

theorem upward_absolute (h : ∀ s ∈ names, IsName s) (hs : IsName s) (depth : Nat) :
    upward (depth + 1) (absolute (names ++ [s]))
      = absolute (names ++ [s]) :: upward depth (absolute names) := by
  rw [upward, parent?_absolute h hs]

theorem mem_upward_absolute {depth : Nat} {d : List α} (h : ∀ s ∈ names, IsName s)
    (hd : d ∈ upward depth (absolute names)) : ∃ front, front <+: names ∧ d = absolute front := by
  induction depth generalizing names with
  | zero => exact ⟨names, List.prefix_rfl, List.mem_singleton.1 hd⟩
  | succ depth ih =>
    rcases List.eq_nil_or_concat names with rfl | ⟨front, last, rfl⟩
    · rw [upward, parent?_absolute_nil] at hd
      exact ⟨[], List.prefix_rfl, List.mem_singleton.1 hd⟩
    · rw [List.concat_eq_append] at *
      have hfront : ∀ s ∈ front, IsName s := fun s hs => h s (List.mem_append_left _ hs)
      rw [upward_absolute hfront (h last (by simp))] at hd
      rcases List.mem_cons.1 hd with rfl | hd
      · exact ⟨_, List.prefix_rfl, rfl⟩
      · obtain ⟨front', hprefix, rfl⟩ := ih hfront hd
        exact ⟨front', hprefix.trans (List.prefix_append _ _), rfl⟩

theorem upward_prefix {depth depth' : Nat} (h : depth ≤ depth') (path : List α) :
    upward depth path <+: upward depth' path := by
  induction depth generalizing depth' path with
  | zero =>
    cases depth' with
    | zero => exact List.prefix_rfl
    | succ depth' =>
      rw [upward, upward]
      cases parent? path with
      | none => exact List.prefix_rfl
      | some p => exact ⟨_, rfl⟩
  | succ depth ih =>
    obtain ⟨depth', rfl⟩ : ∃ k, depth' = k + 1 := ⟨depth' - 1, by omega⟩
    rw [upward, upward]
    cases parent? path with
    | none => exact List.prefix_rfl
    | some p => exact List.cons_prefix_cons.2 ⟨rfl, ih (by omega) p⟩

end Wiring.Path
