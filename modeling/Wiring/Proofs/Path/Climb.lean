import Wiring.Proofs.Path.Components

/-!
# Going up from a path

`climb? k` goes up from a path `k` times.  One time takes away the last component
(`components_parent?`), and it is possible unless none is left or only the root
(`parent?_eq_none_iff`).  So what `climb? k` reaches has all components but the last `k`
(`components_climb?`), and it goes as far as there are components besides the root
(`exists_climb?_iff`).  The paths that `upward` lists are those that are reached in this way, in
order (`getElem?_upward`).
-/

namespace Wiring.Path

variable {α : Type} [Letters α] {path p s : List α} {segments kept : List (List α)} {k depth : Nat}

/-! ## Segments -/

variable [DecidableEq α]

/-- A dot is a segment without a slash too. -/
theorem splitOn_dot_cons (noSlash : ∀ s ∈ segments, slash ∉ s) :
    ([slash].intercalate ([dot] :: segments)).splitOn slash = [dot] :: segments := by
  have hall : ∀ s ∈ [dot] :: segments, slash ∉ s :=
    List.forall_mem_cons.2 ⟨by simpa using Letters.slash_ne_dot, noSlash⟩
  exact List.splitOn_intercalate slash hall (List.cons_ne_nil _ _)

theorem filterMap_dropTrailing (segments : List (List α)) :
    (dropTrailing segments).filterMap inner? = segments.filterMap inner? := by
  have hdropped : (segments.rtakeWhile fun s => (inner? s).isNone).filterMap inner? = [] := by
    refine List.filterMap_eq_nil_iff.2 fun s hs => ?_
    have hnone := List.mem_rtakeWhile_imp hs
    exact Option.isNone_iff_eq_none.1 hnone
  have hsplit : segments = dropTrailing segments ++ segments.rtakeWhile fun s => (inner? s).isNone :=
    List.rdropWhile_append_rtakeWhile.symm
  conv_rhs => rw [hsplit, List.filterMap_append, hdropped, List.append_nil]

theorem dropTrailing_begins (segments : List (List α)) : dropTrailing segments <+: segments :=
  List.rdropWhile_prefix _ _

theorem ne_root_of_inner? {c : Component α} (h : inner? s = some c) : c ≠ .root := by
  rintro rfl
  rw [inner?] at h
  split at h
  · cases h
  · split at h <;> cases h

/-- The last segment that is left is a component. -/
theorem exists_inner?_of_dropTrailing {front : List (List α)}
    (h : dropTrailing segments = front ++ [s]) : ∃ c, inner? s = some c := by
  have hne : segments.rdropWhile (fun s => (inner? s).isNone) ≠ [] := by
    change dropTrailing segments ≠ []
    simp [h]
  have hlast := List.rdropWhile_last_not (fun s => (inner? s).isNone) segments hne
  have hget : (dropTrailing segments).getLast hne = s := by simp [h]
  change ¬ (inner? ((dropTrailing segments).getLast hne)).isNone = true at hlast
  rw [hget, Option.isNone_iff_eq_none] at hlast
  exact Option.ne_none_iff_exists'.1 hlast

/-- One component is dropped, and the segments in front of it are left. -/
theorem of_dropLastComponent? (h : dropLastComponent? segments = some kept) :
    kept <+: segments ∧
      ∃ c, c ≠ .root ∧ segments.filterMap inner? = kept.filterMap inner? ++ [c] := by
  rw [dropLastComponent?] at h
  split at h
  · cases h
  · next hne =>
    obtain rfl := Option.some.inj h
    rcases List.eq_nil_or_concat (dropTrailing segments) with hnil | ⟨front, last, hconcat⟩
    · exact absurd hnil hne
    · rw [List.concat_eq_append] at hconcat
      obtain ⟨c, hc⟩ := exists_inner?_of_dropTrailing hconcat
      have hfront : front <+: segments := by
        refine List.IsPrefix.trans ?_ (dropTrailing_begins segments)
        rw [hconcat]
        exact List.prefix_append _ _
      rw [hconcat, List.dropLast_concat]
      refine ⟨(dropTrailing_begins front).trans hfront, c, ne_root_of_inner? hc, ?_⟩
      rw [← filterMap_dropTrailing segments, hconcat, List.filterMap_append,
        filterMap_dropTrailing front]
      simp [hc]

theorem dropLastComponent?_eq_none_iff :
    dropLastComponent? segments = none ↔ segments.filterMap inner? = [] := by
  rw [← filterMap_dropTrailing, dropLastComponent?]
  rcases List.eq_nil_or_concat (dropTrailing segments) with hnil | ⟨front, last, hconcat⟩
  · rw [hnil]
    simp
  · rw [List.concat_eq_append] at hconcat
    obtain ⟨c, hc⟩ := exists_inner?_of_dropTrailing hconcat
    rw [hconcat]
    constructor
    · intro h
      split at h
      · next hnil => simp at hnil
      · cases h
    · intro h
      simp [hc] at h

/-! ## The parent by the first segment -/

theorem parent?_slash (path : List α) : parent? (slash :: path)
    = (dropLastComponent? (path.splitOn slash)).map
        fun kept => slash :: [slash].intercalate kept := by
  rw [parent?, List.splitOn_cons_eq_if_modifyHead, if_pos BEq.rfl]
  exact if_pos rfl

theorem parent?_here (h : path.splitOn slash = [dot] :: segments) : parent? path
    = match dropLastComponent? segments with
      | none => some []
      | some kept => some ([slash].intercalate ([dot] :: kept)) := by
  rw [parent?, h]
  exact (if_neg (List.cons_ne_nil _ _)).trans (if_pos rfl)

theorem parent?_relative {a : α} {first : List α} (ha : a :: first ≠ [dot])
    (h : path.splitOn slash = (a :: first) :: segments) : parent? path
      = (dropLastComponent? ((a :: first) :: segments)).map [slash].intercalate := by
  rw [parent?, h]
  exact (if_neg (List.cons_ne_nil _ _)).trans (if_neg ha)

/-! ## Paths by their segments -/

/-- A path that is made of segments: behind the root, behind a dot for the directory where paths
start, or by themselves. -/
inductive Spelling : Option (Component α) → List (List α) → List α → Prop
  | root {segments : List (List α)} (noSlash : ∀ s ∈ segments, slash ∉ s) :
      Spelling (some .root) segments (slash :: [slash].intercalate segments)
  | here {segments : List (List α)} (noSlash : ∀ s ∈ segments, slash ∉ s) :
      Spelling (some .here) segments ([slash].intercalate ([dot] :: segments))
  | plain {segments : List (List α)} (noSlash : ∀ s ∈ segments, slash ∉ s)
      (first : ∀ s ∈ segments.head?, s ≠ [] ∧ s ≠ [dot]) :
      Spelling none segments ([slash].intercalate segments)

theorem exists_spelling (path : List α) : ∃ start segments, Spelling start segments path := by
  have hslash : ∀ path : List α, ∀ s ∈ path.splitOn slash, slash ∉ s := fun _ _ hs =>
    Text.notMem_of_mem_splitOn hs
  have hjoin : ∀ path : List α, [slash].intercalate (path.splitOn slash) = path := fun _ =>
    List.intercalate_splitOn slash
  cases path with
  | nil => exact ⟨none, [], .plain (by simp) (by simp)⟩
  | cons a path =>
    by_cases ha : a = slash
    · subst ha
      have hroot := Spelling.root (hslash path)
      rw [hjoin] at hroot
      exact ⟨_, _, hroot⟩
    · obtain ⟨first, rest, hsplit⟩ := splitOn_cons_of_ne ha path
      have hsegments := hslash (a :: path)
      rw [← hjoin (a :: path), hsplit]
      rw [hsplit] at hsegments
      by_cases hhere : a :: first = [dot]
      · rw [hhere] at hsegments ⊢
        exact ⟨_, _, .here fun s hs => hsegments s (List.mem_cons_of_mem _ hs)⟩
      · refine ⟨_, _, .plain hsegments fun s hs => ?_⟩
        obtain rfl := Option.some.inj hs
        exact ⟨List.cons_ne_nil _ _, hhere⟩

namespace Spelling

variable {start : Option (Component α)}

theorem components_eq (h : Spelling start segments path) :
    components path = start.toList ++ segments.filterMap inner? := by
  cases h with
  | root noSlash =>
    rw [components_slash]
    by_cases hne : segments = []
    · subst hne
      rfl
    · rw [List.splitOn_intercalate slash noSlash hne]
      rfl
  | here noSlash =>
    rw [components, splitOn_dot_cons noSlash]
    dsimp only
    rw [ofRelative, if_pos rfl]
    rfl
  | plain noSlash first =>
    cases segments with
    | nil => rfl
    | cons s segments =>
      obtain ⟨hne, hhere⟩ := first s rfl
      obtain ⟨a, s, rfl⟩ := List.exists_cons_of_ne_nil hne
      rw [components, List.splitOn_intercalate slash noSlash (List.cons_ne_nil _ _)]
      dsimp only
      rw [ofRelative, if_neg hhere, List.filterMap_cons]
      cases inner? (a :: s) <;> rfl

/-- The parent is made of the segments that are left. -/
theorem exists_parent? (h : Spelling start segments path)
    (hkept : dropLastComponent? segments = some kept) :
    ∃ p, parent? path = some p ∧ Spelling start kept p := by
  have hfront : kept <+: segments := (of_dropLastComponent? hkept).1
  cases h with
  | root noSlash =>
    have hne : segments ≠ [] := by
      rintro rfl
      cases hkept
    refine ⟨_, ?_, .root fun s hs => noSlash s (hfront.subset hs)⟩
    rw [parent?_slash, List.splitOn_intercalate slash noSlash hne, hkept]
    rfl
  | here noSlash =>
    refine ⟨_, ?_, .here fun s hs => noSlash s (hfront.subset hs)⟩
    rw [parent?_here (splitOn_dot_cons noSlash), hkept]
  | plain noSlash first =>
    refine ⟨_, ?_, .plain (fun s hs => noSlash s (hfront.subset hs)) fun s hs => ?_⟩
    · cases segments with
      | nil => cases hkept
      | cons s segments =>
        obtain ⟨hne, hhere⟩ := first s rfl
        obtain ⟨a, s, rfl⟩ := List.exists_cons_of_ne_nil hne
        rw [parent?_relative hhere (List.splitOn_intercalate slash noSlash (List.cons_ne_nil _ _)),
          hkept]
        rfl
    · obtain ⟨rest, rfl⟩ := hfront
      exact first s (by rw [List.head?_append, hs]; rfl)

/-- Where no component is among the segments, only the dot can be taken away. -/
theorem parent?_of_none (h : Spelling start segments path)
    (hnone : dropLastComponent? segments = none) :
    parent? path = if start = some .here then some [] else none := by
  cases h with
  | root noSlash =>
    rw [parent?_slash, if_neg (by simp)]
    by_cases hne : segments = []
    · subst hne
      rfl
    · rw [List.splitOn_intercalate slash noSlash hne, hnone]
      rfl
  | here noSlash =>
    rw [parent?_here (splitOn_dot_cons noSlash), hnone, if_pos rfl]
  | plain noSlash first =>
    rw [if_neg (by simp)]
    cases segments with
    | nil => rfl
    | cons s segments =>
      obtain ⟨hne, hhere⟩ := first s rfl
      obtain ⟨a, s, rfl⟩ := List.exists_cons_of_ne_nil hne
      rw [parent?_relative hhere (List.splitOn_intercalate slash noSlash (List.cons_ne_nil _ _)),
        hnone]
      rfl

end Spelling

/-! ## Once -/

/-- **The parent of a path has its components but the last.** -/
theorem components_parent? (h : parent? path = some p) :
    ∃ c, c ≠ .root ∧ components path = components p ++ [c] := by
  obtain ⟨start, segments, hpath⟩ := exists_spelling path
  rw [hpath.components_eq]
  cases hkept : dropLastComponent? segments with
  | none =>
    rw [hpath.parent?_of_none hkept] at h
    split at h
    · next hhere =>
      obtain rfl := Option.some.inj h
      rw [dropLastComponent?_eq_none_iff.1 hkept, hhere]
      exact ⟨.here, by simp, rfl⟩
    · cases h
  | some kept =>
    obtain ⟨p', hp', hspelling⟩ := hpath.exists_parent? hkept
    obtain rfl : p' = p := Option.some.inj (hp'.symm.trans h)
    obtain ⟨-, c, hroot, hc⟩ := of_dropLastComponent? hkept
    exact ⟨c, hroot, by rw [hspelling.components_eq, hc, List.append_assoc]⟩

/-- **Only the root and the empty path have no parent.** -/
theorem parent?_eq_none_iff :
    parent? path = none ↔ components path = [] ∨ components path = [.root] := by
  obtain ⟨start, segments, hpath⟩ := exists_spelling path
  rw [hpath.components_eq]
  cases hkept : dropLastComponent? segments with
  | none =>
    rw [hpath.parent?_of_none hkept, dropLastComponent?_eq_none_iff.1 hkept]
    cases hpath <;> simp
  | some kept =>
    obtain ⟨p, hp, -⟩ := hpath.exists_parent? hkept
    obtain ⟨-, c, hroot, hc⟩ := of_dropLastComponent? hkept
    rw [hp, hc, ← List.append_assoc]
    constructor
    · intro h
      cases h
    · rintro (h | h)
      · simp at h
      · have hlast := congrArg List.getLast? h
        simp [hroot] at hlast

/-! ## Several times -/

/-- The path that is reached by going up so many times. -/
def climb? : Nat → List α → Option (List α)
  | 0, path => some path
  | k + 1, path => (parent? path).bind (climb? k)

/-- **Going up `k` times takes away the last `k` components**, and never the root. -/
theorem components_climb? (h : climb? k path = some p) :
    ∃ last, last.length = k ∧ .root ∉ last ∧ components path = components p ++ last := by
  induction k generalizing path with
  | zero =>
    obtain rfl := Option.some.inj h
    exact ⟨[], rfl, List.not_mem_nil, (List.append_nil _).symm⟩
  | succ k ih =>
    obtain ⟨q, hq, hp⟩ := Option.bind_eq_some_iff.1 h
    obtain ⟨c, hc, hpath⟩ := components_parent? hq
    obtain ⟨last, hlength, hroot, hq⟩ := ih hp
    refine ⟨last ++ [c], by simp [hlength], ?_, by rw [hpath, hq, List.append_assoc]⟩
    intro hmem
    rcases List.mem_append.1 hmem with hmem | hmem
    · exact hroot hmem
    · exact hc (List.mem_singleton.1 hmem).symm

def height (path : List α) : Nat :=
  ((components path).filter (· ≠ .root)).length

/-- **One can go up as often as there are components besides the root.** -/
theorem exists_climb?_iff : (∃ p, climb? k path = some p) ↔ k ≤ height path := by
  induction k generalizing path with
  | zero => exact ⟨fun _ => Nat.zero_le _, fun _ => ⟨path, rfl⟩⟩
  | succ k ih =>
    cases hparent : parent? path with
    | none =>
      have hzero : height path = 0 := by
        rcases parent?_eq_none_iff.1 hparent with h | h <;> rw [height, h] <;> rfl
      simp [climb?, hparent, hzero]
    | some p =>
      obtain ⟨c, hc, hpath⟩ := components_parent? hparent
      have hsucc : height path = height p + 1 := by
        rw [height, hpath, List.filter_append, List.length_append, height]
        simp [hc]
      rw [hsucc, Nat.add_le_add_iff_right, ← ih]
      simp [climb?, hparent]

theorem getElem?_upward (depth : Nat) (path : List α) (k : Nat) :
    (upward depth path)[k]? = if k ≤ depth then climb? k path else none := by
  induction depth generalizing path k with
  | zero =>
    cases k with
    | zero => rfl
    | succ k => rfl
  | succ depth ih =>
    rw [upward]
    cases hparent : parent? path with
    | none =>
      cases k with
      | zero => rfl
      | succ k => simp [climb?, hparent]
    | some p =>
      cases k with
      | zero => rfl
      | succ k => simp [climb?, hparent, ih]

end Wiring.Path
