import Wiring.Proofs.Path

/-!
# Components of a path

A path from the root is told by the segments behind its first slash (`components_slash`), any other
by all of its segments (`components_relative`).  Either way a component that is a name comes from a
segment, so it has no slash in it and is none of the special segments (`isName_of_mem_components`).
This is why components can be told from the text in which each of them stands behind a slash
(`written_injective`): a component ends where the next slash is, and only the root is a slash
itself.
-/

namespace Wiring.Path

variable {α : Type} [Letters α] {path s : List α} {segments : List (List α)} {c c' : Component α}
  {cs cs' : List (Component α)}

/-! ## Components as they are written -/

/-- Components as a text, each behind a slash. -/
def written (cs : List (Component α)) : List α :=
  cs.flatMap fun c => slash :: c.text

theorem head?_written (cs : List (Component α)) : ∀ a ∈ (written cs).head?, a = slash := by
  intro a ha
  cases cs with
  | nil => cases ha
  | cons c cs => exact (Option.some.inj ha).symm

namespace Component

/-- A component that is a name can be the name of an entry of a directory. -/
def Legal (c : Component α) : Prop :=
  ∀ s, c = .name s → IsName s

theorem Legal.slash_notMem (hc : c.Legal) (hroot : c ≠ .root) : slash ∉ c.text := by
  cases c with
  | root => exact absurd rfl hroot
  | here => simpa [text] using Letters.slash_ne_dot
  | up => simpa [text] using Letters.slash_ne_dot
  | name s => exact (hc s rfl).slash

theorem Legal.text_ne_nil (hc : c.Legal) : c.text ≠ [] := by
  cases c with
  | name s => exact (hc s rfl).ne_nil
  | _ => exact List.cons_ne_nil _ _

/-- Only the root begins with a slash. -/
theorem Legal.head?_text_iff (hc : c.Legal) (rest : List α) :
    (c.text ++ rest).head? = some slash ↔ c = .root := by
  constructor
  · intro h
    rw [List.head?_append_of_ne_nil _ hc.text_ne_nil] at h
    by_contra hroot
    exact hc.slash_notMem hroot (List.mem_of_head? h)
  · rintro rfl
    rfl

end Component

variable [DecidableEq α]

namespace Component

def ofText (s : List α) : Component α :=
  if s = [slash] then .root else if s = [dot] then .here else if s = [dot, dot] then .up else .name s

theorem Legal.ofText_text (hc : c.Legal) : ofText c.text = c := by
  cases c with
  | name s =>
    have hs : IsName s := hc s rfl
    have hslash : s ≠ [slash] := by
      rintro rfl
      exact hs.slash (List.mem_singleton_self _)
    rw [text, ofText, if_neg hslash, if_neg hs.ne_here, if_neg hs.ne_up]
  | _ => simp [text, ofText, Letters.slash_ne_dot.symm]

/-- A component can be cut off from what follows, if that begins with a slash. -/
theorem Legal.append_inj (hc : c.Legal) (hc' : c'.Legal) {rest rest' : List α}
    (hrest : ∀ a ∈ rest.head?, a = slash) (hrest' : ∀ a ∈ rest'.head?, a = slash)
    (h : c.text ++ rest = c'.text ++ rest') : c = c' ∧ rest = rest' := by
  by_cases hroot : c = .root
  · have hroot' : c' = .root := by
      rw [← hc'.head?_text_iff rest', ← h]
      exact (hc.head?_text_iff rest).2 hroot
    rw [hroot, hroot'] at h
    exact ⟨hroot.trans hroot'.symm, (List.cons.inj h).2⟩
  · have hroot' : c' ≠ .root := by
      rwa [Ne, ← hc'.head?_text_iff rest', ← h, hc.head?_text_iff rest]
    have htext : ∀ {c : Component α}, c.Legal → c ≠ .root → ∀ a ∈ c.text, (a != slash) = true := by
      intro c hc hroot a ha
      rw [bne_iff_ne]
      rintro rfl
      exact hc.slash_notMem hroot ha
    have hnext : ∀ {rest : List α}, (∀ a ∈ rest.head?, a = slash) →
        ∀ a ∈ rest.head?, (a != slash) = false := by
      intro rest hrest a ha
      rw [hrest a ha]
      exact bne_self_eq_false _
    have hfirst := congrArg (List.takeWhile (· != slash)) h
    rw [Text.takeWhile_append_eq_left (htext hc hroot) (hnext hrest),
      Text.takeWhile_append_eq_left (htext hc' hroot') (hnext hrest')] at hfirst
    rw [hfirst, List.append_cancel_left_eq] at h
    exact ⟨by rw [← hc.ofText_text, hfirst, hc'.ofText_text], h⟩

end Component

/-! ## Components of a path -/

theorem components_slash (path : List α) :
    components (slash :: path) = .root :: (path.splitOn slash).filterMap inner? := by
  have hne : slash :: path ≠ [] := List.cons_ne_nil _ _
  rw [components, List.splitOn_cons_eq_if_modifyHead, if_pos BEq.rfl]
  dsimp only
  rw [if_neg hne]

/-- The first segment of a path that does not begin with a slash begins as the path does. -/
theorem splitOn_cons_of_ne {a : α} (ha : a ≠ slash) (path : List α) :
    ∃ first rest, (a :: path).splitOn slash = (a :: first) :: rest := by
  have hslash : ¬ (a == slash) = true := by simpa using ha
  cases hsplit : path.splitOn slash with
  | nil => exact absurd hsplit (List.splitOn_ne_nil slash path)
  | cons first rest =>
    refine ⟨first, rest, ?_⟩
    rw [List.splitOn_cons_eq_if_modifyHead, if_neg hslash, hsplit, List.modifyHead_cons]

theorem components_relative {a : α} (ha : a ≠ slash) (path : List α) :
    components (a :: path) = ofRelative ((a :: path).splitOn slash) := by
  obtain ⟨first, rest, hsplit⟩ := splitOn_cons_of_ne ha path
  rw [components, hsplit]

theorem isName_of_inner? (hslash : slash ∉ s) {name : List α} (h : inner? s = some (.name name)) :
    IsName name := by
  rw [inner?] at h
  split at h
  · cases h
  · next hmatters =>
    split at h
    · cases h
    · next hup =>
      cases h
      exact ⟨fun hnil => hmatters (.inl hnil), fun hhere => hmatters (.inr hhere), hup, hslash⟩

theorem isName_of_mem_filterMap (hslash : ∀ s ∈ segments, slash ∉ s)
    (h : .name s ∈ segments.filterMap inner?) : IsName s := by
  obtain ⟨segment, hmem, hinner⟩ := List.mem_filterMap.1 h
  exact isName_of_inner? (hslash segment hmem) hinner

theorem isName_of_mem_ofRelative (hslash : ∀ s ∈ segments, slash ∉ s)
    (h : .name s ∈ ofRelative segments) : IsName s := by
  cases segments with
  | nil => cases h
  | cons first rest =>
    rw [ofRelative] at h
    rcases List.mem_append.1 h with h | h
    · split at h
      · cases List.mem_singleton.1 h
      · exact isName_of_inner? (hslash first List.mem_cons_self) (Option.mem_toList.1 h)
    · exact isName_of_mem_filterMap (fun s hs => hslash s (List.mem_cons_of_mem _ hs)) h

/-- **A component that is a name can be the name of an entry of a directory.** -/
theorem isName_of_mem_components (h : .name s ∈ components path) : IsName s := by
  have hslash : ∀ path : List α, ∀ s ∈ path.splitOn slash, slash ∉ s := fun _ _ hs =>
    Text.notMem_of_mem_splitOn hs
  cases path with
  | nil => cases h
  | cons a path =>
    by_cases ha : a = slash
    · subst ha
      rw [components_slash] at h
      rcases List.mem_cons.1 h with hroot | h
      · cases hroot
      · exact isName_of_mem_filterMap (hslash path) h
    · rw [components_relative ha] at h
      exact isName_of_mem_ofRelative (hslash (a :: path)) h

theorem legal_of_mem_components (h : c ∈ components path) : c.Legal := by
  rintro s rfl
  exact isName_of_mem_components h

/-- **Components can be told from the text in which each stands behind a slash.** -/
theorem written_injective (hcs : ∀ c ∈ cs, c.Legal) (hcs' : ∀ c ∈ cs', c.Legal)
    (h : written cs = written cs') : cs = cs' := by
  induction cs generalizing cs' with
  | nil =>
    cases cs' with
    | nil => rfl
    | cons c' cs' => cases h
  | cons c cs ih =>
    cases cs' with
    | nil => cases h
    | cons c' cs' =>
      rw [List.forall_mem_cons] at hcs hcs'
      have htext : c.text ++ written cs = c'.text ++ written cs' := (List.cons.inj h).2
      obtain ⟨rfl, hrest⟩ :=
        hcs.1.append_inj hcs'.1 (head?_written cs) (head?_written cs') htext
      rw [ih hcs.2 hcs'.2 hrest]

end Wiring.Path
