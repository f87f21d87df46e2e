import Mathlib.Data.List.Find
import Mathlib.Data.List.Induction
import Mathlib.Data.List.Nodup

/-!
# First occurrences

`eraseDupsBy` keeps the first value of every key, in order: what is kept is what a search for its
key finds (`mem_eraseDupsBy_iff`).  `eraseDups` keeps the first occurrence of every value.  Lists
can be joined before or after this is done (`eraseDups_append_left`), so a list of first occurrences
can be built up part by part.
-/

namespace Wiring

/-! ## The first value of a key -/

section

variable {α β : Type} [BEq β] {key : α → β}

theorem eraseDupsBy_sublist (l : List α) :
    (l.eraseDupsBy fun a b => key a == key b).Sublist l := by
  induction hn : l.length using Nat.strongRecOn generalizing l with
  | ind n ih =>
    cases l with
    | nil => exact List.Sublist.refl _
    | cons a l =>
      rw [List.eraseDupsBy_cons]
      refine ((ih _ ?_ _ rfl).trans List.filter_sublist).cons_cons a
      rw [← hn]
      exact Nat.lt_succ_of_le (List.length_filter_le _ _)

variable [LawfulBEq β]

/-- **What is kept is what a search for its key finds.** -/
theorem mem_eraseDupsBy_iff {l : List α} {e : α} :
    e ∈ (l.eraseDupsBy fun a b => key a == key b) ↔ l.find? (key · == key e) = some e := by
  induction hn : l.length using Nat.strongRecOn generalizing l with
  | ind n ih =>
    cases l with
    | nil => simp
    | cons a l =>
      have hlt : (l.filter fun b => (key b == key a) = false).length < n := by
        rw [← hn]
        exact Nat.lt_succ_of_le (List.length_filter_le _ _)
      rw [List.eraseDupsBy_cons, List.mem_cons, List.find?_cons]
      by_cases h : key a = key e
      · -- the values after `a` that are kept have other keys
        have hnot : e ∉ (l.filter fun b => (key b == key a) = false).eraseDupsBy
            fun a b => key a == key b := by
          intro he
          have hkey := (List.mem_filter.1 ((eraseDupsBy_sublist _).subset he)).2
          simp [h] at hkey
        rw [or_iff_left hnot, beq_iff_eq.2 h, Option.some.injEq, eq_comm]
      · have hne : e ≠ a := fun he => h (he ▸ rfl)
        have hfind : (l.filter fun b => (key b == key a) = false).find? (key · == key e)
            = l.find? (key · == key e) := by
          rw [List.find?_filter]
          apply List.find?_congr
          intro b _
          by_cases hb : key b = key e
          · simp [hb, Ne.symm h]
          · simp [hb]
        rw [ih _ hlt rfl, hfind, beq_eq_false_iff_ne.2 h]
        simp [hne]

theorem eraseDupsBy_of_nodup {l : List α} (h : (l.map key).Nodup) :
    (l.eraseDupsBy fun a b => key a == key b) = l := by
  induction l with
  | nil => rfl
  | cons a l ih =>
    obtain ⟨ha, hl⟩ := List.nodup_cons.1 h
    have hrest : (l.filter fun b => (key b == key a) = false) = l := by
      rw [List.filter_eq_self]
      intro b hb
      have hne : key b ≠ key a := fun he => ha (he ▸ List.mem_map_of_mem hb)
      simp [hne]
    rw [List.eraseDupsBy_cons, hrest, ih hl]

/-- Where no key occurs twice, a search for a key finds whatever has it. -/
theorem find?_eq_some_iff_of_nodup {l : List α} (h : (l.map key).Nodup) {k : β} {e : α} :
    l.find? (key · == k) = some e ↔ e ∈ l ∧ key e = k := by
  constructor
  · intro he
    have hkey := List.find?_some he
    exact ⟨List.mem_of_find?_eq_some he, beq_iff_eq.1 hkey⟩
  · rintro ⟨he, rfl⟩
    rw [← mem_eraseDupsBy_iff, eraseDupsBy_of_nodup h]
    exact he

theorem find?_perm {l m : List α} (hperm : l.Perm m) (h : (l.map key).Nodup) (k : β) :
    l.find? (key · == k) = m.find? (key · == k) := by
  have hm : (m.map key).Nodup := (hperm.map key).nodup_iff.1 h
  apply Option.ext
  intro e
  rw [find?_eq_some_iff_of_nodup h, find?_eq_some_iff_of_nodup hm, hperm.mem_iff]

end

/-! ## The first occurrence of a value -/

section

variable {α : Type} [BEq α] [LawfulBEq α] {l m : List α}

theorem eraseDups_of_nodup (h : l.Nodup) : l.eraseDups = l :=
  @eraseDupsBy_of_nodup α α _ id _ l (l.map_id.symm ▸ h)

theorem eraseDups_append_of_subset (hl : l.Nodup) (h : m ⊆ l) : (l ++ m).eraseDups = l := by
  have hnone : m.removeAll l = [] := by
    rw [List.removeAll, List.filter_eq_nil_iff]
    intro a ha
    simp [h ha]
  rw [List.eraseDups_append, hnone, eraseDups_of_nodup hl, List.eraseDups_nil, List.append_nil]

/-- A value is added to a list without repetitions unless it is there. -/
theorem eraseDups_append_singleton (l : List α) (a : α) [Decidable (a ∈ l.eraseDups)] :
    (l ++ [a]).eraseDups = if a ∈ l.eraseDups then l.eraseDups else l.eraseDups ++ [a] := by
  rw [List.eraseDups_append]
  by_cases h : a ∈ l <;> simp [List.removeAll, List.eraseDups_cons, h]

theorem nodup_eraseDups (l : List α) : l.eraseDups.Nodup := by
  classical
  induction l using List.reverseRecOn with
  | nil => exact List.nodup_nil
  | append_singleton l a ih =>
    rw [eraseDups_append_singleton]
    by_cases h : a ∈ l.eraseDups
    · rw [if_pos h]
      exact ih
    · rw [if_neg h]
      refine List.nodup_append.2 ⟨ih, List.nodup_singleton a, fun b hb b' hb' he => ?_⟩
      exact h (List.mem_singleton.1 hb' ▸ he ▸ hb)

theorem eraseDups_append_left (l m : List α) :
    (l.eraseDups ++ m).eraseDups = (l ++ m).eraseDups := by
  have hrest : m.removeAll l.eraseDups = m.removeAll l := by
    simp only [List.removeAll, List.elem_eq_contains]
    apply List.filter_congr
    intro a _
    by_cases h : a ∈ l <;> simp [h]
  rw [List.eraseDups_append, List.eraseDups_append, hrest, eraseDups_of_nodup (nodup_eraseDups l)]

/-- What is kept stands in the order of the first occurrences. -/
theorem pairwise_idxOf_eraseDups (l : List α) :
    l.eraseDups.Pairwise fun a b => l.idxOf a < l.idxOf b := by
  classical
  induction l using List.reverseRecOn with
  | nil => exact List.Pairwise.nil
  | append_singleton l a ih =>
    have hleft : ∀ b ∈ l.eraseDups, (l ++ [a]).idxOf b = l.idxOf b := fun b hb =>
      List.idxOf_append_of_mem (List.mem_eraseDups.1 hb)
    have hrest : l.eraseDups.Pairwise fun b c => (l ++ [a]).idxOf b < (l ++ [a]).idxOf c := by
      refine ih.imp_of_mem fun hb hc h => ?_
      rwa [hleft _ hb, hleft _ hc]
    rw [eraseDups_append_singleton]
    by_cases h : a ∈ l.eraseDups
    · rwa [if_pos h]
    · rw [if_neg h]
      refine List.pairwise_append.2 ⟨hrest, List.pairwise_singleton _ _, fun b hb c hc => ?_⟩
      rw [List.mem_singleton.1 hc, hleft b hb,
        List.idxOf_append_of_notMem fun ha => h (List.mem_eraseDups.2 ha)]
      exact Nat.lt_add_right _ (List.idxOf_lt_length_of_mem (List.mem_eraseDups.1 hb))

theorem eraseDups_perm (h : l.Perm m) : l.eraseDups.Perm m.eraseDups := by
  rw [List.perm_ext_iff_of_nodup (nodup_eraseDups l) (nodup_eraseDups m)]
  intro a
  rw [List.mem_eraseDups, List.mem_eraseDups, h.mem_iff]

end

end Wiring
