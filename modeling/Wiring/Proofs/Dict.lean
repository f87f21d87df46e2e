import Mathlib.Data.List.Basic
import Wiring.Dict

/-!
# What stands under a key

The documentation of a declaration, the imports of a file and the parameters of a directive are all
read in the same way: every element of a list may write a value under a key, and the values are
written in turn.  So under a key stands what the last element with this key writes
(`get?_ofList_filterMap_eq_some_iff`).

A dictionary is known by what stands under its keys (`eq_of_get?_eq`), since their order is fixed.
-/

namespace Wiring.Dict

variable {α β : Type} {d d' : Dict β} {f : α → Option (String × β)} {l : List α} {a : α}
  {key : String} {value : β}

/-! ## Entries -/

theorem mem_entries_iff : (key, value) ∈ d.entries ↔ d.get? key = some value := by
  rw [get?, List.lookup_eq_some_iff]
  constructor
  · intro h
    obtain ⟨before, after, hsplit⟩ := List.append_of_mem h
    refine ⟨before, after, hsplit, fun e he => ?_⟩
    have hsorted := d.sorted
    rw [hsplit, List.pairwise_append] at hsorted
    have hlt : e.1 < key := hsorted.2.2 e he (key, value) List.mem_cons_self
    rw [bne_iff_ne]
    rintro rfl
    exact String.lt_irrefl _ hlt
  · rintro ⟨before, after, hsplit, -⟩
    rw [hsplit]
    simp

/-- Two dictionaries with the same values under the same keys are equal. -/
theorem eq_of_get?_eq (h : ∀ key, d.get? key = d'.get? key) : d = d' := by
  have hnodup : ∀ d : Dict β, d.entries.Nodup := by
    intro d
    refine d.sorted.imp fun {a b} hlt heq => ?_
    rw [heq] at hlt
    exact String.lt_irrefl _ hlt
  have hperm : d.entries.Perm d'.entries := by
    rw [List.perm_ext_iff_of_nodup (hnodup d) (hnodup d')]
    rintro ⟨key, value⟩
    rw [mem_entries_iff, mem_entries_iff, h]
  have hentries : d.entries = d'.entries := by
    refine hperm.eq_of_pairwise (fun a b _ _ hab hba => ?_) d.sorted d'.sorted
    exact absurd hba (String.lt_asymm hab)
  cases d
  cases d'
  cases hentries
  rfl

/-! ## Values written in turn -/

theorem get?_ofList_append (l m : List (String × β)) :
    (ofList (l ++ m)).get? key = ((ofList m).get? key).or ((ofList l).get? key) := by
  rw [get?_ofList, get?_ofList, get?_ofList, List.reverse_append, List.lookup_append]

/-- What an element writes under a key. -/
def written? (f : α → Option (String × β)) (key : String) (a : α) : Option β :=
  (f a).bind fun e => if e.1 = key then some e.2 else none

theorem written?_eq_some_iff : written? f key a = some value ↔ f a = some (key, value) := by
  rw [written?, Option.bind_eq_some_iff]
  constructor
  · rintro ⟨e, he, hwrites⟩
    obtain ⟨hkey, hvalue⟩ : e.1 = key ∧ e.2 = value := by simpa using hwrites
    rw [he, ← hkey, ← hvalue]
  · intro h
    exact ⟨(key, value), h, if_pos rfl⟩

theorem written?_eq_none_iff : written? f key a = none ↔ ∀ v, f a ≠ some (key, v) := by
  rw [Option.eq_none_iff_forall_ne_some]
  simp only [ne_eq, written?_eq_some_iff]

/-- The last element that writes anything under the key counts. -/
theorem get?_ofList_filterMap (f : α → Option (String × β)) (l : List α) (key : String) :
    (ofList (l.filterMap f)).get? key = l.reverse.findSome? (written? f key) := by
  have hone : ∀ e : String × β, (if key == e.1 then some e.2 else none)
      = if e.1 = key then some e.2 else none := by
    intro e
    by_cases hkey : e.1 = key
    · simp [hkey]
    · rw [if_neg hkey, beq_eq_false_iff_ne.2 (Ne.symm hkey)]
      rfl
  rw [get?_ofList, ← List.filterMap_reverse, List.lookup_eq_findSome?, ← List.head?_filterMap,
    List.filterMap_filterMap, List.head?_filterMap]
  simp only [hone]
  rfl

/-- **Under a key stands what the last element with this key writes.** -/
theorem get?_ofList_filterMap_eq_some_iff :
    (ofList (l.filterMap f)).get? key = some value ↔
      ∃ before a after, l = before ++ a :: after ∧ f a = some (key, value) ∧
        ∀ b ∈ after, ∀ v, f b ≠ some (key, v) := by
  rw [get?_ofList_filterMap, List.findSome?_eq_some_iff]
  simp only [written?_eq_some_iff, written?_eq_none_iff]
  constructor
  · rintro ⟨after, a, before, hsplit, ha, hafter⟩
    refine ⟨before.reverse, a, after.reverse, ?_, ha, by simpa using hafter⟩
    have hreverse := congrArg List.reverse hsplit
    simpa using hreverse
  · rintro ⟨before, a, after, rfl, ha, hafter⟩
    exact ⟨after.reverse, a, before.reverse, by simp, ha, by simpa using hafter⟩

theorem get?_ofList_filterMap_eq_none_iff :
    (ofList (l.filterMap f)).get? key = none ↔ ∀ a ∈ l, ∀ v, f a ≠ some (key, v) := by
  rw [get?_ofList_filterMap, List.findSome?_eq_none_iff]
  simp only [written?_eq_none_iff, List.mem_reverse]

end Wiring.Dict
