import Wiring.KeyedSet
import Wiring.Proofs.FirstOccurrence

/-!
# What is stored in a keyed set

Storing several values in a row (`insertAll`) puts those with new keys at the end, the first of
equal keys kept (`keys_insertAll`); looking up a key finds what was there before and then the first
value stored under it (`get?_insertAll`).  Two sets with the same entries in different orders find
the same values (`get?_perm`), and if the keys of what is stored are distinct, the order of storing
shows in the order of the entries only (`perm_insertAll`).  If equal keys come with equal values, the
set holds the values at their first occurrences (`items_ofList`).
-/

namespace Wiring

namespace KeyedSet

variable {α : Type} {s s' : KeyedSet α} {key n : String} {value v : α}

theorem ext_entries (h : s.entries = s'.entries) : s = s' := by
  cases s
  cases s'
  cases h
  rfl

theorem nodup_keys (s : KeyedSet α) : s.keys.Nodup :=
  s.nodup

theorem mem_keys_iff : n ∈ s.keys ↔ (s.get? n).isSome := by
  rw [Option.isSome_iff_ne_none, Ne, get?_eq_none_iff, not_not]

/-- Distinct keys let every entry be found. -/
theorem get?_eq_some_iff : s.get? n = some v ↔ (n, v) ∈ s.entries := by
  rw [get?, List.lookup_eq_some_iff]
  constructor
  · rintro ⟨pre, post, h, -⟩
    simp [h]
  · intro h
    obtain ⟨pre, post, hsplit⟩ := List.append_of_mem h
    refine ⟨pre, post, hsplit, fun e he => ?_⟩
    have hnd := s.nodup
    rw [hsplit, List.map_append, List.nodup_append] at hnd
    have hne : e.1 ≠ n := hnd.2.2 e.1 (List.mem_map_of_mem he) n (by simp)
    exact bne_iff_ne.2 hne.symm

theorem get?_perm (h : s.entries.Perm s'.entries) (n : String) : s.get? n = s'.get? n := by
  refine Option.ext fun v => ?_
  rw [get?_eq_some_iff, get?_eq_some_iff, h.mem_iff]

/-- Values that name their own keys are listed under them. -/
theorem map_items_eq_keys {f : α → String} (h : ∀ n v, s.get? n = some v → f v = n) :
    s.items.map f = s.keys := by
  rw [items, List.map_map, keys]
  exact List.map_congr_left fun e he => h e.1 e.2 (get?_eq_some_iff.2 he)

theorem get?_eq_some_iff_mem_items {f : α → String} (h : ∀ n v, s.get? n = some v → f v = n) :
    s.get? n = some v ↔ v ∈ s.items ∧ f v = n := by
  constructor
  · exact fun hv => ⟨List.mem_map_of_mem (get?_eq_some_iff.1 hv), h n v hv⟩
  · rintro ⟨hv, rfl⟩
    obtain ⟨⟨k, v⟩, he, rfl⟩ := List.mem_map.1 hv
    have hget := get?_eq_some_iff.2 he
    rwa [h k v hget]

theorem lookup_map {β : Type} (k : β → String) (g : β → α) (l : List β) (n : String) :
    (l.map fun b => (k b, g b)).lookup n = (l.find? (k · == n)).map g := by
  induction l with
  | nil => rfl
  | cons b l ih =>
    rw [List.map_cons, List.lookup_cons, List.find?_cons, ih, BEq.comm]
    cases k b == n <;> rfl

/-! ## Storing one value -/

theorem keys_insert_of_notMem (h : key ∉ s.keys) : (s.insert key value).keys = s.keys ++ [key] := by
  rw [keys, entries_insert_of_notMem h, List.map_append, keys]
  rfl

theorem keys_insert : (s.insert key value).keys = (s.keys ++ [key]).eraseDups := by
  by_cases h : key ∈ s.keys
  · have hsub : [key] ⊆ s.keys := by simpa using h
    rw [insert_of_mem h, eraseDups_append_of_subset s.nodup_keys hsub]
  · have hkeys : (s.insert key value).keys = s.keys ++ [key] := keys_insert_of_notMem h
    rw [← hkeys, eraseDups_of_nodup (nodup_keys _)]

theorem get?_insert : (s.insert key value).get? n
    = (s.get? n).or (if n = key then some value else none) := by
  by_cases h : key ∈ s.keys
  · rw [insert_of_mem h]
    split
    · next he =>
      obtain ⟨w, hw⟩ := Option.isSome_iff_exists.1 (mem_keys_iff.1 (he ▸ h))
      rw [hw, Option.some_or]
    · rw [Option.or_none]
  · rw [get?, entries_insert_of_notMem h, List.lookup_append, get?]
    congr 1
    by_cases he : n = key
    · simp [he]
    · rw [List.lookup_cons, beq_eq_false_iff_ne.2 he, if_neg he]
      rfl

theorem entries_prefix_insert : s.entries <+: (s.insert key value).entries := by
  by_cases h : key ∈ s.keys
  · exact (insert_of_mem h value).symm ▸ List.prefix_refl _
  · rw [entries_insert_of_notMem h]
    exact List.prefix_append _ _

theorem keys_modify (f : α → α) : (s.modify key f).keys = s.keys := by
  simp only [keys, modify, List.map_map]
  refine List.map_congr_left fun e _ => ?_
  by_cases he : e.1 = key <;> simp [he]

theorem get?_modify (f : α → α) : (s.modify key f).get? n
    = if n = key then (s.get? n).map f else s.get? n := by
  simp only [get?, modify]
  induction s.entries with
  | nil => simp
  | cons e rest ih =>
    obtain ⟨k, w⟩ := e
    rw [List.map_cons]
    by_cases hk : k = key
    · subst hk
      by_cases hn : n = k
      · simp [hn]
      · rw [if_pos rfl, List.lookup_cons, List.lookup_cons, beq_eq_false_iff_ne.2 hn, ih]
    · rw [if_neg hk]
      by_cases hn : n = k
      · subst hn
        rw [List.lookup_cons_self, List.lookup_cons_self, if_neg hk]
      · rw [List.lookup_cons, List.lookup_cons, beq_eq_false_iff_ne.2 hn, ih]

theorem keys_insert_subset : s.keys ⊆ (s.insert key value).keys := by
  intro n hn
  obtain ⟨w, hw⟩ := Option.isSome_iff_exists.1 (mem_keys_iff.1 hn)
  rw [mem_keys_iff, get?_insert, hw]
  rfl

theorem mem_keys_insert_self : key ∈ (s.insert key value).keys := by
  rw [mem_keys_iff, get?_insert, if_pos rfl]
  cases s.get? key <;> rfl

/-! ## Storing several values -/

def insertAll (s : KeyedSet α) (l : List (String × α)) : KeyedSet α :=
  l.foldl (fun s e => s.insert e.1 e.2) s

@[simp] theorem insertAll_nil : s.insertAll [] = s := rfl

@[simp] theorem insertAll_cons (e : String × α) (l : List (String × α)) :
    s.insertAll (e :: l) = (s.insert e.1 e.2).insertAll l := rfl

theorem insertAll_append (l m : List (String × α)) :
    s.insertAll (l ++ m) = (s.insertAll l).insertAll m :=
  List.foldl_append

theorem get?_insertAll (l : List (String × α)) :
    (s.insertAll l).get? n = (s.get? n).or (l.lookup n) := by
  induction l generalizing s with
  | nil => simp
  | cons e l ih =>
    obtain ⟨k, w⟩ := e
    rw [insertAll_cons, ih, get?_insert, Option.or_assoc, List.lookup_cons]
    by_cases hn : n = k
    · simp [hn]
    · rw [beq_eq_false_iff_ne.2 hn, if_neg hn, Option.none_or]

/-- **The keys are those that were there and then those of what is stored**, each at its first
occurrence. -/
theorem keys_insertAll (l : List (String × α)) :
    (s.insertAll l).keys = (s.keys ++ l.map Prod.fst).eraseDups := by
  induction l generalizing s with
  | nil => rw [insertAll_nil, List.map_nil, List.append_nil, eraseDups_of_nodup s.nodup_keys]
  | cons e l ih =>
    rw [insertAll_cons, ih, keys_insert, eraseDups_append_left, List.append_assoc,
      List.singleton_append, List.map_cons]

theorem entries_prefix_insertAll (l : List (String × α)) :
    s.entries <+: (s.insertAll l).entries := by
  induction l generalizing s with
  | nil => exact List.prefix_refl _
  | cons e l ih => exact entries_prefix_insert.trans ih

/-- Values stored under keys that are there already change nothing. -/
theorem insertAll_of_subset {l : List (String × α)} (h : ∀ e ∈ l, e.1 ∈ s.keys) :
    s.insertAll l = s := by
  induction l with
  | nil => rfl
  | cons e l ih =>
    rw [insertAll_cons, insert_of_mem (h e (by simp))]
    exact ih fun e' he' => h e' (List.mem_cons_of_mem _ he')

/-- Values under distinct keys are added as far as their keys are new. -/
theorem entries_insertAll_of_nodup {l : List (String × α)} (h : (l.map Prod.fst).Nodup) :
    (s.insertAll l).entries = s.entries ++ l.filter (·.1 ∉ s.keys) := by
  induction l generalizing s with
  | nil => simp
  | cons e l ih =>
    rw [List.map_cons, List.nodup_cons] at h
    rw [insertAll_cons, ih h.2]
    by_cases he : e.1 ∈ s.keys
    · rw [insert_of_mem he, List.filter_cons_of_neg (by simpa using he)]
    · rw [entries_insert_of_notMem he, List.filter_cons_of_pos (by simpa using he),
        List.append_assoc, List.singleton_append]
      congr 2
      refine List.filter_congr fun e' he' => ?_
      have hne : e'.1 ≠ e.1 := fun hee => h.1 (hee ▸ List.mem_map_of_mem he')
      simp only [keys_insert_of_notMem he, List.mem_append, List.mem_singleton, hne, or_false]

theorem perm_insertAll {l m : List (String × α)} (hs : s.entries.Perm s'.entries) (h : l.Perm m)
    (hnd : (l.map Prod.fst).Nodup) : (s.insertAll l).entries.Perm (s'.insertAll m).entries := by
  rw [entries_insertAll_of_nodup hnd, entries_insertAll_of_nodup ((h.map _).nodup_iff.1 hnd)]
  have hkeys : ∀ k, k ∈ s.keys ↔ k ∈ s'.keys := fun k => (hs.map Prod.fst).mem_iff
  simp only [hkeys]
  exact hs.append (h.filter _)

/-! ## Values that are listed by their keys -/

variable {f : α → String} {xs : List α}

theorem ofList_eq (f : α → String) (xs : List α) :
    ofList f xs = empty.insertAll (xs.map fun x => (f x, x)) := by
  rw [ofList, insertAll, List.foldl_map]

theorem get?_ofList : (ofList f xs).get? n = xs.find? (f · == n) := by
  have hlookup : (xs.map fun x => (f x, x)).lookup n = (xs.find? (f · == n)).map id :=
    lookup_map f id xs n
  rw [ofList_eq, get?_insertAll, hlookup, Option.map_id]
  rfl

theorem key_of_get?_ofList (n : String) (v : α) (h : (ofList f xs).get? n = some v) : f v = n := by
  rw [get?_ofList] at h
  simpa using List.find?_some h

theorem nodup_items_ofList : ((ofList f xs).items.map f).Nodup := by
  rw [map_items_eq_keys key_of_get?_ofList]
  exact nodup_keys _

/-- Where a key tells the value, no value is lost. -/
theorem mem_items_ofList_iff (hf : ∀ x ∈ xs, ∀ y ∈ xs, f x = f y → x = y) :
    v ∈ (ofList f xs).items ↔ v ∈ xs := by
  have hitems : v ∈ (ofList f xs).items ↔ xs.find? (f · == f v) = some v := by
    rw [← get?_ofList, get?_eq_some_iff_mem_items key_of_get?_ofList]
    simp
  rw [hitems]
  constructor
  · exact List.mem_of_find?_eq_some
  · intro hv
    have hfound : (xs.find? (f · == f v)).isSome := List.find?_isSome.2 ⟨v, hv, by simp⟩
    obtain ⟨w, hw⟩ := Option.isSome_iff_exists.1 hfound
    have hkey : f w = f v := by simpa using List.find?_some hw
    rw [hw, hf w (List.mem_of_find?_eq_some hw) v hv hkey]

theorem items_insert_of_notMem (h : key ∉ s.keys) :
    (s.insert key value).items = s.items ++ [value] := by
  rw [items, entries_insert_of_notMem h, List.map_append, items]
  rfl

theorem mem_keys_ofList_iff : n ∈ (ofList f xs).keys ↔ ∃ x ∈ xs, f x = n := by
  rw [mem_keys_iff, get?_ofList, List.find?_isSome]
  simp only [beq_iff_eq]

/-- Where a key tells the value, the values are the first occurrences. -/
theorem items_ofList [DecidableEq α] (hf : ∀ x ∈ xs, ∀ y ∈ xs, f x = f y → x = y) :
    (ofList f xs).items = xs.eraseDups := by
  induction xs using List.reverseRecOn with
  | nil => rfl
  | append_singleton xs x ih =>
    have hprevious : (ofList f xs).items = xs.eraseDups := by
      apply ih
      intro y hy z hz
      exact hf y (List.mem_append_left _ hy) z (List.mem_append_left _ hz)
    have hlast : ofList f (xs ++ [x]) = (ofList f xs).insert (f x) x := by
      rw [ofList, List.foldl_append, ofList]
      rfl
    have hmem : f x ∈ (ofList f xs).keys ↔ x ∈ xs.eraseDups := by
      rw [mem_keys_ofList_iff, List.mem_eraseDups]
      constructor
      · rintro ⟨y, hy, hkey⟩
        rwa [← hf y (List.mem_append_left _ hy) x (by simp) hkey]
      · intro hx
        exact ⟨x, hx, rfl⟩
    rw [hlast, eraseDups_append_singleton]
    by_cases h : x ∈ xs.eraseDups
    · rw [if_pos h, insert_of_mem (hmem.2 h), hprevious]
    · rw [if_neg h, items_insert_of_notMem (mt hmem.1 h), hprevious]

end KeyedSet

end Wiring
