/-!
# Dictionaries in key order

A `Dict` holds values under text keys, in increasing order of the keys, and the last value written
under a key stays.  As the order is fixed, two dictionaries with the same values under the same keys
are equal.
-/

namespace Wiring

/-- The entries with `value` under `key`, at its place in the order. -/
def insertInOrder {β : Type} (key : String) (value : β) : List (String × β) → List (String × β)
  | [] => [(key, value)]
  | e :: rest =>
    if key < e.1 then (key, value) :: e :: rest
    else if e.1 < key then e :: insertInOrder key value rest
    else (key, value) :: rest

theorem mem_insertInOrder {β : Type} {key : String} {value : β} {l : List (String × β)}
    {x : String × β} (h : x ∈ insertInOrder key value l) : x = (key, value) ∨ x ∈ l := by
  induction l with
  | nil => simpa [insertInOrder] using h
  | cons e rest ih =>
    rw [insertInOrder] at h
    split at h
    · simpa using h
    · split at h
      · rcases List.mem_cons.1 h with rfl | h
        · simp
        · rcases ih h with h | h <;> simp [h]
      · rcases List.mem_cons.1 h with h | h <;> simp [h]

theorem pairwise_insertInOrder {β : Type} (key : String) (value : β) {l : List (String × β)}
    (h : l.Pairwise (·.1 < ·.1)) : (insertInOrder key value l).Pairwise (·.1 < ·.1) := by
  induction l with
  | nil => simp [insertInOrder]
  | cons e rest ih =>
    obtain ⟨he, hrest⟩ := List.pairwise_cons.1 h
    rw [insertInOrder]
    split
    · next hlt =>
      refine List.pairwise_cons.2 ⟨fun x hx => ?_, h⟩
      rcases List.mem_cons.1 hx with rfl | hx
      · exact hlt
      · exact String.lt_trans hlt (he x hx)
    · next hnlt =>
      split
      · next hlt =>
        refine List.pairwise_cons.2 ⟨fun x hx => ?_, ih hrest⟩
        rcases mem_insertInOrder hx with rfl | hx
        · exact hlt
        · exact he x hx
      · next hngt =>
        have hkey : key = e.1 :=
          String.le_antisymm (String.not_lt.1 hngt) (String.not_lt.1 hnlt)
        exact List.pairwise_cons.2 ⟨fun x hx => hkey ▸ he x hx, hrest⟩

/-- Values under text keys, in increasing order of the keys. -/
structure Dict (β : Type) where
  entries : List (String × β)
  sorted : entries.Pairwise (·.1 < ·.1)

namespace Dict

variable {β γ : Type}

def empty : Dict β :=
  ⟨[], List.Pairwise.nil⟩

instance : Inhabited (Dict β) :=
  ⟨empty⟩

instance [DecidableEq β] : DecidableEq (Dict β) := fun d e =>
  if h : d.entries = e.entries then isTrue (by cases d; cases e; simp_all)
  else isFalse fun he => h (he ▸ rfl)

def get? (d : Dict β) (key : String) : Option β :=
  d.entries.lookup key

def isEmpty (d : Dict β) : Bool :=
  d.entries.isEmpty

/-- The dictionary with `value` under `key`, in place of a value that was there. -/
def insert (d : Dict β) (key : String) (value : β) : Dict β :=
  ⟨insertInOrder key value d.entries, pairwise_insertInOrder key value d.sorted⟩

def ofList (l : List (String × β)) : Dict β :=
  l.foldl (fun d e => d.insert e.1 e.2) empty

def map (f : β → γ) (d : Dict β) : Dict γ where
  entries := d.entries.map fun e => (e.1, f e.2)
  sorted := List.pairwise_map.2 d.sorted

theorem lookup_insertInOrder (key : String) (value : β) (k : String) (l : List (String × β)) :
    (insertInOrder key value l).lookup k = if k = key then some value else l.lookup k := by
  induction l with
  | nil => by_cases h : k = key <;> simp [insertInOrder, List.lookup_cons, h, beq_eq_false_iff_ne.2]
  | cons e rest ih =>
    obtain ⟨k', v'⟩ := e
    rw [insertInOrder]
    split
    · by_cases h : k = key
      · simp [h]
      · rw [List.lookup_cons, beq_eq_false_iff_ne.2 h, if_neg h]
    · next hnlt =>
      split
      · next hlt =>
        by_cases h : k = k'
        · have hne : ¬k' = key := fun he => absurd hlt (he ▸ String.lt_irrefl _)
          simp [h, hne]
        · rw [List.lookup_cons, List.lookup_cons, beq_eq_false_iff_ne.2 h, ih]
      · next hngt =>
        have hkey : key = k' :=
          String.le_antisymm (String.not_lt.1 hngt) (String.not_lt.1 hnlt)
        subst hkey
        by_cases h : k = key
        · simp [h]
        · rw [List.lookup_cons, List.lookup_cons, beq_eq_false_iff_ne.2 h, if_neg h]

/-- The last value written under a key is the one that is found. -/
theorem get?_insert (d : Dict β) (key : String) (value : β) (k : String) :
    (d.insert key value).get? k = if k = key then some value else d.get? k :=
  lookup_insertInOrder key value k d.entries

/-- Of several values written under a key the last one is found. -/
theorem get?_ofList (l : List (String × β)) (k : String) :
    (ofList l).get? k = l.reverse.lookup k := by
  have hfold : ∀ (l : List (String × β)) (d : Dict β),
      (l.foldl (fun d e => d.insert e.1 e.2) d).get? k = (l.reverse.lookup k).or (d.get? k) := by
    intro l
    induction l with
    | nil => exact fun _ => rfl
    | cons e l ih =>
      intro d
      obtain ⟨key, value⟩ := e
      rw [List.foldl_cons, ih, get?_insert, List.reverse_cons, List.lookup_append, Option.or_assoc]
      congr 1
      by_cases h : k = key
      · simp [h]
      · rw [if_neg h, List.lookup_cons, beq_eq_false_iff_ne.2 h]
        rfl
  rw [ofList, hfold]
  exact Option.or_none

end Dict

end Wiring
