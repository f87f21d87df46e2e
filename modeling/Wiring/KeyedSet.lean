/-!
# Sets that keep the first value of a key

A `KeyedSet` holds values under keys, in the order in which the keys came.  The first value stored
under a key stays: storing again under that key changes nothing and gives the value that is there.
`insertFrom` asks a supplier for the value, and asks it only if the key is new; a supplier that fails
leaves the set as it was.
-/

namespace Wiring

/-- Values under distinct keys, in the order of first insertion. -/
structure KeyedSet (α : Type) where
  entries : List (String × α)
  nodup : (entries.map Prod.fst).Nodup

namespace KeyedSet

variable {α : Type}

def empty : KeyedSet α :=
  ⟨[], List.nodup_nil⟩

instance : Inhabited (KeyedSet α) :=
  ⟨empty⟩

instance [DecidableEq α] : DecidableEq (KeyedSet α) := fun s t =>
  if h : s.entries = t.entries then isTrue (by cases s; cases t; simp_all)
  else isFalse fun e => h (e ▸ rfl)

/-- The keys, oldest first. -/
def keys (s : KeyedSet α) : List String :=
  s.entries.map Prod.fst

/-- The values, oldest first. -/
def items (s : KeyedSet α) : List α :=
  s.entries.map Prod.snd

def size (s : KeyedSet α) : Nat :=
  s.entries.length

def isEmpty (s : KeyedSet α) : Bool :=
  s.entries.isEmpty

def get? (s : KeyedSet α) (key : String) : Option α :=
  s.entries.lookup key

def contains (s : KeyedSet α) (key : String) : Bool :=
  (s.get? key).isSome

theorem get?_eq_none_iff {s : KeyedSet α} {key : String} : s.get? key = none ↔ key ∉ s.keys := by
  unfold get? keys
  induction s.entries with
  | nil => simp
  | cons e rest ih =>
    obtain ⟨k, v⟩ := e
    by_cases h : key = k
    · simp [h]
    · rw [List.lookup_cons, beq_eq_false_iff_ne.2 h, List.map_cons, List.mem_cons, not_or]
      exact ih.trans ⟨fun hr => ⟨h, hr⟩, And.right⟩

/-- A new key with its value, at the end. -/
def push (s : KeyedSet α) (key : String) (value : α) (new : s.get? key = none) : KeyedSet α where
  entries := s.entries ++ [(key, value)]
  nodup := by
    have h := get?_eq_none_iff.1 new
    rw [List.map_append, List.nodup_append]
    refine ⟨s.nodup, by simp, fun k hk k' hk' => ?_⟩
    rintro rfl
    have he : k = key := List.mem_singleton.1 hk'
    exact h (he ▸ hk)

/-- The set with a value under the key: the one that is there, or else this one. -/
def insert (s : KeyedSet α) (key : String) (value : α) : KeyedSet α :=
  if new : s.get? key = none then s.push key value new else s

/-- The value under the key after an `insert`. -/
def getOrElse (s : KeyedSet α) (key : String) (value : α) : α :=
  (s.get? key).getD value

/-- What `insertFrom` gives: the value under the key, whether the supplier was asked, and the set. -/
structure Supplied (α : Type) where
  value : α
  asked : Bool
  set : KeyedSet α

/-- Asks `supply` for the value of a key that is not there. -/
def insertFrom {ε : Type} (s : KeyedSet α) (key : String) (supply : Unit → Except ε α) :
    Except ε (Supplied α) :=
  match h : s.get? key with
  | some value => .ok ⟨value, false, s⟩
  | none => (supply ()).map fun value => ⟨value, true, s.push key value h⟩

/-- The set with `f` applied to the value under one key. -/
def modify (s : KeyedSet α) (key : String) (f : α → α) : KeyedSet α where
  entries := s.entries.map fun e => if e.1 = key then (e.1, f e.2) else e
  nodup := by
    have h : (s.entries.map fun e => if e.1 = key then (e.1, f e.2) else e).map Prod.fst
        = s.entries.map Prod.fst := by
      rw [List.map_map]
      apply List.map_congr_left
      intro e _
      by_cases he : e.1 = key <;> simp [he]
    rw [h]
    exact s.nodup

/-- The values of `xs`, each under its key, the first of equal keys kept. -/
def ofList (key : α → String) (xs : List α) : KeyedSet α :=
  xs.foldl (fun s x => s.insert (key x) x) empty

@[simp] theorem items_empty : (empty : KeyedSet α).items = [] := rfl

theorem insert_of_mem {s : KeyedSet α} {key : String} (h : key ∈ s.keys) (value : α) :
    s.insert key value = s := by
  rw [insert, dif_neg]
  simpa [get?_eq_none_iff] using h

theorem entries_insert_of_notMem {s : KeyedSet α} {key : String} (h : key ∉ s.keys) (value : α) :
    (s.insert key value).entries = s.entries ++ [(key, value)] := by
  rw [insert, dif_pos (get?_eq_none_iff.2 h)]
  rfl

end KeyedSet

end Wiring
