import Mathlib
import Wiring.Proofs.KeyedSet.Requests

/-!
# Values with an index of their places

A set can be held as the row of its values and an index that tells at which place the value of a key
stands.  Such a row answers every history as the set does (`Represents.run`), because the index takes
the keys one by one onto the places (`Indexed.Represents`): a new value is put at the place after
the last one, and only then its key has a place.  So no place is ever looked up that is not there, and
a supplier that fails leaves row and index as they were, since it is asked before anything is put
down.
-/

namespace Wiring

namespace KeyedSet

variable {ε α : Type}

/-- Values in the order in which they came, and the places of keys among them. -/
structure Indexed (α : Type) where
  items : Array α
  places : Std.HashMap String Nat

namespace Indexed

def empty : Indexed α :=
  ⟨#[], ∅⟩

def push (s : Indexed α) (key : String) (value : α) : Indexed α :=
  ⟨s.items.push value, s.places.insert key s.items.size⟩

/-- What is answered to a request, and what is there after it.  There is no answer if the index gives
a place at which nothing stands. -/
def step? (s : Indexed α) : Request ε α → Option (Answer ε α × Indexed α)
  | .store key value =>
    match s.places[key]? with
    | some i => s.items[i]?.map fun v => (.stored v, s)
    | none => some (.stored value, s.push key value)
  | .supply key supplier =>
    match s.places[key]? with
    | some i => s.items[i]?.map fun v => (.supplied v false, s)
    | none =>
      match supplier () with
      | .ok value => some (.supplied value true, s.push key value)
      | .error e => some (.failed e, s)
  | .get key =>
    match s.places[key]? with
    | some i => s.items[i]?.map fun v => (.found (some v), s)
    | none => some (.found none, s)
  | .contains key => some (.truth (s.places.contains key), s)
  | .size => some (.count s.items.size, s)
  | .isEmpty => some (.truth (s.items.size == 0), s)
  | .items => some (.listed s.items.toList, s)

/-- The answers to a history, and what is there after it. -/
def run? (s : Indexed α) : List (Request ε α) → Option (List (Answer ε α) × Indexed α)
  | [] => some ([], s)
  | q :: qs => do
    let (a, s) ← s.step? q
    let (as, s) ← s.run? qs
    return (a :: as, s)

/-- Row and index hold a set: the values are those of the set, and the index takes the key of each
value to its place, and no other text to any. -/
structure Represents (s : Indexed α) (t : KeyedSet α) : Prop where
  items : s.items.toList = t.items
  places : ∀ (key : String) (i : Nat), s.places[key]? = some i ↔ t.keys[i]? = some key

namespace Represents

variable {s : Indexed α} {t : KeyedSet α} {key : String} {i : Nat}

theorem empty : (Indexed.empty : Indexed α).Represents KeyedSet.empty where
  items := rfl
  places key i := by simp [Indexed.empty, keys, KeyedSet.empty]

theorem size_eq (h : s.Represents t) : s.items.size = t.keys.length := by
  rw [← Array.length_toList, h.items, KeyedSet.items, keys, List.length_map, List.length_map]

/-- The place of a key holds its value. -/
theorem getElem?_items (h : s.Represents t) (hi : s.places[key]? = some i) :
    ∃ v, s.items[i]? = some v ∧ t.get? key = some v := by
  have hkey := (h.places key i).1 hi
  rw [keys, List.getElem?_map, Option.map_eq_some_iff] at hkey
  obtain ⟨⟨k, v⟩, he, rfl⟩ := hkey
  refine ⟨v, ?_, get?_eq_some_iff.2 (List.mem_of_getElem? he)⟩
  rw [← Array.getElem?_toList, h.items, KeyedSet.items, List.getElem?_map, he, Option.map_some]

theorem get?_eq_none (h : s.Represents t) (hi : s.places[key]? = none) : t.get? key = none := by
  rw [get?_eq_none_iff]
  intro hmem
  obtain ⟨i, hkey⟩ := List.getElem?_of_mem hmem
  rw [(h.places key i).2 hkey] at hi
  cases hi

theorem contains_eq (h : s.Represents t) (key : String) :
    s.places.contains key = t.contains key := by
  rw [Std.HashMap.contains_eq_isSome_getElem?, contains]
  cases hi : s.places[key]? with
  | none =>
    rw [h.get?_eq_none hi]
    rfl
  | some i =>
    obtain ⟨v, -, hv⟩ := h.getElem?_items hi
    rw [hv, Option.isSome_some, Option.isSome_some]

/-- **A new key is taken to the place of its value**, and all others keep theirs. -/
theorem push (h : s.Represents t) (hnew : t.get? key = none) (value : α) :
    (s.push key value).Represents (t.insert key value) := by
  have hnotMem : key ∉ t.keys := get?_eq_none_iff.1 hnew
  refine ⟨?_, fun k i => ?_⟩
  · rw [Indexed.push, Array.toList_push, h.items, items_insert_of_notMem hnotMem]
  · rw [Indexed.push, Std.HashMap.getElem?_insert, keys_insert_of_notMem hnotMem, h.size_eq,
      List.getElem?_append]
    by_cases hk : key = k
    · subst hk
      simp only [beq_self_eq_true, if_true, Option.some.injEq]
      constructor
      · rintro rfl
        simp
      · intro hi
        split at hi
        · exact absurd (List.mem_of_getElem? hi) hnotMem
        · next hlt =>
          have hone : i - t.keys.length = 0 := by
            have hbound := (List.getElem?_eq_some_iff.1 hi).1
            simpa using hbound
          omega
    · rw [if_neg (by simpa using hk), h.places]
      constructor
      · intro hi
        rw [if_pos (List.getElem?_eq_some_iff.1 hi).1, hi]
      · intro hi
        split at hi
        · exact hi
        · rw [List.getElem?_singleton] at hi
          split at hi
          · exact absurd (Option.some.inj hi) hk
          · cases hi

/-- **One request is answered as by the set**, and the places stay right. -/
theorem step (h : s.Represents t) (q : Request ε α) :
    ∃ s', s.step? q = some ((t.step q).1, s') ∧ s'.Represents (t.step q).2 := by
  cases q with
  | store key value =>
    rw [step?, KeyedSet.step, getOrElse]
    cases hi : s.places[key]? with
    | some i =>
      obtain ⟨v, hitem, hv⟩ := h.getElem?_items hi
      have hmem : key ∈ t.keys := mem_keys_iff.2 (by rw [hv]; rfl)
      refine ⟨s, ?_, ?_⟩
      · dsimp only
        rw [hitem, hv]
        rfl
      · rw [insert_of_mem hmem]
        exact h
    | none =>
      have hnew := h.get?_eq_none hi
      refine ⟨s.push key value, ?_, h.push hnew value⟩
      rw [hnew]
      rfl
  | supply key supplier =>
    rw [step?, KeyedSet.step]
    cases hi : s.places[key]? with
    | some i =>
      obtain ⟨v, hitem, hv⟩ := h.getElem?_items hi
      rw [insertFrom_of_mem hv]
      refine ⟨s, ?_, h⟩
      dsimp only
      rw [hitem]
      rfl
    | none =>
      have hnew := h.get?_eq_none hi
      rw [insertFrom_of_notMem hnew]
      cases supplier () with
      | ok value => exact ⟨s.push key value, rfl, h.push hnew value⟩
      | error e => exact ⟨s, rfl, h⟩
  | get key =>
    rw [step?, KeyedSet.step]
    cases hi : s.places[key]? with
    | some i =>
      obtain ⟨v, hitem, hv⟩ := h.getElem?_items hi
      refine ⟨s, ?_, h⟩
      dsimp only
      rw [hitem, hv]
      rfl
    | none =>
      refine ⟨s, ?_, h⟩
      rw [h.get?_eq_none hi]
  | contains key =>
    refine ⟨s, ?_, h⟩
    rw [step?, h.contains_eq]
    rfl
  | size =>
    refine ⟨s, ?_, h⟩
    rw [step?, h.size_eq, keys, List.length_map]
    rfl
  | isEmpty =>
    refine ⟨s, ?_, h⟩
    rw [step?, h.size_eq, keys, List.length_map, KeyedSet.step, isEmpty]
    cases t.entries <;> rfl
  | items =>
    refine ⟨s, ?_, h⟩
    rw [step?, h.items]
    rfl

/-- **A history is answered as by the set.** -/
theorem run (h : s.Represents t) (qs : List (Request ε α)) :
    ∃ s', s.run? qs = some ((t.run qs).1, s') ∧ s'.Represents (t.run qs).2 := by
  induction qs generalizing s t with
  | nil => exact ⟨s, rfl, h⟩
  | cons q qs ih =>
    obtain ⟨s₁, hstep, h₁⟩ := h.step q
    obtain ⟨s₂, hrun, h₂⟩ := ih h₁
    refine ⟨s₂, ?_, h₂⟩
    rw [run?, hstep, run_cons]
    simp [hrun]

end Represents

end Indexed

/-! ## The first value stays -/

/-- What can be said of a history of requests to a set that is empty at first.  Values are held by
their row and the index of their places. -/
structure FirstStays (qs : List (Request ε α)) : Prop where
  /-- Every answer tells the values that were offered first, in the order of their keys. -/
  answers : ∀ i, (empty.run qs).1[i]? = qs[i]?.map (Answer.due (qs.take i))
  /-- A supplier is asked exactly if nothing is there under the key. -/
  asked : ∀ (i : Nat) (key : String) (supplier : Unit → Except ε α),
    qs[i]? = some (.supply key supplier) →
      ∃ a, (empty.run qs).1[i]? = some a ∧
        (a.asked = true ↔ firstOffer? (qs.take i) key = none)
  /-- No two suppliers give the value of one key. -/
  once : ∀ (i j : Nat) (key : String) (f g : Unit → Except ε α) (v w : α),
    qs[i]? = some (.supply key f) → qs[j]? = some (.supply key g) →
      (empty.run qs).1[i]? = some (.supplied v true) →
        (empty.run qs).1[j]? = some (.supplied w true) → i = j
  /-- The request to a supplier that fails can be left out. -/
  failure : ∀ (before after : List (Request ε α)) (key : String) (supplier : Unit → Except ε α)
    (e : ε), supplier () = .error e → qs = before ++ .supply key supplier :: after →
      (empty.run (before ++ after)).1 = (empty.run qs).1.eraseIdx before.length ∧
        (empty.run (before ++ after)).2 = (empty.run qs).2
  /-- The row of values and the index answer in the same way, and hold the same set. -/
  indexed : ∃ s, Indexed.empty.run? qs = some ((empty.run qs).1, s) ∧
    s.Represents (empty.run qs).2

/-- **A keyed set keeps the first value of every key**, whatever is asked of it and in which order. -/
theorem first_stays (qs : List (Request ε α)) : FirstStays qs where
  answers := answer_eq qs
  asked i key supplier hi := by
    refine ⟨_, by rw [answer_eq, hi, Option.map_some], asked_due _ _ _⟩
  once _ _ _ _ _ _ _ hi hj hv hw := supplied_once hi hj hv hw
  failure before after key supplier e he hqs := by
    rw [hqs]
    exact run_without_failure he empty before after
  indexed := Indexed.Represents.empty.run qs

end KeyedSet

end Wiring
