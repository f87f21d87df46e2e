import Wiring.Proofs.KeyedSet

/-!
# Requests to a keyed set

Several callers ask one set in turn.  A history is the list of their requests in the order in which
the set takes them up, whoever makes them.

Every request offers at most one value: the one that it brings along, or the one that its supplier
gives.  What was offered before a request is all that its answer depends on (`answer_eq`).  Under a
key stands what was offered there first, and the keys stand in the order of their first offers.  A
supplier that fails offers nothing, so its request can be left out (`run_without_failure`).
-/

namespace Wiring

namespace KeyedSet

variable {ε α : Type}

/-- What can be asked of a set.  A supplier gives a value or fails. -/
inductive Request (ε α : Type) where
  | store (key : String) (value : α)
  /-- Stores what a supplier gives. -/
  | supply (key : String) (supplier : Unit → Except ε α)
  | get (key : String)
  | contains (key : String)
  | size
  | isEmpty
  | items

inductive Answer (ε α : Type) where
  | stored (value : α)
  /-- The value under the key, and whether the supplier was asked for it. -/
  | supplied (value : α) (asked : Bool)
  /-- The supplier was asked and failed. -/
  | failed (e : ε)
  | found (value : Option α)
  | truth (b : Bool)
  | count (n : Nat)
  | listed (values : List α)

def Answer.asked : Answer ε α → Bool
  | supplied _ asked => asked
  | failed _ => true
  | _ => false

/-- What a set answers to a request, and the set after it. -/
def step (s : KeyedSet α) : Request ε α → Answer ε α × KeyedSet α
  | .store key value => (.stored (s.getOrElse key value), s.insert key value)
  | .supply key supplier =>
    match s.insertFrom key supplier with
    | .ok x => (.supplied x.value x.asked, x.set)
    | .error e => (.failed e, s)
  | .get key => (.found (s.get? key), s)
  | .contains key => (.truth (s.contains key), s)
  | .size => (.count s.size, s)
  | .isEmpty => (.truth s.isEmpty, s)
  | .items => (.listed s.items, s)

/-- The answers to a history of requests, and the set after it. -/
def run (s : KeyedSet α) : List (Request ε α) → List (Answer ε α) × KeyedSet α
  | [] => ([], s)
  | q :: qs =>
    let (a, s) := s.step q
    let (as, s) := s.run qs
    (a :: as, s)

/-! ## Offers -/

/-- What a request offers to store. -/
def Request.offer? : Request ε α → Option (String × α)
  | store key value => some (key, value)
  | supply key supplier => (supplier ()).toOption.map fun value => (key, value)
  | _ => none

def offers (qs : List (Request ε α)) : List (String × α) :=
  qs.filterMap Request.offer?

def firstOffer? (qs : List (Request ε α)) (key : String) : Option α :=
  (offers qs).lookup key

/-- The keys under which something was offered, in the order of the first offers. -/
def offeredKeys (qs : List (Request ε α)) : List String :=
  ((offers qs).map Prod.fst).eraseDups

/-- The answer to a request after a history, by what was offered first. -/
def Answer.due (qs : List (Request ε α)) : Request ε α → Answer ε α
  | .store key value => .stored ((firstOffer? qs key).getD value)
  | .supply key supplier =>
    match firstOffer? qs key, supplier () with
    | some value, _ => .supplied value false
    | none, .ok value => .supplied value true
    | none, .error e => .failed e
  | .get key => .found (firstOffer? qs key)
  | .contains key => .truth (firstOffer? qs key).isSome
  | .size => .count (offeredKeys qs).length
  | .isEmpty => .truth (offeredKeys qs).isEmpty
  | .items => .listed ((offeredKeys qs).filterMap (firstOffer? qs))

/-! ## One request -/

variable {s : KeyedSet α} {key : String} {supplier : Unit → Except ε α} {q : Request ε α}
  {qs : List (Request ε α)}

theorem insertFrom_of_mem {value : α} (h : s.get? key = some value) :
    s.insertFrom key supplier = .ok ⟨value, false, s⟩ := by
  rw [insertFrom]
  split
  · next v hv =>
    rw [h, Option.some.injEq] at hv
    rw [hv]
  · next hv =>
    rw [h] at hv
    cases hv

theorem insertFrom_of_notMem (h : s.get? key = none) : s.insertFrom key supplier
    = (supplier ()).map fun value => ⟨value, true, s.insert key value⟩ := by
  rw [insertFrom]
  split
  · next v hv =>
    rw [h] at hv
    cases hv
  · next hv =>
    congr 1
    funext value
    rw [insert, dif_pos h]

/-- The set after a request to a supplier. -/
theorem step_supply_snd : (s.step (.supply key supplier)).2
    = match supplier () with
      | .ok value => s.insert key value
      | .error _ => s := by
  rw [step]
  cases hkey : s.get? key with
  | some value =>
    have hmem : key ∈ s.keys := mem_keys_iff.2 (by rw [hkey]; rfl)
    rw [insertFrom_of_mem hkey]
    cases supplier () with
    | ok v => exact (insert_of_mem hmem v).symm
    | error e => rfl
  | none =>
    rw [insertFrom_of_notMem hkey]
    cases supplier () <;> rfl

/-- **A request stores what it offers**, unless something is there under the key. -/
theorem step_snd (s : KeyedSet α) (q : Request ε α) :
    (s.step q).2 = s.insertAll q.offer?.toList := by
  cases q with
  | supply key supplier =>
    rw [step_supply_snd, Request.offer?]
    cases supplier () <;> rfl
  | _ => rfl

theorem items_eq (s : KeyedSet α) : s.items = s.keys.filterMap s.get? := by
  rw [keys, List.filterMap_map, items, ← List.filterMap_eq_map]
  apply List.filterMap_congr
  intro e he
  exact (get?_eq_some_iff.2 he).symm

theorem get?_offered (qs : List (Request ε α)) (key : String) :
    (empty.insertAll (offers qs)).get? key = firstOffer? qs key := by
  rw [get?_insertAll, firstOffer?]
  rfl

theorem keys_offered (qs : List (Request ε α)) :
    (empty.insertAll (offers qs)).keys = offeredKeys qs := by
  rw [keys_insertAll, offeredKeys]
  rfl

theorem step_fst (qs : List (Request ε α)) (q : Request ε α) :
    ((empty.insertAll (offers qs)).step q).1 = Answer.due qs q := by
  cases q with
  | store key value => rw [step, getOrElse, get?_offered, Answer.due]
  | supply key supplier =>
    rw [step, Answer.due]
    cases hkey : firstOffer? qs key with
    | some value => rw [insertFrom_of_mem (by rw [get?_offered, hkey])]
    | none =>
      rw [insertFrom_of_notMem (by rw [get?_offered, hkey])]
      cases supplier () <;> rfl
  | get key => rw [step, get?_offered, Answer.due]
  | contains key => rw [step, contains, get?_offered, Answer.due]
  | size => rw [step, size, Answer.due, ← keys_offered, keys, List.length_map]
  | isEmpty => rw [step, isEmpty, Answer.due, ← keys_offered, keys, List.isEmpty_map]
  | items =>
    have hget : (empty.insertAll (offers qs)).get? = firstOffer? qs := funext (get?_offered qs)
    rw [step, items_eq, hget, keys_offered, Answer.due]

/-! ## Histories -/

theorem run_cons (s : KeyedSet α) (q : Request ε α) (qs : List (Request ε α)) : s.run (q :: qs)
    = ((s.step q).1 :: ((s.step q).2.run qs).1, ((s.step q).2.run qs).2) := rfl

theorem run_append (s : KeyedSet α) (qs qs' : List (Request ε α)) : s.run (qs ++ qs')
    = ((s.run qs).1 ++ ((s.run qs).2.run qs').1, ((s.run qs).2.run qs').2) := by
  induction qs generalizing s with
  | nil => rfl
  | cons q qs ih => rw [List.cons_append, run_cons, run_cons, ih, List.cons_append]

theorem length_run (s : KeyedSet α) (qs : List (Request ε α)) :
    (s.run qs).1.length = qs.length := by
  induction qs generalizing s with
  | nil => rfl
  | cons q qs ih => rw [run_cons, List.length_cons, ih, List.length_cons]

theorem run_snd (s : KeyedSet α) (qs : List (Request ε α)) :
    (s.run qs).2 = s.insertAll (offers qs) := by
  induction qs generalizing s with
  | nil => rfl
  | cons q qs ih =>
    rw [run_cons, ih, step_snd, ← insertAll_append, offers, offers, List.filterMap_cons]
    cases q.offer? <;> rfl

theorem getElem?_run (s : KeyedSet α) (qs : List (Request ε α)) (i : Nat) :
    (s.run qs).1[i]? = qs[i]?.map fun q => ((s.run (qs.take i)).2.step q).1 := by
  induction qs generalizing s i with
  | nil => rfl
  | cons q qs ih =>
    cases i with
    | zero => rfl
    | succ i =>
      rw [run_cons, List.getElem?_cons_succ, ih, List.getElem?_cons_succ, List.take_succ_cons,
        run_cons]

/-- **Every answer is told by what was offered before.** -/
theorem answer_eq (qs : List (Request ε α)) (i : Nat) :
    (empty.run qs).1[i]? = qs[i]?.map (Answer.due (qs.take i)) := by
  rw [getElem?_run]
  congr 1
  funext q
  rw [run_snd, step_fst]

/-- A supplier is asked exactly if nothing was offered under its key. -/
theorem asked_due (qs : List (Request ε α)) (key : String) (supplier : Unit → Except ε α) :
    (Answer.due qs (.supply key supplier)).asked = true ↔ firstOffer? qs key = none := by
  rw [Answer.due]
  cases firstOffer? qs key with
  | some value => simp [Answer.asked]
  | none => cases supplier () <;> simp [Answer.asked]

theorem isSome_firstOffer? {value : α} (hq : q ∈ qs) (hoffer : q.offer? = some (key, value)) :
    (firstOffer? qs key).isSome := by
  have hmem : (key, value) ∈ offers qs := List.mem_filterMap.2 ⟨q, hq, hoffer⟩
  rw [firstOffer?, List.lookup_eq_findSome?, List.findSome?_isSome_iff]
  exact ⟨_, hmem, by simp⟩

/-- A supplier that gave a value for a key was asked at a time when nothing had been offered. -/
theorem due_eq_supplied {value : α}
    (h : Answer.due qs (.supply key supplier) = .supplied value true) :
    firstOffer? qs key = none ∧
      Request.offer? (.supply key supplier) = some (key, value) := by
  rw [Answer.due] at h
  cases hkey : firstOffer? qs key with
  | some v => simp [hkey] at h
  | none =>
    rw [hkey] at h
    cases hsupply : supplier () with
    | ok v =>
      simp only [hsupply, Answer.supplied.injEq, and_true] at h
      simp [Request.offer?, hsupply, h, Except.toOption]
    | error e => simp [hsupply] at h

/-- **No two suppliers give the value of one key.** -/
theorem supplied_once {i j : Nat} {f g : Unit → Except ε α} {v w : α}
    (hi : qs[i]? = some (.supply key f)) (hj : qs[j]? = some (.supply key g))
    (hv : (empty.run qs).1[i]? = some (.supplied v true))
    (hw : (empty.run qs).1[j]? = some (.supplied w true)) : i = j := by
  have hearlier : ∀ {i j : Nat} {f g : Unit → Except ε α} {v w : α},
      qs[i]? = some (.supply key f) → qs[j]? = some (.supply key g) →
      (empty.run qs).1[i]? = some (.supplied v true) →
      (empty.run qs).1[j]? = some (.supplied w true) → ¬ i < j := by
    intro i j f g v w hi hj hv hw hij
    rw [answer_eq, hi, Option.map_some, Option.some.injEq] at hv
    rw [answer_eq, hj, Option.map_some, Option.some.injEq] at hw
    have hmem : Request.supply key f ∈ qs.take j := by
      apply List.mem_of_getElem? (i := i)
      rw [List.getElem?_take, if_pos hij, hi]
    have hoffered := isSome_firstOffer? hmem (due_eq_supplied hv).2
    rw [(due_eq_supplied hw).1] at hoffered
    cases hoffered
  have hle := hearlier hi hj hv hw
  have hge := hearlier hj hi hw hv
  omega

/-- **A supplier that fails leaves no trace**: without its request every other answer is the same,
and so is the set. -/
theorem run_without_failure {e : ε} (h : supplier () = .error e) (s : KeyedSet α)
    (before after : List (Request ε α)) :
    (s.run (before ++ after)).1
      = (s.run (before ++ .supply key supplier :: after)).1.eraseIdx before.length ∧
    (s.run (before ++ after)).2 = (s.run (before ++ .supply key supplier :: after)).2 := by
  have hstep : ((s.run before).2.step (.supply key supplier)).2 = (s.run before).2 := by
    rw [step_supply_snd, h]
  rw [run_append, run_append, run_cons, hstep]
  refine ⟨?_, rfl⟩
  rw [List.eraseIdx_append_of_length_le (by rw [length_run]), length_run, Nat.sub_self,
    List.eraseIdx_cons_zero]

end KeyedSet

end Wiring
