import Mathlib
import Wiring.Proofs.Json.Token

/-!
# What is written is read back

The reader that waits for a value gets it from the tokens of the value (`Readable.reads`), whatever
is open around it.  Since the text of a value is cut into its tokens, `parse?` reads every value back
from its text (`parse?_compact`).
-/

namespace Wiring.Json

def run? (state : ReadState) (ts : List Token) : Option ReadState :=
  ts.foldlM step? state

theorem run?_cons (state : ReadState) (t : Token) (ts : List Token) :
    run? state (t :: ts) = (step? state t).bind (run? · ts) := rfl

theorem run?_of_step? {state next : ReadState} {t : Token} (h : step? state t = some next)
    (ts : List Token) : run? state (t :: ts) = run? next ts := by
  rw [run?_cons, h, Option.bind_some]

/-- The reader that waits for a value gets this one. -/
def Reads (v : Json) : Prop :=
  ∀ stack ts, run? (.value stack) (toTokens v ++ ts) = run? (.after v stack) ts

/-- The first token of a value does not close an array. -/
theorem exists_toTokens_eq_cons (v : Json) : ∃ t ts, toTokens v = t :: ts ∧ t ≠ .closeArray := by
  cases v <;> exact ⟨_, _, rfl, nofun⟩

/-- The first item is read like a later one. -/
theorem run?_firstItem (v : Json) (stack : List Frame) (ts : List Token) :
    run? (.firstItem stack) (toTokens v ++ ts)
      = run? (.value (.items [] :: stack)) (toTokens v ++ ts) := by
  obtain ⟨t, us, hv, ht⟩ := exists_toTokens_eq_cons v
  rw [hv, List.cons_append, run?_cons, run?_cons]
  congr 1
  cases t <;> first | rfl | exact absurd rfl ht

/-- Later items are put behind those that are there. -/
theorem run?_items {items : List Json} (h : ∀ v ∈ items, Reads v) {u : Json}
    {done : List Json} {stack : List Frame} (ts : List Token) :
    run? (.after u (.items done :: stack)) (itemTokens false items ++ .closeArray :: ts)
      = run? (.after (.array ((u :: done).reverse ++ items)) stack) ts := by
  induction items generalizing u done with
  | nil =>
    rw [List.append_nil]
    exact run?_of_step? rfl ts
  | cons v items ih =>
    rw [List.forall_mem_cons] at h
    have hrest := @ih h.2 v (u :: done)
    rw [List.reverse_cons, List.append_assoc] at hrest
    calc run? (.after u (.items done :: stack)) (itemTokens false (v :: items) ++ .closeArray :: ts)
        = run? (.after u (.items done :: stack))
            (.comma :: (toTokens v ++ (itemTokens false items ++ .closeArray :: ts))) := by
          simp [itemTokens]
      _ = run? (.value (.items (u :: done) :: stack))
            (toTokens v ++ (itemTokens false items ++ .closeArray :: ts)) := run?_of_step? rfl _
      _ = run? (.after v (.items (u :: done) :: stack))
            (itemTokens false items ++ .closeArray :: ts) := h.1 _ _
      _ = run? (.after (.array ((u :: done).reverse ++ v :: items)) stack) ts := hrest

theorem run?_fields {fs : List (String × Json)} (h : ∀ f ∈ fs, Reads f.2) {u : Json}
    {name : String} {done : List (String × Json)} {stack : List Frame} (ts : List Token) :
    run? (.after u (.fields done name :: stack)) (fieldTokens false fs ++ .closeObject :: ts)
      = run? (.after (.object (((name, u) :: done).reverse ++ fs)) stack) ts := by
  induction fs generalizing u name done with
  | nil =>
    rw [List.append_nil]
    exact run?_of_step? rfl ts
  | cons f fs ih =>
    rw [List.forall_mem_cons] at h
    obtain ⟨key, v⟩ := f
    have hrest := @ih h.2 v key ((name, u) :: done)
    rw [List.reverse_cons, List.append_assoc] at hrest
    calc run? (.after u (.fields done name :: stack))
          (fieldTokens false ((key, v) :: fs) ++ .closeObject :: ts)
        = run? (.after u (.fields done name :: stack)) (.comma :: .text key :: .colon ::
            (toTokens v ++ (fieldTokens false fs ++ .closeObject :: ts))) := by
          simp [fieldTokens]
      _ = run? (.value (.fields ((name, u) :: done) key :: stack))
            (toTokens v ++ (fieldTokens false fs ++ .closeObject :: ts)) := by
          rw [run?_of_step? rfl, run?_of_step? rfl, run?_of_step? rfl]
      _ = run? (.after v (.fields ((name, u) :: done) key :: stack))
            (fieldTokens false fs ++ .closeObject :: ts) := h.1 _ _
      _ = run? (.after (.object (((name, u) :: done).reverse ++ (key, v) :: fs)) stack) ts := hrest

/-- **A value is read from its tokens.** -/
theorem Readable.reads {v : Json} (h : Readable v) : Reads v := by
  induction h with
  | @array items each ih =>
    intro stack ts
    have hopen : step? (.value stack) .openArray = some (.firstItem stack) := rfl
    cases items with
    | nil =>
      rw [toTokens]
      exact (run?_of_step? hopen _).trans (run?_of_step? rfl ts)
    | cons v items =>
      rw [List.forall_mem_cons] at ih
      calc run? (.value stack) (toTokens (.array (v :: items)) ++ ts)
          = run? (.value stack)
              (.openArray :: (toTokens v ++ (itemTokens false items ++ .closeArray :: ts))) := by
            simp [toTokens, itemTokens]
        _ = run? (.value (.items [] :: stack))
              (toTokens v ++ (itemTokens false items ++ .closeArray :: ts)) := by
            rw [run?_of_step? hopen, run?_firstItem]
        _ = run? (.after v (.items [] :: stack))
              (itemTokens false items ++ .closeArray :: ts) :=
            ih.1 _ _
        _ = run? (.after (.array (v :: items)) stack) ts := run?_items ih.2 ts
  | @object fs each ih =>
    intro stack ts
    have hopen : step? (.value stack) .openObject = some (.firstKey stack) := rfl
    cases fs with
    | nil =>
      rw [toTokens]
      exact (run?_of_step? hopen _).trans (run?_of_step? rfl ts)
    | cons f fs =>
      rw [List.forall_mem_cons] at ih
      obtain ⟨key, v⟩ := f
      calc run? (.value stack) (toTokens (.object ((key, v) :: fs)) ++ ts)
          = run? (.value stack) (.openObject :: .text key :: .colon ::
              (toTokens v ++ (fieldTokens false fs ++ .closeObject :: ts))) := by
            simp [toTokens, fieldTokens]
        _ = run? (.value (.fields [] key :: stack))
              (toTokens v ++ (fieldTokens false fs ++ .closeObject :: ts)) := by
            rw [run?_of_step? hopen, run?_of_step? rfl, run?_of_step? rfl]
        _ = run? (.after v (.fields [] key :: stack))
              (fieldTokens false fs ++ .closeObject :: ts) :=
            ih.1 _ _
        _ = run? (.after (.object ((key, v) :: fs)) stack) ts := run?_fields ih.2 ts
  | _ =>
    intro stack ts
    exact run?_of_step? rfl ts

/-- **A value is read back from its text.** -/
theorem parse?_compact {v : Json} (h : Readable v) : parse? (compact v) = some v := by
  have htokens : tokens? (compact v) = some (toTokens v) := by
    have hlexed := h.lexed [] (by simp [StartsAnew])
    rw [List.append_nil] at hlexed
    rw [tokens?, ← String.length_toList]
    show tokensOf? (compact v).toList = _
    rw [hlexed]
    show some (toTokens v ++ []) = _
    rw [List.append_nil]
  have hrun : (toTokens v).foldlM step? (.value []) = some (.after v []) := by
    have hreads := h.reads [] []
    rwa [List.append_nil] at hreads
  rw [parse?, htokens, Option.bind_some, ofTokens?, hrun]

end Wiring.Json
