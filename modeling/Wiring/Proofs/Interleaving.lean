import Mathlib.Data.List.Flatten
import Mathlib.Data.List.Perm.Basic

/-!
# Interleavings

`Interleaved tasks trace` says that the trace takes the elements of the tasks one at a time, those
of each task in their order.  The trace holds the same elements as the tasks (`perm_flatten`), and
where only one task has elements of some kind, the trace has these in the order of that task
(`filterMap_eq`): no other task can come between.
-/

namespace Wiring

variable {α β : Type}

/-- A merge of several lists that keeps the order within each; the order of the lists is of no
account. -/
inductive Interleaved : List (List α) → List α → Prop
  | nil : Interleaved [] []
  | done {tasks : List (List α)} {trace : List α} :
      Interleaved tasks trace → Interleaved ([] :: tasks) trace
  | step {a : α} {task : List α} {tasks : List (List α)} {trace : List α} :
      Interleaved (task :: tasks) trace → Interleaved ((a :: task) :: tasks) (a :: trace)
  | perm {tasks tasks' : List (List α)} {trace : List α} (h : tasks.Perm tasks') :
      Interleaved tasks trace → Interleaved tasks' trace

namespace Interleaved

variable {tasks tasks' : List (List α)} {trace : List α}

theorem perm_flatten (h : Interleaved tasks trace) : trace.Perm tasks.flatten := by
  induction h with
  | nil => exact List.Perm.refl _
  | done _ ih => exact ih
  | step _ ih => exact ih.cons _
  | perm hp _ ih => exact ih.trans hp.flatten

/-- One of two tasks has no elements of the kind that `g` picks. -/
def Apart (g : α → Option β) (l m : List α) : Prop :=
  l.filterMap g = [] ∨ m.filterMap g = []

theorem Apart.symm {g : α → Option β} {l m : List α} (h : Apart g l m) : Apart g m l :=
  Or.symm h

/-- Where only one task has elements of a kind, these stand in one order, however the tasks do. -/
theorem filterMap_flatten_perm {g : α → Option β} (h : tasks.Perm tasks')
    (hg : tasks.Pairwise (Apart g)) :
    tasks.flatten.filterMap g = tasks'.flatten.filterMap g := by
  induction h with
  | nil => rfl
  | cons l _ ih => simp [ih hg.of_cons]
  | swap l m ls =>
    have hlm : Apart g m l := (List.pairwise_cons.1 hg).1 l (by simp)
    rcases hlm with hm | hl
    · simp [hm]
    · simp [hl]
  | trans h₁ _ ih₁ ih₂ => exact (ih₁ hg).trans (ih₂ (h₁.pairwise hg Apart.symm))

/-- **What only one task has keeps its order.** -/
theorem filterMap_eq {g : α → Option β} (h : Interleaved tasks trace)
    (hg : tasks.Pairwise (Apart g)) : trace.filterMap g = tasks.flatten.filterMap g := by
  induction h with
  | nil => rfl
  | done _ ih => exact ih hg.of_cons
  | @step a task tasks trace _ ih =>
    obtain ⟨hapart, hrest⟩ := List.pairwise_cons.1 hg
    -- without `a` the task has still less for `g`, so it stays apart from the others
    have hg' : (task :: tasks).Pairwise (Apart g) := by
      refine List.pairwise_cons.2 ⟨fun m hm => ?_, hrest⟩
      refine (hapart m hm).imp_left fun hnone => ?_
      rw [List.filterMap_cons] at hnone
      cases ha : g a <;> simp_all
    rw [List.flatten_cons, List.cons_append, List.filterMap_cons, List.filterMap_cons, ih hg',
      List.flatten_cons]
  | perm hp _ ih =>
    rw [ih (hp.symm.pairwise hg Apart.symm), filterMap_flatten_perm hp.symm hg |>.symm]

end Interleaved

end Wiring
