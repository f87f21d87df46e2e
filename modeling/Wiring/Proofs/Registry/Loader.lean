import Mathlib.Data.List.Flatten
import Mathlib.Logic.Relation
import Wiring.Proofs.Interleaving
import Wiring.Registry.Load

/-!
# Loading by several workers

The units of a batch are loaded by workers that share the registry.  A worker without work takes the
next unit, and a worker with work does the next step of its unit; nothing else is said about the
order (`Loader.Step`).  Each of these is one atomic change of what the workers share: the cursor
that says which unit is next, and the registry.

A run in which all is done has performed the steps of all units in some interleaving
(`Loader.Run.interleaved`), and together the workers have counted every unit once
(`Loader.Run.stats_eq`).  A loader never gets stuck before all is done (`Loader.exists_step`), and
whatever was done so far can be brought to its end (`Loader.exists_finished`).
-/

namespace Wiring

namespace LoadStats

variable {s t : LoadStats} {l m : List LoadStats}

theorem zero_add : zero.add s = s := by
  simp [add, zero]

theorem add_assoc (s t u : LoadStats) : (s.add t).add u = s.add (t.add u) := by
  simp [add, Nat.add_assoc]

theorem add_comm (s t : LoadStats) : s.add t = t.add s := by
  simp [add, Nat.add_comm]

def sum (l : List LoadStats) : LoadStats :=
  l.foldl add zero

theorem foldl_add (s : LoadStats) (l : List LoadStats) : l.foldl add s = s.add (sum l) := by
  induction l generalizing s with
  | nil => simp [sum, add, zero]
  | cons t l ih =>
    rw [List.foldl_cons, sum, List.foldl_cons, ih, ih (zero.add t), zero_add, add_assoc]

theorem sum_cons (s : LoadStats) (l : List LoadStats) : sum (s :: l) = s.add (sum l) := by
  rw [sum, List.foldl_cons, zero_add, foldl_add]

theorem sum_perm (h : l.Perm m) : sum l = sum m := by
  induction h with
  | nil => rfl
  | cons s _ ih => rw [sum_cons, sum_cons, ih]
  | swap s t l => rw [sum_cons, sum_cons, sum_cons, sum_cons, ← add_assoc, add_comm t s, add_assoc]
  | trans _ _ ih₁ ih₂ => exact ih₁.trans ih₂

theorem ofUnits_concat (us : List SourceUnit) (u : SourceUnit) :
    ofUnits (us ++ [u]) = (ofUnits us).add u.stats :=
  List.foldl_concat ..

end LoadStats

/-- Units that are loaded together, the number of the first one, and who declares what. -/
structure Batch where
  units : List SourceUnit
  base : Nat
  marker : String
  claims : Claims

namespace Batch

/-- The steps of the unit at a place of the batch. -/
def stepsOf (b : Batch) (index : Nat) (u : SourceUnit) : List LoadStep :=
  u.loadSteps b.marker (b.base + index) b.claims

def tasks (b : Batch) : List (List LoadStep) :=
  (b.units.zipIdx b.base).map fun (u, unit) => u.loadSteps b.marker unit b.claims

theorem getElem?_tasks (b : Batch) (i : Nat) :
    b.tasks[i]? = b.units[i]?.map fun u => b.stepsOf i u := by
  rw [tasks, List.getElem?_map, List.getElem?_zipIdx, Option.map_map]
  rfl

theorem length_tasks (b : Batch) : b.tasks.length = b.units.length := by
  simp [tasks]

theorem drop_tasks {b : Batch} {i : Nat} {u : SourceUnit} (h : b.units[i]? = some u) :
    b.tasks.drop i = b.stepsOf i u :: b.tasks.drop (i + 1) := by
  have ht : b.tasks[i]? = some (b.stepsOf i u) := by rw [getElem?_tasks, h]; rfl
  obtain ⟨hi, he⟩ := List.getElem?_eq_some_iff.1 ht
  rw [List.drop_eq_getElem_cons hi, he]

end Batch

/-- The steps that a worker has still to do, and what it read so far. -/
structure Worker where
  pending : List LoadStep
  stats : LoadStats

structure Loader where
  registry : Registry
  /-- The place of the unit that is taken next. -/
  cursor : Nat
  workers : List Worker

namespace Loader

variable {b : Batch} {s s' : Loader}

/-- One worker takes the next unit or does one step. -/
inductive Step (b : Batch) : Loader → Loader → Prop
  | take {s : Loader} (i : Nat) {w : Worker} {u : SourceUnit} (worker : s.workers[i]? = some w)
      (idle : w.pending = []) (unit : b.units[s.cursor]? = some u) :
      Step b s ⟨s.registry, s.cursor + 1,
        s.workers.set i ⟨b.stepsOf s.cursor u, w.stats.add u.stats⟩⟩
  | act {s : Loader} (i : Nat) {w : Worker} {a : LoadStep} {rest : List LoadStep}
      (worker : s.workers[i]? = some w) (busy : w.pending = a :: rest) :
      Step b s ⟨s.registry.perform a, s.cursor, s.workers.set i ⟨rest, w.stats⟩⟩

/-- Steps of any workers, in any order. -/
def Run (b : Batch) : Loader → Loader → Prop :=
  Relation.ReflTransGen (Step b)

/-- All units are taken, and no worker has anything to do. -/
def Finished (b : Batch) (s : Loader) : Prop :=
  b.units.length ≤ s.cursor ∧ ∀ w ∈ s.workers, w.pending = []

def stats (s : Loader) : LoadStats :=
  .sum (s.workers.map (·.stats))

/-- The steps that are left, those of each worker and those of each unit that nobody took. -/
def tasks (b : Batch) (s : Loader) : List (List LoadStep) :=
  s.workers.map (·.pending) ++ b.tasks.drop s.cursor

/-! ## What one step does -/

/-- One worker apart from the others, before and after it changes. -/
theorem workers_perm {ws : List Worker} {i : Nat} {w : Worker} (h : ws[i]? = some w) (w' : Worker) :
    ws.Perm (w :: ws.eraseIdx i) ∧ (ws.set i w').Perm (w' :: ws.eraseIdx i) := by
  obtain ⟨hi, rfl⟩ := List.getElem?_eq_some_iff.1 h
  exact ⟨(List.getElem_cons_eraseIdx_perm hi).symm, List.set_perm_cons_eraseIdx hi w'⟩

/-- Taking a unit moves its task to the worker, which had an empty one. -/
theorem tasks_take {i : Nat} {w : Worker} {u : SourceUnit} (hw : s.workers[i]? = some w)
    (hidle : w.pending = []) (hu : b.units[s.cursor]? = some u) :
    (s.tasks b).Perm ([] :: tasks b ⟨s.registry, s.cursor + 1,
      s.workers.set i ⟨b.stepsOf s.cursor u, w.stats.add u.stats⟩⟩) := by
  obtain ⟨hbefore, hafter⟩ := workers_perm hw ⟨b.stepsOf s.cursor u, w.stats.add u.stats⟩
  have h₁ := (hbefore.map (·.pending)).append_right (b.tasks.drop s.cursor)
  have h₂ := (hafter.map (·.pending)).append_right (b.tasks.drop (s.cursor + 1))
  rw [List.map_cons, hidle, Batch.drop_tasks hu] at h₁
  rw [tasks, Batch.drop_tasks hu]
  exact h₁.trans ((List.perm_middle.cons _).trans (h₂.symm.cons _))

/-- Doing a step takes it from the front of a task. -/
theorem tasks_act {i : Nat} {w : Worker} {a : LoadStep} {rest : List LoadStep}
    (hw : s.workers[i]? = some w) (hbusy : w.pending = a :: rest) :
    ∃ others, (s.tasks b).Perm ((a :: rest) :: others) ∧
      (tasks b ⟨s.registry.perform a, s.cursor, s.workers.set i ⟨rest, w.stats⟩⟩).Perm
        (rest :: others) := by
  obtain ⟨hbefore, hafter⟩ := workers_perm hw ⟨rest, w.stats⟩
  have h₁ := (hbefore.map (·.pending)).append_right (b.tasks.drop s.cursor)
  have h₂ := (hafter.map (·.pending)).append_right (b.tasks.drop s.cursor)
  rw [List.map_cons, hbusy] at h₁
  exact ⟨_, h₁, h₂⟩

theorem Finished.interleaved (h : s.Finished b) : Interleaved (s.tasks b) [] := by
  have htaken : b.tasks.drop s.cursor = [] := List.drop_eq_nil_of_le (b.length_tasks ▸ h.1)
  rw [tasks, htaken, List.append_nil]
  have aux : ∀ ws : List Worker, (∀ w ∈ ws, w.pending = []) →
      Interleaved (ws.map (·.pending)) [] := by
    intro ws hidle
    induction ws with
    | nil => exact .nil
    | cons w ws ih =>
      rw [List.map_cons, hidle w (by simp)]
      exact .done (ih fun w' hw' => hidle w' (List.mem_cons_of_mem _ hw'))
  exact aux s.workers h.2

/-- A step takes the first element of a task, or it moves a task. -/
theorem Step.interleaved {trace : List LoadStep} (hs : Step b s s')
    (h : Interleaved (s'.tasks b) trace) :
    ∃ acts, Interleaved (s.tasks b) (acts ++ trace) ∧
      s'.registry = s.registry.performAll acts := by
  cases hs with
  | take i hw hidle hu => exact ⟨[], .perm (tasks_take hw hidle hu).symm (.done h), rfl⟩
  | @act i w a rest hw hbusy =>
    obtain ⟨others, hbefore, hafter⟩ := tasks_act (b := b) hw hbusy
    exact ⟨[a], .perm hbefore.symm (.step (.perm hafter h)), rfl⟩

/-- **A finished run interleaves what was to do.** -/
theorem Run.interleaved (hrun : Run b s s') (hs' : s'.Finished b) :
    ∃ trace, Interleaved (s.tasks b) trace ∧ s'.registry = s.registry.performAll trace := by
  -- from the end backwards, since a step puts what it does in front of what comes later
  induction hrun using Relation.ReflTransGen.head_induction_on with
  | refl => exact ⟨[], hs'.interleaved, rfl⟩
  | head hstep _ ih =>
    obtain ⟨trace, htrace, hreg⟩ := ih
    obtain ⟨acts, hacts, hstep⟩ := hstep.interleaved htrace
    refine ⟨acts ++ trace, hacts, ?_⟩
    rw [hreg, hstep, Registry.performAll, Registry.performAll, Registry.performAll,
      List.foldl_append]

/-! ## Counting -/

/-- The workers counted the units that were taken, each once. -/
theorem Run.stats_eq (hrun : Run b s s') (h : s.stats = .ofUnits (b.units.take s.cursor)) :
    s'.stats = .ofUnits (b.units.take s'.cursor) := by
  induction hrun with
  | refl => exact h
  | @tail s _ _ hstep ih =>
    cases hstep with
    | @take i w u hw _ hu =>
      obtain ⟨hbefore, hafter⟩ := workers_perm hw ⟨b.stepsOf s.cursor u, w.stats.add u.stats⟩
      have h₁ := LoadStats.sum_perm (hafter.map (·.stats))
      have h₂ := LoadStats.sum_perm (hbefore.map (·.stats))
      rw [List.map_cons, LoadStats.sum_cons] at h₁ h₂
      have htake : b.units.take (s.cursor + 1) = b.units.take s.cursor ++ [u] := by
        rw [List.take_add_one, hu]
        rfl
      rw [htake, LoadStats.ofUnits_concat, ← ih, Loader.stats, Loader.stats, h₁, h₂,
        LoadStats.add_assoc, LoadStats.add_assoc, LoadStats.add_comm u.stats]
    | @act i w a rest hw _ =>
      obtain ⟨hbefore, hafter⟩ := workers_perm hw ⟨rest, w.stats⟩
      have h₁ := LoadStats.sum_perm (hafter.map (·.stats))
      have h₂ := LoadStats.sum_perm (hbefore.map (·.stats))
      rw [List.map_cons] at h₁ h₂
      rw [← ih, Loader.stats, Loader.stats, h₁, h₂]

/-! ## Coming to an end -/

def left (b : Batch) (s : Loader) : Nat :=
  (s.tasks b).flatten.length + (b.units.length - s.cursor)

/-- **Every step leaves less to do**, so no run goes on forever. -/
theorem Step.left_lt (hs : Step b s s') : s'.left b < s.left b := by
  cases hs with
  | take i hw hidle hu =>
    have hlen := (tasks_take hw hidle hu).flatten.length_eq
    have hlt : s.cursor < b.units.length := (List.getElem?_eq_some_iff.1 hu).1
    rw [List.flatten_cons, List.nil_append] at hlen
    rw [left, left, hlen]
    dsimp only
    omega
  | @act i w a rest hw hbusy =>
    obtain ⟨others, hbefore, hafter⟩ := tasks_act (b := b) hw hbusy
    rw [left, left, hbefore.flatten.length_eq, hafter.flatten.length_eq]
    simp

theorem Step.workers_ne_nil (hs : Step b s s') (h : s.workers ≠ []) : s'.workers ≠ [] := by
  cases hs <;> simpa using h

/-- **A loader with a worker never gets stuck.** -/
theorem exists_step (hws : s.workers ≠ []) (h : ¬ s.Finished b) : ∃ s', Step b s s' := by
  by_cases hidle : ∀ w ∈ s.workers, w.pending = []
  · have hlt : s.cursor < b.units.length := by
      by_contra hge
      exact h ⟨Nat.not_lt.1 hge, hidle⟩
    obtain ⟨w, ws, hw⟩ := List.exists_cons_of_ne_nil hws
    exact ⟨_, .take 0 (by rw [hw]; rfl) (hidle w (by simp [hw])) (List.getElem?_eq_getElem hlt)⟩
  · push Not at hidle
    obtain ⟨w, hw, hbusy⟩ := hidle
    obtain ⟨i, hi⟩ := List.getElem?_of_mem hw
    obtain ⟨a, rest, hrest⟩ := List.exists_cons_of_ne_nil hbusy
    exact ⟨_, .act i hi hrest⟩

/-- **What was begun can be brought to its end.** -/
theorem exists_finished (hws : s.workers ≠ []) : ∃ s', Run b s s' ∧ s'.Finished b := by
  induction hn : s.left b using Nat.strongRecOn generalizing s with
  | ind n ih =>
    by_cases hfin : s.Finished b
    · exact ⟨s, .refl, hfin⟩
    · obtain ⟨s₁, hs₁⟩ := exists_step hws hfin
      obtain ⟨s', hrun, hs'⟩ := ih _ (hn ▸ hs₁.left_lt) (hs₁.workers_ne_nil hws) rfl
      exact ⟨s', .head hs₁ hrun, hs'⟩

end Loader

end Wiring
