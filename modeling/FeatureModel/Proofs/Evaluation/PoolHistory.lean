import FeatureModel.Proofs.Evaluation.Pool
import Mathlib.Data.List.Nodup

/-!
# What the workers of a pool have done

The events of a run tell which tasks were claimed and which were run.  Tasks are
claimed by number, in order and once, and a task that was claimed has been run
unless a worker still holds it.  The cursor passes the end of the batch by no more
than one place for each worker, as a worker that finds no task there stops.
-/

namespace FeatureModel
namespace Pool

def Event.claimed? : Event -> Option Nat
  | claimed _ task => some task
  | ran .. => none
  | stopped _ => none

def Event.ran? : Event -> Option Nat
  | claimed .. => none
  | ran _ task => some task
  | stopped _ => none

def claimedIn (events : List Event) : List Nat :=
  events.filterMap Event.claimed?

def ranIn (events : List Event) : List Nat :=
  events.filterMap Event.ran?

def Held (p : Pool) (task : Nat) : Prop :=
  exists worker : Nat, p.workers[worker]? = some (.holding task)

def stoppedCount (p : Pool) : Nat :=
  p.workers.toList.countP (fun w => decide (w = .stopped))

/-- What the events of a run say about the pool that it led to. -/
structure Accounts (batch : List Task) (events : List Event) (p : Pool) : Prop where
  claimedIn_eq : claimedIn events = List.range (min p.cursor batch.length)
  nodup_ranIn : (ranIn events).Nodup
  mem_ranIn_iff : forall t, t ∈ ranIn events <-> t < min p.cursor batch.length ∧ ¬ p.Held t
  /-- Only workers that stop move the cursor past the end of the batch. -/
  cursor_le : p.cursor ≤ batch.length + p.stoppedCount

theorem claimedIn_append (events : List Event) (event : Event) :
    claimedIn (events ++ [event]) = claimedIn events ++ event.claimed?.toList := by
  unfold claimedIn
  rw [List.filterMap_append]
  cases event <;> rfl

theorem ranIn_append (events : List Event) (event : Event) :
    ranIn (events ++ [event]) = ranIn events ++ event.ran?.toList := by
  unfold ranIn
  rw [List.filterMap_append]
  cases event <;> rfl

/-!
## A worker that changes
-/

section SetWorker

variable {p : Pool} {worker : Nat} {old new : Worker}

theorem held_setWorker_iff (h : p.workers[worker]? = some old) {t : Nat} :
    (p.setWorker worker new).Held t <->
      new = .holding t ∨ exists w : Nat, w ≠ worker ∧ p.workers[w]? = some (.holding t) := by
  unfold Held
  simp only [getElem?_setWorker h]
  constructor
  · intro hheld
    rcases hheld with ⟨w, hw⟩
    split at hw
    · exact Or.inl (Option.some.inj hw)
    · next hother => exact Or.inr ⟨w, hother, hw⟩
  · intro hheld
    rcases hheld with hnew | ⟨w, hother, hw⟩
    · exact ⟨worker, by rw [if_pos rfl, hnew]⟩
    · exact ⟨w, by rw [if_neg hother, hw]⟩

theorem held_setWorker_of_idle (h : p.workers[worker]? = some .idle) {t : Nat} :
    (p.setWorker worker new).Held t <-> new = .holding t ∨ p.Held t := by
  rw [held_setWorker_iff h]
  constructor
  · intro hheld
    rcases hheld with hnew | ⟨w, _, hw⟩
    · exact Or.inl hnew
    · exact Or.inr ⟨w, hw⟩
  · intro hheld
    rcases hheld with hnew | ⟨w, hw⟩
    · exact Or.inl hnew
    · refine Or.inr ⟨w, ?_, hw⟩
      intro heq
      rw [heq, h] at hw
      cases hw

theorem stoppedCount_setWorker (h : p.workers[worker]? = some old) (hold : old ≠ .stopped) :
    (p.setWorker worker new).stoppedCount =
      p.stoppedCount + if new = .stopped then 1 else 0 := by
  rcases Array.getElem?_eq_some_iff.mp h with ⟨hlt, hget⟩
  unfold stoppedCount setWorker
  rw [Array.toList_setIfInBounds, List.countP_set hlt, Array.getElem_toList, hget]
  simp [hold]

theorem stoppedCount_le (p : Pool) : p.stoppedCount ≤ p.workers.size :=
  List.countP_le_length

end SetWorker

/-!
## What each step adds
-/

section Steps

variable {batch : List Task} {events : List Event} {p : Pool} {worker : Nat}

theorem accounts_start (batch : List Task) (workers : Nat) :
    Accounts batch [] (start batch.toArray workers) where
  claimedIn_eq := by
    show [] = List.range (min 0 batch.length)
    rw [Nat.zero_min]
    rfl
  nodup_ranIn := List.nodup_nil
  mem_ranIn_iff t := by
    show t ∈ [] <-> t < min 0 batch.length ∧ _
    simp
  cursor_le := Nat.zero_le _

theorem Accounts.claim (h : Accounts batch events p) (htracks : Tracks batch p)
    (hidle : p.workers[worker]? = some .idle) (hcursor : p.cursor < p.tasks.size) :
    Accounts batch (events ++ [.claimed worker p.cursor])
      (setWorker { p with cursor := p.cursor + 1 } worker (.holding p.cursor)) := by
  have hlt : p.cursor < batch.length := htracks.size_tasks ▸ hcursor
  have hmin : min p.cursor batch.length = p.cursor := Nat.min_eq_left (Nat.le_of_lt hlt)
  have hmin' : min (p.cursor + 1) batch.length = p.cursor + 1 := Nat.min_eq_left hlt
  refine
    { claimedIn_eq := ?_, nodup_ranIn := ?_, mem_ranIn_iff := ?_, cursor_le := ?_ }
  · show claimedIn (events ++ [.claimed worker p.cursor]) =
      List.range (min (p.cursor + 1) batch.length)
    rw [claimedIn_append, hmin', List.range_succ, h.claimedIn_eq, hmin]
    rfl
  · rw [ranIn_append]
    show (ranIn events ++ []).Nodup
    rw [List.append_nil]
    exact h.nodup_ranIn
  · intro t
    show _ <-> t < min (p.cursor + 1) batch.length ∧ _
    rw [ranIn_append, held_setWorker_of_idle (p := { p with cursor := p.cursor + 1 }) hidle, hmin']
    show t ∈ ranIn events ++ [] <->
      t < p.cursor + 1 ∧ ¬ (Worker.holding p.cursor = .holding t ∨ p.Held t)
    rw [List.append_nil, h.mem_ranIn_iff, hmin, Worker.holding.injEq, not_or]
    constructor
    · intro hran
      exact ⟨Nat.lt_succ_of_lt hran.left, Nat.ne_of_gt hran.left, hran.right⟩
    · intro hran
      exact ⟨Nat.lt_of_le_of_ne (Nat.le_of_lt_succ hran.left) (Ne.symm hran.right.left),
        hran.right.right⟩
  · show p.cursor + 1 ≤ _
    exact Nat.le_trans hlt (Nat.le_add_right _ _)

theorem Accounts.stop (h : Accounts batch events p) (htracks : Tracks batch p)
    (hidle : p.workers[worker]? = some .idle) (hcursor : p.tasks.size ≤ p.cursor) :
    Accounts batch (events ++ [.stopped worker])
      (setWorker { p with cursor := p.cursor + 1 } worker .stopped) := by
  have hle : batch.length ≤ p.cursor := htracks.size_tasks ▸ hcursor
  have hmin : min (p.cursor + 1) batch.length = min p.cursor batch.length := by
    rw [Nat.min_eq_right hle, Nat.min_eq_right (Nat.le_succ_of_le hle)]
  refine
    { claimedIn_eq := ?_, nodup_ranIn := ?_, mem_ranIn_iff := ?_, cursor_le := ?_ }
  · show _ = List.range (min (p.cursor + 1) batch.length)
    rw [claimedIn_append, hmin, <- h.claimedIn_eq]
    exact List.append_nil _
  · rw [ranIn_append]
    show (ranIn events ++ []).Nodup
    rw [List.append_nil]
    exact h.nodup_ranIn
  · intro t
    show _ <-> t < min (p.cursor + 1) batch.length ∧ _
    rw [ranIn_append, held_setWorker_of_idle (p := { p with cursor := p.cursor + 1 }) hidle, hmin]
    show t ∈ ranIn events ++ [] <->
      t < min p.cursor batch.length ∧ ¬ (Worker.stopped = .holding t ∨ p.Held t)
    rw [List.append_nil, h.mem_ranIn_iff]
    simp
  · show p.cursor + 1 ≤ _
    rw [stoppedCount_setWorker (p := { p with cursor := p.cursor + 1 }) hidle (by simp), if_pos rfl]
    exact Nat.succ_le_succ h.cursor_le

theorem Accounts.ran (h : Accounts batch events p) (htracks : Tracks batch p) {task : Nat}
    (hholds : p.workers[worker]? = some (.holding task)) :
    Accounts batch (events ++ [.ran worker task])
      (setWorker { p with tasks := p.tasks.modify task Task.run } worker .idle) := by
  have hheld : forall t,
      (setWorker { p with tasks := p.tasks.modify task Task.run } worker .idle).Held t <->
        p.Held t ∧ t ≠ task := by
    intro t
    rw [held_setWorker_iff (p := { p with tasks := p.tasks.modify task Task.run }) hholds]
    constructor
    · intro hheld
      rcases hheld with hidle | ⟨w, hother, hw⟩
      · cases hidle
      · refine ⟨⟨w, hw⟩, ?_⟩
        intro heq
        rw [heq] at hw
        exact hother (htracks.held_once w worker task hw hholds)
    · intro hheld
      rcases hheld with ⟨⟨w, hw⟩, hne⟩
      refine Or.inr ⟨w, ?_, hw⟩
      intro heq
      rw [heq, hholds] at hw
      cases hw
      exact hne rfl
  have hlt : task < min p.cursor batch.length := Nat.lt_min.mpr (htracks.held_lt worker task hholds)
  have hfresh : task ∉ ranIn events := by
    intro hran
    exact ((h.mem_ranIn_iff task).mp hran).right ⟨worker, hholds⟩
  refine
    { claimedIn_eq := ?_, nodup_ranIn := ?_, mem_ranIn_iff := ?_, cursor_le := ?_ }
  · rw [claimedIn_append]
    exact (List.append_nil _).trans h.claimedIn_eq
  · rw [ranIn_append]
    show (ranIn events ++ [task]).Nodup
    rw [<- List.concat_eq_append]
    exact h.nodup_ranIn.concat hfresh
  · intro t
    rw [ranIn_append, hheld]
    show t ∈ ranIn events ++ [task] <-> t < min p.cursor batch.length ∧ _
    rw [List.mem_append, List.mem_singleton, h.mem_ranIn_iff]
    constructor
    · intro hran
      rcases hran with ⟨hpassed, hfree⟩ | heq
      · exact ⟨hpassed, fun hheld => hfree hheld.left⟩
      · rw [heq]
        exact ⟨hlt, fun hheld => hheld.right rfl⟩
    · intro hran
      by_cases heq : t = task
      · exact Or.inr heq
      · exact Or.inl ⟨hran.left, fun hheld => hran.right ⟨hheld, heq⟩⟩
  · show p.cursor ≤ _
    rw [stoppedCount_setWorker (p := { p with tasks := p.tasks.modify task Task.run }) hholds
      (by simp)]
    exact h.cursor_le

theorem Accounts.step {next : Pool} {event : Event} (h : Accounts batch events p)
    (htracks : Tracks batch p) (hstep : p.step? worker = some (event, next)) :
    Accounts batch (events ++ [event]) next := by
  rcases step?_cases hstep with
    ⟨hidle, hcursor, hevent, heq⟩ | ⟨hidle, hcursor, hevent, heq⟩ | ⟨task, hholds, hevent, heq⟩
  · rw [hevent, heq]
    exact h.claim htracks hidle hcursor
  · rw [hevent, heq]
    exact h.stop htracks hidle hcursor
  · rw [hevent, heq]
    exact h.ran htracks hholds

end Steps

/-!
## Runs
-/

section Runs

variable {batch : List Task} {workers : Nat} {events : List Event} {p : Pool}

theorem accounts_of_run (hrun : Run (start batch.toArray workers) events p) :
    Accounts batch events p := by
  induction hrun with
  | start => exact accounts_start batch workers
  | step hrun hstep ih => exact ih.step ((tracks_start batch workers).run hrun) hstep

/-- Every step of a run uses up some of the work. -/
theorem length_add_work_le {q : Pool} (hrun : Run p events q) :
    events.length + q.work ≤ p.work := by
  induction hrun with
  | start => simp
  | step _ hstep ih =>
      have hless := work_lt_of_step hstep
      rw [List.length_append, List.length_singleton]
      omega

theorem work_start (tasks : Array Task) (workers : Nat) :
    (start tasks workers).work = workers + 2 * tasks.size := by
  have hsteps : stepsOf (List.replicate workers .idle) = workers := by
    induction workers with
    | zero => rfl
    | succ n ih =>
        rw [List.replicate_succ, stepsOf, ih]
        exact Nat.add_comm 1 n
  rw [work_eq]
  show stepsOf (Array.replicate workers Worker.idle).toList + 2 * (tasks.size - 0) = _
  rw [Array.toList_replicate, hsteps, Nat.sub_zero]

theorem exists_step_of_not_isDrained (h : p.isDrained = false) :
    exists worker event next, p.step? worker = some (event, next) := by
  by_contra hnone
  have hdrained : p.isDrained = true := by
    rw [isDrained_iff]
    intro w
    cases hstep : p.step? w with
    | none => rfl
    | some result => exact absurd ⟨w, result.1, result.2, hstep⟩ hnone
  rw [h] at hdrained
  cases hdrained

theorem not_held_of_isDrained (h : p.isDrained = true) (t : Nat) : ¬ p.Held t := by
  intro hheld
  rcases hheld with ⟨w, hw⟩
  cases eq_stopped_of_isDrained h hw

theorem ranIn_perm_of_isDrained (hworkers : 0 < workers)
    (hrun : Run (start batch.toArray workers) events p) (hdrained : p.isDrained = true) :
    (ranIn events).Perm (List.range batch.length) := by
  have haccounts := accounts_of_run hrun
  have htracks := (tracks_start batch workers).run hrun
  have hpast : batch.length ≤ p.cursor := htracks.length_le_cursor_of_isDrained
    (by rw [size_workers_run hrun]; simpa [start] using hworkers) hdrained
  rw [List.perm_ext_iff_of_nodup haccounts.nodup_ranIn List.nodup_range]
  intro t
  rw [haccounts.mem_ranIn_iff, Nat.min_eq_right hpast, List.mem_range]
  exact and_iff_left (not_held_of_isDrained hdrained t)

/-- However the steps of the workers follow one another, no task is claimed twice, the tasks that
are claimed are those that the cursor has passed, and the cursor passes the end of the batch by no
more than the number of workers.  The steps come to an end; then each task has been run once, and
the tasks are as if they had been run one after another. -/
theorem run_takes_each_task_once (hworkers : 0 < workers)
    (hrun : Run (start batch.toArray workers) events p) :
    (claimedIn events).Nodup ∧
      (forall t, t ∈ claimedIn events <-> t < min p.cursor batch.length) ∧
      p.cursor ≤ batch.length + workers ∧
      events.length ≤ workers + 2 * batch.length ∧
      (p.isDrained = false -> exists worker event next, p.step? worker = some (event, next)) ∧
      (p.isDrained = true ->
        (ranIn events).Perm (List.range batch.length) ∧
          p.tasks.toList = Executor.sequential.execute batch ∧
          forall threads, (Executor.pool threads).execute batch = p.tasks.toList) := by
  have haccounts := accounts_of_run hrun
  refine ⟨?_, ?_, ?_, ?_, exists_step_of_not_isDrained, ?_⟩
  · rw [haccounts.claimedIn_eq]
    exact List.nodup_range
  · intro t
    rw [haccounts.claimedIn_eq, List.mem_range]
  · have hsize : p.workers.size = workers := by
      rw [size_workers_run hrun]
      exact Array.size_replicate
    exact Nat.le_trans haccounts.cursor_le
      (Nat.add_le_add_left (hsize ▸ stoppedCount_le p) batch.length)
  · have hwork := length_add_work_le hrun
    rw [work_start, List.size_toArray] at hwork
    exact Nat.le_trans (Nat.le_add_right _ _) hwork
  · intro hdrained
    have htasks := tasks_eq_of_run hworkers hrun hdrained
    refine ⟨ranIn_perm_of_isDrained hworkers hrun hdrained, htasks, ?_⟩
    intro threads
    rw [Executor.execute_eq_map_run, htasks]

/-- Three workers on two tasks, the second of them run before: one worker finds nothing to claim and
stops before any task is run, and the tasks are run in the other order. -/
theorem run_takes_each_task_once_out_of_order :
    let found : Task :=
      { graph := Graph.empty
        job := .graph { id := "a", evaluate := fun _ => .ok [{ guids := [7], message := "found" }] } }
    let failed : Task :=
      { graph := Graph.empty
        job := .graph { id := "b", evaluate := fun _ => .ok [] }
        state := .failed
        failure := some .undescribed }
    let events : List Event :=
      [.claimed 1 0, .claimed 2 1, .stopped 0, .ran 2 1, .stopped 2, .ran 1 0, .stopped 1]
    exists p, Run (start [found, failed].toArray 3) events p ∧ p.cursor = 5 ∧
      p.tasks.toList.map Task.state = [.succeeded, .failed] ∧
      (ranIn events).Perm (List.range 2) ∧
        p.tasks.toList = Executor.sequential.execute [found, failed] := by
  intro found failed events
  have hrun := run_foldl_advance [1, 2, 0, 2, 2, 1, 1] (start [found, failed].toArray 3)
  have hevents : eventsOf (start [found, failed].toArray 3) [1, 2, 0, 2, 2, 1, 1] = events := by
    decide +kernel
  rw [hevents] at hrun
  rcases (run_takes_each_task_once (by decide) hrun).right.right.right.right.right
    (by decide +kernel) with ⟨hran, htasks, _⟩
  exact ⟨_, hrun, by decide +kernel, by decide +kernel, hran, htasks⟩

end Runs

end Pool
end FeatureModel
