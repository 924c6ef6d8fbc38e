import FeatureModel.Evaluation.Executor

/-!
# Runs of a worker pool

However the steps of the workers follow one another, a task is untouched until
the cursor has passed it, then held by one worker, and from then on run.  So a
pool whose workers have all stopped has run every task, and a pool that goes on
in rounds comes to that.
-/

namespace FeatureModel
namespace Pool

/-- A run: steps of workers in any order, with what happened in them. -/
inductive Run (p : Pool) : List Event -> Pool -> Prop where
  | start : Run p [] p
  | step {events : List Event} {q next : Pool} {worker : Nat} {event : Event} :
      Run p events q -> q.step? worker = some (event, next) -> Run p (events ++ [event]) next

theorem Run.trans {p q r : Pool} {events more : List Event} (hpq : Run p events q)
    (hqr : Run q more r) : Run p (events ++ more) r := by
  induction hqr with
  | start =>
      rw [List.append_nil]
      exact hpq
  | step _ hstep ih =>
      rw [<- List.append_assoc]
      exact Run.step ih hstep

/-!
## What one step does
-/

def setWorker (p : Pool) (worker : Nat) (state : Worker) : Pool :=
  { p with workers := p.workers.setIfInBounds worker state }

theorem step?_cases {p next : Pool} {worker : Nat} {event : Event}
    (h : p.step? worker = some (event, next)) :
    (p.workers[worker]? = some .idle ∧ p.cursor < p.tasks.size ∧
        event = .claimed worker p.cursor ∧
        next = setWorker { p with cursor := p.cursor + 1 } worker (.holding p.cursor)) ∨
      (p.workers[worker]? = some .idle ∧ p.tasks.size ≤ p.cursor ∧ event = .stopped worker ∧
        next = setWorker { p with cursor := p.cursor + 1 } worker .stopped) ∨
      exists task, p.workers[worker]? = some (.holding task) ∧ event = .ran worker task ∧
        next = setWorker { p with tasks := p.tasks.modify task Task.run } worker .idle := by
  unfold step? at h
  cases hworker : p.workers[worker]? with
  | none =>
      rw [hworker] at h
      cases h
  | some state =>
      rw [hworker] at h
      cases state with
      | idle =>
          by_cases hcursor : p.cursor < p.tasks.size
          · simp only [hcursor, if_true] at h
            cases h
            exact Or.inl ⟨rfl, hcursor, rfl, rfl⟩
          · simp only [hcursor, if_false] at h
            cases h
            exact Or.inr (Or.inl ⟨rfl, Nat.le_of_not_lt hcursor, rfl, rfl⟩)
      | holding task =>
          cases h
          exact Or.inr (Or.inr ⟨task, rfl, rfl, rfl⟩)
      | stopped => cases h

theorem step?_eq_none_iff {p : Pool} {worker : Nat} :
    p.step? worker = none <->
      p.workers[worker]? = none ∨ p.workers[worker]? = some .stopped := by
  unfold step?
  cases p.workers[worker]? with
  | none => simp
  | some state =>
      cases state with
      | idle =>
          by_cases hcursor : p.cursor < p.tasks.size <;> simp [hcursor]
      | holding task => simp
      | stopped => simp

theorem getElem?_setWorker {p : Pool} {worker : Nat} {old state : Worker}
    (h : p.workers[worker]? = some old) (other : Nat) :
    (p.setWorker worker state).workers[other]? =
      if other = worker then some state else p.workers[other]? := by
  have hlt : worker < p.workers.size := (Array.getElem?_eq_some_iff.mp h).1
  unfold setWorker
  rw [Array.getElem?_setIfInBounds]
  by_cases hother : worker = other
  · rw [if_pos hother, if_pos hother.symm, if_pos (hother ▸ hlt)]
  · rw [if_neg hother, if_neg (Ne.symm hother)]

theorem size_workers_step {p next : Pool} {worker : Nat} {event : Event}
    (h : p.step? worker = some (event, next)) : next.workers.size = p.workers.size := by
  rcases step?_cases h with ⟨_, _, _, heq⟩ | ⟨_, _, _, heq⟩ | ⟨task, _, _, heq⟩
  all_goals
    rw [heq]
    simp [setWorker]

/-!
## The tasks of a batch in a pool
-/

/-- What holds of a pool whose workers started on a batch. -/
structure Tracks (batch : List Task) (p : Pool) : Prop where
  size_tasks : p.tasks.size = batch.length
  held_lt : forall (w t : Nat), p.workers[w]? = some (Worker.holding t) ->
    t < p.cursor ∧ t < batch.length
  held_once : forall (v w t : Nat), p.workers[v]? = some (Worker.holding t) ->
    p.workers[w]? = some (Worker.holding t) -> v = w
  held_fresh : forall (w t : Nat), p.workers[w]? = some (Worker.holding t) ->
    p.tasks[t]? = batch[t]?
  untouched : forall (t : Nat), p.cursor ≤ t -> p.tasks[t]? = batch[t]?
  finished : forall (t : Nat), t < p.cursor ->
    (forall (w : Nat), p.workers[w]? ≠ some (Worker.holding t)) ->
      p.tasks[t]? = batch[t]?.map Task.run
  /-- A worker stops only when the cursor has passed all tasks. -/
  stopped : forall (w : Nat), p.workers[w]? = some Worker.stopped -> batch.length ≤ p.cursor

theorem tracks_start (batch : List Task) (workers : Nat) :
    Tracks batch (start batch.toArray workers) := by
  have hidle : forall (w : Nat) (state : Worker),
      (start batch.toArray workers).workers[w]? = some state -> state = .idle := by
    intro w state h
    unfold start at h
    rw [Array.getElem?_replicate] at h
    split at h
    · cases h
      rfl
    · cases h
  exact
    { size_tasks := by simp [start]
      held_lt := fun w t h => by cases hidle w _ h
      held_once := fun v w t h => by cases hidle v _ h
      held_fresh := fun w t h => by cases hidle w _ h
      untouched := fun t _ => by simp [start]
      finished := fun t h => absurd h (Nat.not_lt_zero t)
      stopped := fun w h => by cases hidle w _ h }

theorem Tracks.claim {batch : List Task} {p : Pool} (h : Tracks batch p) {worker : Nat}
    (hidle : p.workers[worker]? = some .idle) (hcursor : p.cursor < p.tasks.size) :
    Tracks batch (setWorker { p with cursor := p.cursor + 1 } worker (.holding p.cursor)) := by
  have hworkers : forall w : Nat,
      (setWorker { p with cursor := p.cursor + 1 } worker (.holding p.cursor)).workers[w]? =
        if w = worker then some (.holding p.cursor) else p.workers[w]? :=
    getElem?_setWorker (p := { p with cursor := p.cursor + 1 }) hidle
  have hsize := h.size_tasks
  refine
    { size_tasks := h.size_tasks
      held_lt := ?_, held_once := ?_, held_fresh := ?_, untouched := ?_, finished := ?_
      stopped := ?_ }
  · intro w t hw
    rw [hworkers] at hw
    show t < p.cursor + 1 ∧ _
    split at hw
    · cases hw
      exact ⟨Nat.lt_succ_self _, hsize ▸ hcursor⟩
    · have hlt := h.held_lt w t hw
      exact ⟨Nat.lt_succ_of_lt hlt.left, hlt.right⟩
  · intro v w t hv hw
    rw [hworkers] at hv hw
    split at hv <;> split at hw
    · next hvw hww => rw [hvw, hww]
    · cases hv
      exact absurd (h.held_lt w p.cursor hw).left (Nat.lt_irrefl _)
    · cases hw
      exact absurd (h.held_lt v p.cursor hv).left (Nat.lt_irrefl _)
    · exact h.held_once v w t hv hw
  · intro w t hw
    rw [hworkers] at hw
    split at hw
    · cases hw
      exact h.untouched p.cursor (Nat.le_refl _)
    · exact h.held_fresh w t hw
  · intro t ht
    exact h.untouched t (Nat.le_of_succ_le ht)
  · intro t ht hfree
    have hne : t ≠ p.cursor := by
      intro heq
      have hholds := hfree worker
      rw [hworkers, if_pos rfl, heq] at hholds
      exact hholds rfl
    apply h.finished t (Nat.lt_of_le_of_ne (Nat.le_of_lt_succ ht) hne)
    intro w hw
    have hholds := hfree w
    rw [hworkers] at hholds
    split at hholds
    · next hww =>
        rw [hww, hidle] at hw
        cases hw
    · exact hholds hw
  · intro w hw
    rw [hworkers] at hw
    split at hw
    · cases hw
    · exact Nat.le_succ_of_le (h.stopped w hw)

theorem Tracks.stop {batch : List Task} {p : Pool} (h : Tracks batch p) {worker : Nat}
    (hidle : p.workers[worker]? = some .idle) (hcursor : p.tasks.size ≤ p.cursor) :
    Tracks batch (setWorker { p with cursor := p.cursor + 1 } worker .stopped) := by
  have hworkers : forall w : Nat,
      (setWorker { p with cursor := p.cursor + 1 } worker .stopped).workers[w]? =
        if w = worker then some .stopped else p.workers[w]? :=
    getElem?_setWorker (p := { p with cursor := p.cursor + 1 }) hidle
  have hholding : forall w t : Nat,
      (setWorker { p with cursor := p.cursor + 1 } worker .stopped).workers[w]? =
          some (.holding t) <->
        p.workers[w]? = some (.holding t) := by
    intro w t
    rw [hworkers]
    split
    · next hww => simp [hww, hidle]
    · rfl
  have hsize := h.size_tasks
  refine
    { size_tasks := h.size_tasks
      held_lt := ?_, held_once := ?_, held_fresh := ?_, untouched := ?_, finished := ?_
      stopped := ?_ }
  · intro w t hw
    have hlt := h.held_lt w t ((hholding w t).mp hw)
    exact ⟨Nat.lt_succ_of_lt hlt.left, hlt.right⟩
  · intro v w t hv hw
    exact h.held_once v w t ((hholding v t).mp hv) ((hholding w t).mp hw)
  · intro w t hw
    exact h.held_fresh w t ((hholding w t).mp hw)
  · intro t ht
    exact h.untouched t (Nat.le_of_succ_le ht)
  · intro t ht hfree
    rcases Nat.lt_or_ge t p.cursor with hlt | hge
    · exact h.finished t hlt (fun w hw => hfree w ((hholding w t).mpr hw))
    · -- The cursor is past the end, so there is no task of this number.
      have hnone : batch[t]? = none := List.getElem?_eq_none (hsize ▸ Nat.le_trans hcursor hge)
      have huntouched := h.untouched t hge
      rw [hnone] at huntouched ⊢
      exact huntouched
  · intro w _
    rw [<- hsize]
    exact Nat.le_succ_of_le hcursor

theorem Tracks.ran {batch : List Task} {p : Pool} (h : Tracks batch p) {worker task : Nat}
    (hholds : p.workers[worker]? = some (.holding task)) :
    Tracks batch (setWorker { p with tasks := p.tasks.modify task Task.run } worker .idle) := by
  have hworkers : forall w : Nat,
      (setWorker { p with tasks := p.tasks.modify task Task.run } worker .idle).workers[w]? =
        if w = worker then some .idle else p.workers[w]? :=
    getElem?_setWorker (p := { p with tasks := p.tasks.modify task Task.run }) hholds
  have hholding : forall w t : Nat,
      (setWorker { p with tasks := p.tasks.modify task Task.run } worker .idle).workers[w]? =
          some (.holding t) <->
        w ≠ worker ∧ p.workers[w]? = some (.holding t) := by
    intro w t
    rw [hworkers]
    by_cases hww : w = worker <;> simp [hww]
  have htasks : forall t : Nat,
      (setWorker { p with tasks := p.tasks.modify task Task.run } worker .idle).tasks[t]? =
        if task = t then p.tasks[t]?.map Task.run else p.tasks[t]? := by
    intro t
    show (p.tasks.modify task Task.run)[t]? = _
    rw [Array.getElem?_modify]
  refine
    { size_tasks := ?_, held_lt := ?_, held_once := ?_, held_fresh := ?_, untouched := ?_
      finished := ?_, stopped := ?_ }
  · show (p.tasks.modify task Task.run).size = batch.length
    rw [Array.size_modify]
    exact h.size_tasks
  · intro w t hw
    exact h.held_lt w t ((hholding w t).mp hw).right
  · intro v w t hv hw
    exact h.held_once v w t ((hholding v t).mp hv).right ((hholding w t).mp hw).right
  · intro w t hw
    have hold := (hholding w t).mp hw
    have hne : task ≠ t := by
      intro heq
      rw [heq] at hholds
      exact hold.left (h.held_once w worker t hold.right hholds)
    rw [htasks, if_neg hne]
    exact h.held_fresh w t hold.right
  · intro t ht
    have hlt : task < p.cursor := (h.held_lt worker task hholds).left
    have hge : p.cursor ≤ t := ht
    rw [htasks, if_neg (Nat.ne_of_lt (Nat.lt_of_lt_of_le hlt hge))]
    exact h.untouched t hge
  · intro t ht hfree
    rw [htasks]
    by_cases heq : task = t
    · rw [if_pos heq, <- heq, h.held_fresh worker task hholds]
    · rw [if_neg heq]
      apply h.finished t ht
      intro w hw
      by_cases hww : w = worker
      · rw [hww, hholds] at hw
        cases hw
        exact heq rfl
      · exact hfree w ((hholding w t).mpr ⟨hww, hw⟩)
  · intro w hw
    rw [hworkers] at hw
    split at hw
    · cases hw
    · exact h.stopped w hw

theorem Tracks.step {batch : List Task} {p next : Pool} (h : Tracks batch p) {worker : Nat}
    {event : Event} (hstep : p.step? worker = some (event, next)) : Tracks batch next := by
  rcases step?_cases hstep with
    ⟨hidle, hcursor, _, heq⟩ | ⟨hidle, hcursor, _, heq⟩ | ⟨task, hholds, _, heq⟩
  · rw [heq]
    exact h.claim hidle hcursor
  · rw [heq]
    exact h.stop hidle hcursor
  · rw [heq]
    exact h.ran hholds

theorem Tracks.run {batch : List Task} {p q : Pool} (h : Tracks batch p) {events : List Event}
    (hrun : Run p events q) : Tracks batch q := by
  induction hrun with
  | start => exact h
  | step _ hstep ih => exact ih.step hstep

theorem size_workers_run {p q : Pool} {events : List Event} (hrun : Run p events q) :
    q.workers.size = p.workers.size := by
  induction hrun with
  | start => rfl
  | step _ hstep ih => rw [size_workers_step hstep, ih]

/-!
## Pools whose workers have stopped
-/

theorem isDrained_iff {p : Pool} :
    p.isDrained = true <-> forall w, p.step? w = none := by
  unfold isDrained
  rw [Array.all_eq_true]
  constructor
  · intro h w
    rw [step?_eq_none_iff]
    by_cases hw : w < p.workers.size
    · right
      rw [Array.getElem?_eq_getElem hw, of_decide_eq_true (h w hw)]
    · left
      exact Array.getElem?_eq_none (Nat.le_of_not_lt hw)
  · intro h w hw
    rcases step?_eq_none_iff.mp (h w) with hnone | hstopped
    · rw [Array.getElem?_eq_getElem hw] at hnone
      cases hnone
    · rw [Array.getElem?_eq_getElem hw] at hstopped
      exact decide_eq_true (Option.some.inj hstopped)

theorem eq_stopped_of_isDrained {p : Pool} (h : p.isDrained = true) {w : Nat} {state : Worker}
    (hw : p.workers[w]? = some state) : state = .stopped := by
  rcases step?_eq_none_iff.mp (isDrained_iff.mp h w) with hnone | hstop
  · rw [hw] at hnone
    cases hnone
  · rw [hw] at hstop
    exact Option.some.inj hstop

theorem Tracks.length_le_cursor_of_isDrained {batch : List Task} {p : Pool} (h : Tracks batch p)
    (hworkers : 0 < p.workers.size) (hdrained : p.isDrained = true) :
    batch.length ≤ p.cursor := by
  have hfirst := Array.getElem?_eq_getElem hworkers
  rw [eq_stopped_of_isDrained hdrained hfirst] at hfirst
  exact h.stopped 0 hfirst

theorem Tracks.tasks_eq_of_isDrained {batch : List Task} {p : Pool} (h : Tracks batch p)
    (hworkers : 0 < p.workers.size) (hdrained : p.isDrained = true) :
    p.tasks.toList = batch.map Task.run := by
  have hpast := h.length_le_cursor_of_isDrained hworkers hdrained
  apply List.ext_getElem?
  intro t
  rw [Array.getElem?_toList, List.getElem?_map]
  rcases Nat.lt_or_ge t p.cursor with hlt | hge
  · exact h.finished t hlt (fun w hw => by cases eq_stopped_of_isDrained hdrained hw)
  · rw [h.untouched t hge, List.getElem?_eq_none (Nat.le_trans hpast hge)]
    rfl

/-!
## Every round uses up some of the work
-/

def stepsOf : List Worker -> Nat
  | [] => 0
  | w :: rest => stepsLeft w + stepsOf rest

theorem work_eq (p : Pool) :
    p.work = stepsOf p.workers.toList + 2 * (p.tasks.size - p.cursor) := by
  unfold work
  induction p.workers.toList with
  | nil => rw [List.foldr_nil, stepsOf, Nat.zero_add]
  | cons w rest ih => rw [List.foldr_cons, ih, stepsOf, Nat.add_assoc]

theorem stepsOf_set {ws : List Worker} {i : Nat} {old : Worker} (new : Worker)
    (h : ws[i]? = some old) :
    stepsOf (ws.set i new) + stepsLeft old = stepsOf ws + stepsLeft new := by
  induction ws generalizing i with
  | nil => cases h
  | cons w rest ih =>
      cases i with
      | zero =>
          cases h
          simp only [List.set_cons_zero, stepsOf]
          omega
      | succ i =>
          have hrest := ih h
          simp only [List.set_cons_succ, stepsOf]
          omega

theorem work_setWorker {p : Pool} {worker : Nat} {old : Worker} (new : Worker)
    (h : p.workers[worker]? = some old) :
    (p.setWorker worker new).work + stepsLeft old = p.work + stepsLeft new := by
  have hlist : p.workers.toList[worker]? = some old := by
    rw [Array.getElem?_toList]
    exact h
  have hsteps := stepsOf_set new hlist
  rw [work_eq, work_eq]
  simp only [setWorker, Array.toList_setIfInBounds]
  omega

theorem work_lt_of_step {p next : Pool} {worker : Nat} {event : Event}
    (h : p.step? worker = some (event, next)) : next.work < p.work := by
  rcases step?_cases h with
    ⟨hidle, hcursor, _, heq⟩ | ⟨hidle, hcursor, _, heq⟩ | ⟨task, hholds, _, heq⟩
  · have hwork := work_setWorker (p := { p with cursor := p.cursor + 1 })
      (.holding p.cursor) hidle
    rw [work_eq { p with cursor := p.cursor + 1 }] at hwork
    rw [heq, work_eq p]
    simp only [stepsLeft] at hwork
    omega
  · have hwork := work_setWorker (p := { p with cursor := p.cursor + 1 }) .stopped hidle
    rw [work_eq { p with cursor := p.cursor + 1 }] at hwork
    rw [heq, work_eq p]
    simp only [stepsLeft] at hwork
    omega
  · have hwork := work_setWorker (p := { p with tasks := p.tasks.modify task Task.run })
      .idle hholds
    rw [work_eq { p with tasks := p.tasks.modify task Task.run }] at hwork
    rw [heq, work_eq p]
    simp only [stepsLeft, Array.size_modify] at hwork
    omega

theorem work_foldl_advance (ws : List Nat) (p : Pool) :
    (ws.foldl advance p).work < p.work ∨
      (ws.foldl advance p = p ∧ forall w, w ∈ ws -> p.step? w = none) := by
  induction ws generalizing p with
  | nil => exact Or.inr ⟨rfl, fun w hw => by cases hw⟩
  | cons w rest ih =>
      rw [List.foldl_cons]
      cases hstep : p.step? w with
      | none =>
          have hsame : p.advance w = p := by unfold advance; rw [hstep]
          rw [hsame]
          rcases ih p with hless | ⟨heq, hnone⟩
          · exact Or.inl hless
          · refine Or.inr ⟨heq, ?_⟩
            intro v hv
            rcases List.mem_cons.mp hv with hvw | hrest
            · rw [hvw]
              exact hstep
            · exact hnone v hrest
      | some result =>
          have hnext : p.advance w = result.2 := by unfold advance; rw [hstep]
          have hless : result.2.work < p.work := work_lt_of_step hstep
          rw [hnext]
          rcases ih result.2 with hmore | ⟨heq, _⟩
          · exact Or.inl (Nat.lt_trans hmore hless)
          · rw [heq]
            exact Or.inl hless

theorem work_round_lt {p : Pool} (h : p.isDrained = false) : p.round.work < p.work := by
  rcases work_foldl_advance (List.range p.workers.size) p with hless | ⟨_, hnone⟩
  · exact hless
  · have hdrained : p.isDrained = true := by
      rw [isDrained_iff]
      intro w
      by_cases hw : w < p.workers.size
      · exact hnone w (List.mem_range.mpr hw)
      · exact step?_eq_none_iff.mpr (Or.inl (Array.getElem?_eq_none (Nat.le_of_not_lt hw)))
    rw [h] at hdrained
    cases hdrained

theorem isDrained_drainWithin {n : Nat} {p : Pool} (h : p.work ≤ n) :
    (drainWithin n p).isDrained = true := by
  induction n generalizing p with
  | zero =>
      show p.isDrained = true
      cases hdrained : p.isDrained with
      | true => rfl
      | false =>
          have hless := work_round_lt hdrained
          omega
  | succ n ih =>
      unfold drainWithin
      cases hdrained : p.isDrained with
      | true => exact hdrained
      | false =>
          have hless := work_round_lt hdrained
          exact ih (by omega)

theorem isDrained_drain (p : Pool) : p.drain.isDrained = true :=
  isDrained_drainWithin (Nat.le_refl p.work)

/-!
## Rounds are runs
-/

def eventsOf (p : Pool) : List Nat -> List Event
  | [] => []
  | worker :: rest => ((p.step? worker).map Prod.fst).toList ++ eventsOf (p.advance worker) rest

theorem run_advance (p : Pool) (worker : Nat) :
    Run p ((p.step? worker).map Prod.fst).toList (p.advance worker) := by
  unfold advance
  cases hstep : p.step? worker with
  | none => exact Run.start
  | some result => exact Run.step Run.start hstep

theorem run_foldl_advance (ws : List Nat) (p : Pool) :
    Run p (eventsOf p ws) (ws.foldl advance p) := by
  induction ws generalizing p with
  | nil => exact Run.start
  | cons w rest ih => exact (run_advance p w).trans (ih (p.advance w))

theorem exists_run_drainWithin (n : Nat) (p : Pool) :
    exists events, Run p events (drainWithin n p) := by
  induction n generalizing p with
  | zero => exact ⟨[], Run.start⟩
  | succ n ih =>
      unfold drainWithin
      cases p.isDrained with
      | true => exact ⟨[], Run.start⟩
      | false =>
          rcases ih p.round with ⟨more, hrest⟩
          exact ⟨_, (run_foldl_advance (List.range p.workers.size) p).trans hrest⟩

theorem tasks_eq_of_run {batch : List Task} {workers : Nat} (hworkers : 0 < workers)
    {events : List Event} {p : Pool} (hrun : Run (start batch.toArray workers) events p)
    (hdrained : p.isDrained = true) : p.tasks.toList = batch.map Task.run := by
  apply ((tracks_start batch workers).run hrun).tasks_eq_of_isDrained _ hdrained
  rw [size_workers_run hrun]
  simpa [start] using hworkers

end Pool

theorem Executor.execute_eq_map_run (executor : Executor) (batch : List Task) :
    executor.execute batch = batch.map Task.run := by
  cases executor with
  | sequential => rfl
  | pool workers =>
      have hworkers : 0 < workersFor workers batch.length := by
        unfold workersFor
        omega
      rcases Pool.exists_run_drainWithin _
          (Pool.start batch.toArray (workersFor workers batch.length)) with ⟨events, hrun⟩
      exact Pool.tasks_eq_of_run hworkers hrun (Pool.isDrained_drain _)

end FeatureModel
