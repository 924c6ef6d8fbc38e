import FeatureModel.Evaluation.Task

/-!
# Worker pools

The workers of a pool share a cursor into a batch of tasks.  An idle worker takes
the number under the cursor and moves the cursor on, in one step; if there is a
task of that number it runs it in a later step, otherwise it stops.  Steps of
different workers may follow one another in any order.
-/

namespace FeatureModel

inductive Worker where
  | idle
  /-- The worker has claimed a task and not run it yet. -/
  | holding (task : Nat)
  | stopped
deriving DecidableEq, Repr, Inhabited

structure Pool where
  tasks : Array Task
  cursor : Nat
  workers : Array Worker

namespace Pool

inductive Event where
  | claimed (worker task : Nat)
  | ran (worker task : Nat)
  | stopped (worker : Nat)
deriving DecidableEq, Repr

def start (tasks : Array Task) (workers : Nat) : Pool where
  tasks := tasks
  cursor := 0
  workers := Array.replicate workers .idle

def step? (p : Pool) (worker : Nat) : Option (Event × Pool) :=
  match p.workers[worker]? with
  | some .idle =>
      if p.cursor < p.tasks.size then
        some (.claimed worker p.cursor,
          { p with
            cursor := p.cursor + 1
            workers := p.workers.setIfInBounds worker (.holding p.cursor) })
      else
        some (.stopped worker,
          { p with
            cursor := p.cursor + 1
            workers := p.workers.setIfInBounds worker .stopped })
  | some (.holding task) =>
      some (.ran worker task,
        { p with
          tasks := p.tasks.modify task Task.run
          workers := p.workers.setIfInBounds worker .idle })
  | some .stopped => none
  | none => none

def isDrained (p : Pool) : Bool :=
  p.workers.all (fun w => decide (w = .stopped))

def advance (p : Pool) (worker : Nat) : Pool :=
  match p.step? worker with
  | some (_, next) => next
  | none => p

def round (p : Pool) : Pool :=
  (List.range p.workers.size).foldl advance p

/-- The number of steps that a worker has left, tasks not yet claimed apart. -/
def stepsLeft : Worker -> Nat
  | .idle => 1
  | .holding _ => 2
  | .stopped => 0

def work (p : Pool) : Nat :=
  p.workers.toList.foldr (fun w n => stepsLeft w + n) (2 * (p.tasks.size - p.cursor))

/-- Rounds until every worker has stopped, and no more than the given number. -/
def drainWithin : Nat -> Pool -> Pool
  | 0, p => p
  | n + 1, p => if p.isDrained then p else drainWithin n p.round

/-- Rounds until every worker has stopped; a round before that uses up some of the work. -/
def drain (p : Pool) : Pool :=
  drainWithin p.work p

end Pool
end FeatureModel
