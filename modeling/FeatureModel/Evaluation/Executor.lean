import FeatureModel.Evaluation.Pool

/-!
# Executors

An executor runs every task of a batch, one after another or by a pool of
workers.  What becomes of the tasks does not depend on which.
-/

namespace FeatureModel

inductive Executor where
  | sequential
  | pool (workers : Nat)
deriving DecidableEq, Repr, Inhabited

namespace Executor

/-- The executor for a number of threads; zero leaves the number to the machine. -/
def ofThreads (cores threads : Nat) : Executor :=
  if threads = 1 then
    .sequential
  else if threads = 0 then
    .pool (max 1 cores)
  else
    .pool threads

def threadCount : Executor -> Nat
  | sequential => 1
  | pool workers => workers

def workersFor (workers tasks : Nat) : Nat :=
  max 1 (min workers tasks)

def execute (executor : Executor) (tasks : List Task) : List Task :=
  match executor with
  | sequential => tasks.map Task.run
  | pool workers =>
      (Pool.start tasks.toArray (workersFor workers tasks.length)).drain.tasks.toList

end Executor
end FeatureModel
