import FeatureModel.Rule.Basic

/-!
# Evaluation tasks

A task is one evaluation to be done: a graph rule on a graph, or an edge rule on
one edge.  Whoever runs it takes it up first, which succeeds once; so it is
evaluated at most once.  Its findings can be taken out of it, and are not found
again.
-/

namespace FeatureModel

inductive TaskState where
  | pending
  /-- Taken up, with no outcome yet. -/
  | running
  | succeeded
  | failed
deriving DecidableEq, Repr, Inhabited

def TaskState.name : TaskState -> String
  | pending => "pending"
  | running => "running"
  | succeeded => "succeeded"
  | failed => "failed"

inductive Job where
  | graph (rule : GraphRule)
  | edge (rule : EdgeRule) (edge : Edge)

namespace Job

def info : Job -> RuleInfo
  | graph rule => rule.toRuleInfo
  | edge rule _ => rule.toRuleInfo

def edge? : Job -> Option Edge
  | graph _ => none
  | edge _ e => some e

def evaluate (g : Graph) : Job -> RuleOutcome
  | graph rule => rule.evaluate g
  | edge rule e => rule.evaluateAt g e

def describe : Job -> String
  | graph rule => "rule '" ++ rule.id ++ "' on graph"
  | edge rule e =>
      "rule '" ++ rule.id ++ "' on edge " ++ Text.decimal e.source ++ " -> " ++
        Text.decimal e.target ++ " (" ++ e.kind.name ++ ")"

end Job

structure Task where
  graph : Graph
  job : Job
  state : TaskState := .pending
  violations : List Violation := []
  failure : Option RuleFailure := none

namespace Task

/-- Takes the task up if it is pending, in one step. -/
def start? (t : Task) : Option Task :=
  match t.state with
  | .pending => some { t with state := .running }
  | .running | .succeeded | .failed => none

def finish (t : Task) : Task :=
  match t.job.evaluate t.graph with
  | .ok violations => { t with state := .succeeded, violations := violations }
  | .error failure => { t with state := .failed, violations := [], failure := some failure }

def run (t : Task) : Task :=
  match t.start? with
  | some started => started.finish
  | none => t

def takeViolations (t : Task) : List Violation × Task :=
  (t.violations, { t with violations := [] })

theorem start?_eq_some_iff {t started : Task} :
    t.start? = some started <-> t.state = .pending ∧ started = { t with state := .running } := by
  unfold start?
  cases t.state <;> simp [eq_comm]

theorem start?_eq_none_iff {t : Task} : t.start? = none <-> t.state ≠ .pending := by
  unfold start?
  cases t.state <;> simp

/-- Of two attempts to take a task up the second one comes to nothing. -/
theorem start?_of_start? {t started : Task} (h : t.start? = some started) :
    started.start? = none := by
  rw [start?_eq_none_iff, (start?_eq_some_iff.mp h).right]
  nofun

theorem state_finish (t : Task) : t.finish.state = .succeeded ∨ t.finish.state = .failed := by
  unfold finish
  split
  · exact Or.inl rfl
  · exact Or.inr rfl

theorem run_of_pending {t : Task} (h : t.state = .pending) :
    t.run = finish { t with state := .running } := by
  unfold run
  rw [start?_eq_some_iff.mpr ⟨h, rfl⟩]

theorem run_of_ne_pending {t : Task} (h : t.state ≠ .pending) : t.run = t := by
  unfold run
  rw [start?_eq_none_iff.mpr h]

theorem state_run_ne_pending (t : Task) : t.run.state ≠ .pending := by
  by_cases h : t.state = .pending
  · rw [run_of_pending h]
    rcases state_finish { t with state := .running } with hstate | hstate <;> rw [hstate] <;> nofun
  · rw [run_of_ne_pending h]
    exact h

@[simp] theorem run_run (t : Task) : t.run.run = t.run :=
  run_of_ne_pending (state_run_ne_pending t)

end Task
end FeatureModel
