import FeatureModel.Evaluation.Executor
import FeatureModel.Graph.Build
import FeatureModel.Report.Render
import FeatureModel.Rule.Registry

/-!
# Compiling a feature model

All rules of a registry are evaluated on a graph: the graph rules first, then
each edge rule on every edge in table order.  If some evaluation fails, the
first that does is reported as a defect of the engine.  Otherwise the findings,
each in the name and at the severity of its rule, make up the report.
-/

namespace FeatureModel

structure EngineDefect where
  ruleId : String
  subject : String
  /-- Why the evaluation failed; nothing if it was not run. -/
  cause : Option RuleFailure
deriving DecidableEq, Repr

namespace EngineDefect

def reason (d : EngineDefect) : String :=
  match d.cause with
  | some failure => failure.reason
  | none => "task did not run"

def message (d : EngineDefect) : String :=
  Text.untilNul ("Engine defect: " ++ d.subject ++ " failed: " ++ d.reason)

end EngineDefect

/-- The tasks of a compilation, in the order in which their outcomes are looked at. -/
def plan (g : Graph) (registry : Registry) : List Task :=
  registry.graphRules.map (fun rule => { graph := g, job := .graph rule }) ++
    registry.edgeRules.flatMap (fun rule =>
      g.edges.toList.map (fun e => { graph := g, job := .edge rule e }))

def RuleInfo.sign (info : RuleInfo) (v : Violation) : Violation :=
  { v with ruleId := info.id, severity := info.severity }

/-- The findings of a task in the name of its rule, or the defect if it did not succeed. -/
def Task.outcome (t : Task) : Except EngineDefect (List Violation) :=
  match t.state with
  | .succeeded => .ok (t.violations.map t.job.info.sign)
  | .pending | .running | .failed =>
      .error { ruleId := t.job.info.id, subject := t.job.describe, cause := t.failure }

/-- The findings of all tasks, or the defect of the first that did not succeed. -/
def collect : List Task -> Except EngineDefect (List Violation)
  | [] => .ok []
  | t :: rest => do
      let found <- t.outcome
      let more <- collect rest
      return found ++ more

def compile (executor : Executor) (g : Graph) (registry : Registry) (mode : Mode) :
    Except EngineDefect Report := do
  let violations <- collect (executor.execute (plan g registry))
  return Report.render violations mode

inductive CompileError where
  | structural (error : StructuralError)
  | engine (defect : EngineDefect)
deriving DecidableEq, Repr

namespace CompileError

def message : CompileError -> String
  | structural e => e.message
  | engine d => d.message

end CompileError

def compileRecords (executor : Executor) (records : List Record) (tolerate : Bool)
    (registry : Registry) (mode : Mode) : Except CompileError Report :=
  match Graph.build records tolerate with
  | .ok g => (compile executor g registry mode).mapError .engine
  | .error e => .error (.structural e)

end FeatureModel
