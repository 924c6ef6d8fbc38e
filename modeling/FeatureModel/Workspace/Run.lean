import FeatureModel.Workspace.Basic

/-!
# Running commands on a workspace

A command is answered or fails.  An action on an object that fails leaves the object
as far as it has come; for the rest, a failed command adds and changes nothing.
-/

namespace FeatureModel
namespace Workspace

abbrev Action :=
  FeatureModel.Action Workspace Failure

/-- The number of workers of a pool whose size is left to the machine. -/
def assumedCores : Nat :=
  4

def executorFor (threads : Nat) : Executor :=
  Executor.ofThreads assumedCores threads

def fetch {α : Type} (reference : Reference) (items : Workspace -> Array α) (number : Nat) :
    Action α := do
  match (items (<- get))[number]? with
  | some item => return item
  | none => throw (.missing reference)

def lift {ε α : Type} (wrap : ε -> Failure) : Except ε α -> Action α
  | .ok value => return value
  | .error e => throw (wrap e)

def keepDraft (number : Nat) (d : Draft) : Action Answer := do
  modify fun w => { w with drafts := w.drafts.setIfInBounds number d }
  return .count d.records.length

def addGraph (g : Graph) : Action Answer := do
  modify fun w => { w with graphs := w.graphs.push g }
  return .graph g

def keepRegistry (number : Nat) (r : Registry) : Action Unit :=
  modify fun w => { w with registries := w.registries.setIfInBounds number r }

def addReport (r : Report) : Action Answer := do
  modify fun w => { w with reports := w.reports.push r }
  return .report r

def addTask (t : Task) : Action Answer := do
  modify fun w => { w with tasks := w.tasks.push t }
  return .task t

def keepTask (number : Nat) (t : Task) : Action Unit :=
  modify fun w => { w with tasks := w.tasks.setIfInBounds number t }

def step : Command -> Action Answer
  | .newDraft tolerate => do
      let d : Draft := { tolerate := tolerate }
      modify fun w => { w with drafts := w.drafts.push d }
      return .draft d
  | .showDraft b => do
      return .draft (<- fetch .draft drafts b)
  | .addFeature b attributes => do
      keepDraft b ((<- fetch .draft drafts b).addFeature attributes)
  | .addRecord b record => do
      keepDraft b ((<- fetch .draft drafts b).addRecord record)
  | .addLink b source link => do
      let (outcome, d) := (Draft.addLink source link).on (<- fetch .draft drafts b)
      let answer <- keepDraft b d
      lift .unknownFeature outcome
      return answer
  | .build b => do
      let d <- fetch .draft drafts b
      addGraph (<- lift (fun e => .compile (.structural e)) d.build)
  | .buildRecords records tolerate => do
      addGraph (<- lift (fun e => .compile (.structural e)) (Graph.build records tolerate))
  | .query i query => do
      let g <- fetch .graph graphs i
      return .query (<- lift .query (g.answer query))
  | .newRegistry withBuiltins => do
      let r := if withBuiltins then Registry.builtin else Registry.empty
      modify fun w => { w with registries := w.registries.push r }
      return .registry r
  | .register i offer => do
      let (outcome, r) := (Registry.register offer).on (<- fetch .registry registries i)
      keepRegistry i r
      return .rule (<- lift .registry outcome)
  | .registerBuiltins i => do
      let r <- fetch .registry registries i
      let (next, error?) := r.registerBuiltins
      keepRegistry i next
      match error? with
      | none => return .registry next
      | some e => throw (.registry e)
  | .showRegistry i => do
      return .registry (<- fetch .registry registries i)
  | .listRules i => do
      return .rules (<- fetch .registry registries i).rules
  | .findRule i id => do
      return .rule? ((<- fetch .registry registries i).find? id)
  | .hasRule i id => do
      return .flag ((<- fetch .registry registries i).contains id)
  | .compile i j mode threads => do
      let g <- fetch .graph graphs i
      let r <- fetch .registry registries j
      addReport (<- lift (fun d => .compile (.engine d))
        (FeatureModel.compile (executorFor threads) g r mode))
  | .compileRecords i records tolerate mode threads => do
      let r <- fetch .registry registries i
      addReport (<- lift .compile
        (FeatureModel.compileRecords (executorFor threads) records tolerate r mode))
  | .compareReports i j => do
      let left <- fetch .leftReport reports i
      let right <- fetch .rightReport reports j
      return .comparison (decide (left = right))
  | .newGraphTask i j k => do
      let g <- fetch .graph graphs i
      let r <- fetch .registry registries j
      match r.graphRules[k]? with
      | some rule => addTask { graph := g, job := .graph rule }
      | none => throw (.missing .rule)
  | .newEdgeTask i j k number => do
      let g <- fetch .graph graphs i
      let r <- fetch .registry registries j
      match r.edgeRules[k]?, g.edges[number]? with
      | some rule, some e => addTask { graph := g, job := .edge rule e }
      | some _, none => throw .edgeOutOfRange
      | none, _ => throw (.missing .rule)
  | .runTask i => do
      let t := (<- fetch .task tasks i).run
      keepTask i t
      return .task t
  | .showTask i => do
      return .task (<- fetch .task tasks i)
  | .takeViolations i => do
      let (violations, t) := (<- fetch .task tasks i).takeViolations
      keepTask i t
      return .violations violations
  | .execute threads => do
      let executor := executorFor threads
      modify fun w => { w with tasks := (executor.execute w.tasks.toList).toArray }
      let states := (<- get).tasks.toList.map (fun t => t.state)
      return .execution (if threads = 0 then none else some executor.threadCount) states

def run (w : Workspace) : List Command -> List (Except Failure Answer)
  | [] => []
  | command :: rest =>
      let (answer, next) := ((step command).run).run w
      answer :: next.run rest

end Workspace
end FeatureModel
