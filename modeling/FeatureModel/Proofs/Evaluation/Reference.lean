import FeatureModel.Evaluation.Compile
import FeatureModel.Proofs.Evaluation.Pool
import FeatureModel.Proofs.Graph.Views
import FeatureModel.Proofs.Rule.Registry
import FeatureModel.Proofs.Text.Reading

/-!
# What a compilation amounts to

The evaluations of a compilation form one sequence: every graph rule on the
graph, then every edge rule on the view of every edge in table order.  The first
of them that fails is the defect that is reported.  If none fails, what they find
is the report, each finding in the name and at the severity of its rule.
-/

namespace FeatureModel

structure Evaluation where
  rule : RuleInfo
  subject : String
  outcome : RuleOutcome

namespace Evaluation

def ofGraph (g : Graph) (rule : GraphRule) : Evaluation where
  rule := rule.toRuleInfo
  subject := "rule '" ++ rule.id ++ "' on graph"
  outcome := rule.evaluate g

def ofEdge (rule : EdgeRule) (view : EdgeView) : Evaluation where
  rule := rule.toRuleInfo
  subject := "rule '" ++ rule.id ++ "' on edge " ++ Text.decimal view.edge.source ++ " -> " ++
    Text.decimal view.edge.target ++ " (" ++ view.edge.kind.name ++ ")"
  outcome := rule.evaluate view

/-- The evaluations of rules on a graph, in their order. -/
def sequence (g : Graph) (rules : List Rule) : List Evaluation :=
  (rules.filterMap Rule.graph?).map (ofGraph g) ++
    (rules.filterMap Rule.edge?).flatMap (fun rule => g.views.map (ofEdge rule))

def signed (x : Evaluation) : List Violation :=
  match x.outcome with
  | .ok found => found.map (fun v => { v with ruleId := x.rule.id, severity := x.rule.severity })
  | .error _ => []

def defect (x : Evaluation) (failure : RuleFailure) : EngineDefect where
  ruleId := x.rule.id
  subject := x.subject
  cause := some failure

def verdict (x : Evaluation) : Except EngineDefect (List Violation) :=
  match x.outcome with
  | .ok _ => .ok x.signed
  | .error failure => .error (x.defect failure)

/-- The findings of a sequence of evaluations, or the first defect. -/
def settle : List Evaluation -> Except EngineDefect (List Violation)
  | [] => .ok []
  | x :: rest =>
      match x.verdict with
      | .ok found => (settle rest).map (found ++ ·)
      | .error d => .error d

/-!
## Settling a sequence
-/

theorem settle_of_ok {xs : List Evaluation}
    (h : forall x, x ∈ xs -> exists found, x.outcome = .ok found) :
    settle xs = .ok (xs.flatMap signed) := by
  induction xs with
  | nil => rfl
  | cons x rest ih =>
      rcases h x (by simp) with ⟨found, hfound⟩
      have hverdict : x.verdict = .ok x.signed := by
        unfold verdict
        rw [hfound]
      unfold settle
      rw [hverdict, ih (fun y hy => h y (List.mem_cons_of_mem x hy))]
      rfl

theorem settle_of_first_error {before after : List Evaluation} {x : Evaluation}
    {failure : RuleFailure} (hbefore : forall y, y ∈ before -> exists found, y.outcome = .ok found)
    (hx : x.outcome = .error failure) :
    settle (before ++ x :: after) = .error (x.defect failure) := by
  induction before with
  | nil =>
      have hverdict : x.verdict = .error (x.defect failure) := by
        unfold verdict
        rw [hx]
      rw [List.nil_append, settle, hverdict]
  | cons y rest ih =>
      rcases hbefore y (by simp) with ⟨found, hfound⟩
      have hverdict : y.verdict = .ok y.signed := by
        unfold verdict
        rw [hfound]
      rw [List.cons_append, settle, hverdict,
        ih (fun z hz => hbefore z (List.mem_cons_of_mem y hz))]
      rfl

theorem all_ok_or_first_error (xs : List Evaluation) :
    (forall x, x ∈ xs -> exists found, x.outcome = .ok found) ∨
      exists before x after failure, xs = before ++ x :: after ∧
        (forall y, y ∈ before -> exists found, y.outcome = .ok found) ∧
        x.outcome = .error failure := by
  induction xs with
  | nil => exact Or.inl (fun x hx => by cases hx)
  | cons x rest ih =>
      cases houtcome : x.outcome with
      | error failure =>
          refine Or.inr ⟨[], x, rest, failure, rfl, ?_, houtcome⟩
          intro y hy
          cases hy
      | ok found =>
          have hcons : forall ys : List Evaluation,
              (forall y, y ∈ ys -> exists found, y.outcome = .ok found) ->
                forall y, y ∈ x :: ys -> exists found, y.outcome = .ok found := by
            intro ys hys y hy
            rcases List.mem_cons.mp hy with heq | hrest
            · rw [heq]
              exact ⟨found, houtcome⟩
            · exact hys y hrest
          rcases ih with hall | ⟨before, y, after, failure, heq, hbefore, hy⟩
          · exact Or.inl (hcons rest hall)
          · refine Or.inr ⟨x :: before, y, after, failure, ?_, hcons before hbefore, hy⟩
            rw [heq]
            rfl

theorem exists_settle_error_iff (xs : List Evaluation) :
    (exists d, settle xs = .error d) <->
      exists x, x ∈ xs ∧ exists failure, x.outcome = .error failure := by
  rcases all_ok_or_first_error xs with hall | ⟨before, x, after, failure, heq, hbefore, hx⟩
  · constructor
    · intro h
      rcases h with ⟨d, hd⟩
      rw [settle_of_ok hall] at hd
      cases hd
    · intro h
      rcases h with ⟨x, hx, failure, hfailure⟩
      rcases hall x hx with ⟨found, hfound⟩
      rw [hfailure] at hfound
      cases hfound
  · constructor
    · intro _
      exact ⟨x, by simp [heq], failure, hx⟩
    · intro _
      rw [heq]
      exact ⟨x.defect failure, settle_of_first_error hbefore hx⟩

end Evaluation

/-!
## The tasks of a plan are the evaluations of the sequence
-/

theorem Task.outcome_run_graph (g : Graph) (rule : GraphRule) :
    (Task.run { graph := g, job := .graph rule }).outcome =
      (Evaluation.ofGraph g rule).verdict := by
  cases h : rule.evaluate g <;>
    simp [Task.run_of_pending, Task.finish, Task.outcome, Job.evaluate, Job.info, Job.describe,
      Evaluation.verdict, Evaluation.signed, Evaluation.defect, Evaluation.ofGraph, RuleInfo.sign, h]

theorem Task.outcome_run_edge {g : Graph} {e : Edge} {view : EdgeView}
    (hview : g.view e = .ok view) (hedge : view.edge = e) (rule : EdgeRule) :
    (Task.run { graph := g, job := .edge rule e }).outcome =
      (Evaluation.ofEdge rule view).verdict := by
  have hsame : rule.evaluateAt g e = rule.evaluate view := by
    unfold EdgeRule.evaluateAt
    rw [hview]
    rfl
  cases h : rule.evaluate view <;>
    simp [Task.run_of_pending, Task.finish, Task.outcome, Job.evaluate, Job.info, Job.describe,
      Evaluation.verdict, Evaluation.signed, Evaluation.defect, Evaluation.ofEdge, RuleInfo.sign,
      hsame, hedge, h]

section Built

variable {records : List Record} {tolerate : Bool} {g : Graph} {rules : List Rule}
  {registry : Registry}

theorem map_outcome_run_plan (hbuild : Graph.build records tolerate = .ok g)
    (hreached : Registry.Reached rules registry) :
    ((plan g registry).map Task.run).map Task.outcome =
      (Evaluation.sequence g rules).map Evaluation.verdict := by
  have hlists := hreached.lists
  have hedge : forall rule : EdgeRule,
      ((g.edges.toList.map (fun e => { graph := g, job := .edge rule e })).map Task.run).map
          Task.outcome =
        (g.views.map (Evaluation.ofEdge rule)).map Evaluation.verdict := by
    intro rule
    rw [<- Graph.map_edge_views hbuild]
    simp only [List.map_map]
    apply List.map_congr_left
    intro view hview
    exact Task.outcome_run_edge (Graph.view_edge_of_mem_views hbuild hview) rfl rule
  unfold plan Evaluation.sequence
  rw [hlists.graphRules_eq, hlists.edgeRules_eq]
  simp only [List.map_append, List.map_flatMap, hedge]
  simp only [List.map_map, Function.comp_def, Task.outcome_run_graph]

theorem collect_eq_settle {tasks : List Task} {xs : List Evaluation}
    (h : tasks.map Task.outcome = xs.map Evaluation.verdict) :
    collect tasks = Evaluation.settle xs := by
  induction xs generalizing tasks with
  | nil =>
      rw [List.map_nil, List.map_eq_nil_iff] at h
      rw [h]
      rfl
  | cons x rest ih =>
      cases tasks with
      | nil => cases h
      | cons t more =>
          rw [List.map_cons, List.map_cons, List.cons.injEq] at h
          unfold collect Evaluation.settle
          rw [h.left, ih h.right]
          cases x.verdict with
          | error d => rfl
          | ok found => cases Evaluation.settle rest <;> rfl

/-- A compilation settles the sequence of its evaluations and renders what they found. -/
theorem compile_eq_settle (hbuild : Graph.build records tolerate = .ok g)
    (hreached : Registry.Reached rules registry) (executor : Executor) (mode : Mode) :
    compile executor g registry mode =
      (Evaluation.settle (Evaluation.sequence g rules)).map
        (fun found => Report.render found mode) := by
  unfold compile
  rw [executor.execute_eq_map_run, collect_eq_settle (map_outcome_run_plan hbuild hreached)]
  cases Evaluation.settle (Evaluation.sequence g rules) <;> rfl

end Built

/-!
## Compilations
-/

/-- What a compilation gives, told by the sequence of its evaluations. -/
structure Evaluation.Decide (xs : List Evaluation) (mode : Mode)
    (result : Except EngineDefect Report) : Prop where
  fails_iff : (exists d, result = .error d) <->
    exists x, x ∈ xs ∧ exists failure, x.outcome = .error failure
  /-- The first evaluation that fails is told, whatever the later ones do. -/
  tells_first : forall before x after failure, xs = before ++ x :: after ->
    (forall y, y ∈ before -> exists found, y.outcome = .ok found) ->
      x.outcome = .error failure ->
        exists d, result = .error d ∧ d.ruleId = x.rule.id ∧ d.cause = some failure ∧
          d.message = Text.untilNul ("Engine defect: " ++ x.subject ++ " failed: " ++
            (failure.what?.map Text.untilNul).getD "unknown exception")
  renders_all : (forall x, x ∈ xs -> exists found, x.outcome = .ok found) ->
    result = .ok (Report.render (xs.flatMap Evaluation.signed) mode)

theorem Evaluation.decide_settle (xs : List Evaluation) (mode : Mode) :
    Decide xs mode ((settle xs).map (fun found => Report.render found mode)) where
  fails_iff := by
    rw [<- exists_settle_error_iff]
    cases settle xs <;> simp [Except.map]
  tells_first before x after failure hxs hbefore hx := by
    rw [hxs, settle_of_first_error hbefore hx]
    exact ⟨x.defect failure, rfl, rfl, rfl, rfl⟩
  renders_all hall := by
    rw [settle_of_ok hall]
    rfl

/-- A compilation is decided by its evaluations: the rules in the order in which they were
accepted, the edges in table order, and the steps of workers in any order. -/
theorem compile_decided_by_sequence {records : List Record} {tolerate : Bool} {g : Graph}
    (hbuild : Graph.build records tolerate = .ok g) {rules : List Rule} {registry : Registry}
    (hreached : Registry.Reached rules registry) (executor : Executor) (mode : Mode) :
    g.views.map EdgeView.edge = g.edges.toList ∧
      Evaluation.Decide (Evaluation.sequence g rules) mode
        (compile executor g registry mode) ∧
      forall workers events p, 0 < workers ->
        Pool.Run (Pool.start (plan g registry).toArray workers) events p ->
          p.isDrained = true -> p.tasks.toList = executor.execute (plan g registry) := by
  refine ⟨Graph.map_edge_views hbuild, ?_, ?_⟩
  · rw [compile_eq_settle hbuild hreached]
    exact Evaluation.decide_settle _ mode
  · intro workers events p hworkers hrun hdrained
    rw [executor.execute_eq_map_run]
    exact Pool.tasks_eq_of_run hworkers hrun hdrained

/-- Two rules fail on a graph of two features; the defect is that of the rule that comes first in
the sequence, although it was accepted last. -/
theorem compile_tells_graph_rule_first :
    let records : List Record :=
      [{ guid := 7, links := [{ target := -3, kind := .complex }] }, { guid := -3 }]
    let edgeRule : Rule := .edge
      { id := "edges", evaluate := fun _ => .error (.described .logic "late") }
    let graphRule : Rule := .graph
      { id := "whole\x00graph", evaluate := fun _ => .error .undescribed }
    exists d, compile (.pool 3) (Graph.ofRecords records)
        ((Registry.empty.add edgeRule).add graphRule) .lenient = .error d ∧
      d.ruleId = "whole\x00graph" ∧ d.cause = some .undescribed ∧
        d.message = "Engine defect: rule 'whole" := by
  intro records edgeRule graphRule
  have hreached := (Registry.Reached.empty.put edgeRule rfl rfl).put graphRule rfl rfl
  have hbuild : Graph.build records false = .ok (Graph.ofRecords records) := rfl
  have hdecided :=
    (compile_decided_by_sequence hbuild hreached (.pool 3) .lenient).right.left
  rcases hdecided.tells_first [] _ _ .undescribed rfl (by simp) rfl with
    ⟨d, hd, hid, hcause, hmessage⟩
  refine ⟨d, hd, hid, hcause, ?_⟩
  rw [hmessage]
  decide +kernel

end FeatureModel
