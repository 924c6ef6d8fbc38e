import FeatureModel.Evaluation.Task
import FeatureModel.Proofs.Graph.Views
import FeatureModel.Proofs.InTurn

/-!
# The life of a task

A task is run and its findings are taken out, in any order and any number of times.
Its first run settles it for good: it has succeeded or failed as its rule does, and
holds what the rule found.  After that each finding is taken out once or still there.
-/

namespace FeatureModel

def RuleOutcome.found : RuleOutcome -> List Violation
  | .ok violations => violations
  | .error _ => []

namespace Task

inductive Call where
  | run
  | take
deriving DecidableEq, Repr

def serve (t : Task) : Call -> List Violation × Task
  | .run => ([], t.run)
  | .take => t.takeViolations

def takenBy (t : Task) (calls : List Call) : List Violation :=
  (inTurn serve t calls).1.flatten

def after (t : Task) (calls : List Call) : Task :=
  (inTurn serve t calls).2

/-- How a task fares under calls when the evaluation of its rule comes to an outcome. -/
structure Lifecycle (t : Task) (outcome : RuleOutcome) (calls : List Call) : Prop where
  pending : .run ∉ calls -> (t.after calls).state = .pending
  not_running : (t.after calls).state ≠ .running
  succeeded : .run ∈ calls -> forall found, outcome = .ok found ->
    (t.after calls).state = .succeeded
  failed : .run ∈ calls -> forall failure, outcome = .error failure ->
    (t.after calls).state = .failed ∧ (t.after calls).failure = some failure
  /-- Only the first run does anything. -/
  run_eq : .run ∈ calls -> (t.after calls).run = t.after calls
  isSome_failure_iff : (t.after calls).failure.isSome = true <-> (t.after calls).state = .failed
  violations_eq_nil : (t.after calls).state = .pending ∨ (t.after calls).state = .failed ->
    (t.after calls).violations = []
  /-- A take takes out all that the task holds, leaves nothing, and changes nothing else. -/
  takenBy_concat_take : t.takenBy (calls ++ [.take]) = t.takenBy calls ++ (t.after calls).violations
  after_concat_take : t.after (calls ++ [.take]) = { t.after calls with violations := [] }
  takenBy_eq_nil : .run ∉ calls -> t.takenBy calls = []
  /-- What is taken out after the first run and what is left then make up what was found. -/
  takenBy_append_violations : forall before later, calls = before ++ .run :: later ->
    .run ∉ before ->
      (t.after (before ++ [.run])).takenBy later ++ (t.after calls).violations = outcome.found

theorem after_cons (t : Task) (call : Call) (rest : List Call) :
    t.after (call :: rest) = (t.serve call).2.after rest :=
  rfl

theorem takenBy_cons (t : Task) (call : Call) (rest : List Call) :
    t.takenBy (call :: rest) = (t.serve call).1 ++ (t.serve call).2.takenBy rest :=
  List.flatten_cons

theorem after_append (t : Task) (before later : List Call) :
    t.after (before ++ later) = (t.after before).after later := by
  unfold after
  rw [inTurn_append]

theorem takenBy_append (t : Task) (before later : List Call) :
    t.takenBy (before ++ later) = t.takenBy before ++ (t.after before).takenBy later := by
  unfold takenBy after
  rw [inTurn_append, List.flatten_append]

theorem takenBy_take (t : Task) : t.takenBy [.take] = t.violations :=
  List.append_nil t.violations

/-!
## Before the first run
-/

/-- A task that has not been run, whose rule would come to an outcome. -/
structure IsFresh (t : Task) (outcome : RuleOutcome) : Prop where
  state_eq : t.state = .pending
  violations_eq : t.violations = []
  failure_eq : t.failure = none
  evaluate_eq : t.job.evaluate t.graph = outcome

section

variable {t : Task} {outcome : RuleOutcome}

theorem IsFresh.serve_take (h : IsFresh t outcome) : t.serve .take = ([], t) := by
  have hviolations := h.violations_eq
  cases t with
  | mk graph job state violations failure =>
      cases hviolations
      rfl

theorem IsFresh.of_not_mem_run (h : IsFresh t outcome) {calls : List Call}
    (hrun : .run ∉ calls) : t.after calls = t ∧ t.takenBy calls = [] := by
  induction calls with
  | nil => exact ⟨rfl, rfl⟩
  | cons call rest ih =>
      cases call with
      | run => exact absurd List.mem_cons_self hrun
      | take =>
          rw [after_cons, takenBy_cons, h.serve_take]
          exact ih (fun hrest => hrun (List.mem_cons_of_mem _ hrest))

/-!
## Once it has run
-/

/-- The task when its rule has come to an outcome, with some findings still in it. -/
def settled (t : Task) (outcome : RuleOutcome) (held : List Violation) : Task :=
  match outcome with
  | .ok _ => { t with state := .succeeded, violations := held }
  | .error failure => { t with state := .failed, violations := held, failure := some failure }

theorem IsFresh.run_eq (h : IsFresh t outcome) : t.run = t.settled outcome outcome.found := by
  rw [run_of_pending h.state_eq]
  unfold finish
  rw [h.evaluate_eq]
  cases outcome <;> rfl

theorem violations_settled (held : List Violation) :
    (t.settled outcome held).violations = held := by
  cases outcome <;> rfl

theorem run_settled (held : List Violation) :
    (t.settled outcome held).run = t.settled outcome held := by
  apply run_of_ne_pending
  cases outcome <;> nofun

theorem takeViolations_settled (held : List Violation) :
    (t.settled outcome held).takeViolations = (held, t.settled outcome []) := by
  cases outcome <;> rfl

theorem exists_left_of_settled (held : List Violation) (calls : List Call) :
    exists left, (t.settled outcome held).after calls = t.settled outcome left ∧
      (t.settled outcome held).takenBy calls ++ left = held := by
  induction calls generalizing held with
  | nil => exact ⟨held, rfl, rfl⟩
  | cons call rest ih =>
      rw [after_cons, takenBy_cons]
      cases call with
      | run =>
          show exists left, (t.settled outcome held).run.after rest = _ ∧
            [] ++ (t.settled outcome held).run.takenBy rest ++ left = _
          rw [run_settled]
          exact ih held
      | take =>
          show exists left, (t.settled outcome held).takeViolations.2.after rest = _ ∧
            (t.settled outcome held).takeViolations.1 ++
              (t.settled outcome held).takeViolations.2.takenBy rest ++ left = _
          rw [takeViolations_settled]
          rcases ih [] with ⟨left, hleft, htaken⟩
          refine ⟨left, hleft, ?_⟩
          show held ++ (t.settled outcome []).takenBy rest ++ left = held
          rw [List.append_assoc, htaken, List.append_nil]

theorem IsFresh.after_run (h : IsFresh t outcome) {before : List Call} (hbefore : .run ∉ before) :
    t.after (before ++ [.run]) = t.settled outcome outcome.found := by
  rw [after_append, (h.of_not_mem_run hbefore).left]
  exact h.run_eq

/-- The first run settles the task; later calls only take findings out of it. -/
theorem IsFresh.exists_left (h : IsFresh t outcome) {before : List Call}
    (hbefore : .run ∉ before) (later : List Call) :
    exists left, t.after (before ++ .run :: later) = t.settled outcome left ∧
      (t.after (before ++ [.run])).takenBy later ++ left = outcome.found := by
  have hsplit : before ++ .run :: later = before ++ [.run] ++ later := by
    rw [List.append_assoc, List.singleton_append]
  rw [hsplit, after_append, h.after_run hbefore]
  exact exists_left_of_settled outcome.found later

theorem IsFresh.exists_settled (h : IsFresh t outcome) {calls : List Call} (hrun : .run ∈ calls) :
    exists left, t.after calls = t.settled outcome left ∧ (outcome.found = [] -> left = []) := by
  rcases List.eq_append_cons_of_mem hrun with ⟨before, later, hcalls, hbefore⟩
  rcases h.exists_left hbefore later with ⟨left, hleft, htaken⟩
  refine ⟨left, hcalls ▸ hleft, ?_⟩
  intro hnone
  rw [hnone] at htaken
  exact (List.append_eq_nil_iff.mp htaken).right

theorem IsFresh.lifecycle (h : IsFresh t outcome) (calls : List Call) :
    Lifecycle t outcome calls where
  pending hrun := by rw [(h.of_not_mem_run hrun).left, h.state_eq]
  not_running := by
    by_cases hrun : .run ∈ calls
    · rcases h.exists_settled hrun with ⟨left, hleft, _⟩
      rw [hleft]
      cases outcome <;> nofun
    · rw [(h.of_not_mem_run hrun).left, h.state_eq]
      decide
  succeeded hrun found hfound := by
    rcases h.exists_settled hrun with ⟨left, hleft, _⟩
    rw [hleft, hfound, settled]
  failed hrun failure hfailure := by
    rcases h.exists_settled hrun with ⟨left, hleft, _⟩
    rw [hleft, hfailure]
    exact ⟨rfl, rfl⟩
  run_eq hrun := by
    rcases h.exists_settled hrun with ⟨left, hleft, _⟩
    rw [hleft, run_settled]
  isSome_failure_iff := by
    by_cases hrun : .run ∈ calls
    · rcases h.exists_settled hrun with ⟨left, hleft, _⟩
      rw [hleft]
      cases outcome with
      | ok found => simp [settled, h.failure_eq]
      | error failure => simp [settled]
    · rw [(h.of_not_mem_run hrun).left, h.failure_eq, h.state_eq]
      decide
  violations_eq_nil hstate := by
    by_cases hrun : .run ∈ calls
    · rcases h.exists_settled hrun with ⟨left, hleft, hnone⟩
      rw [hleft, violations_settled]
      rw [hleft] at hstate
      cases outcome with
      | ok found => exact absurd hstate (by simp [settled])
      | error failure => exact hnone rfl
    · rw [(h.of_not_mem_run hrun).left, h.violations_eq]
  takenBy_concat_take := by rw [takenBy_append, takenBy_take]
  after_concat_take := by
    rw [after_append]
    rfl
  takenBy_eq_nil hrun := (h.of_not_mem_run hrun).right
  takenBy_append_violations before later hcalls hbefore := by
    rcases h.exists_left hbefore later with ⟨left, hleft, htaken⟩
    rw [hcalls, hleft, violations_settled, htaken]

end

/-!
## Tasks on built graphs
-/

/-- A task made on a built graph lives by the outcome of its rule: a graph rule is evaluated on the
graph, an edge rule on the view of the edge, with the feature that declares it and the first
feature of its target. -/
theorem lifecycle_of_build {records : List Record} {tolerate : Bool} {g : Graph}
    (hbuild : Graph.build records tolerate = .ok g) :
    (forall (rule : GraphRule) (calls : List Call),
      Lifecycle { graph := g, job := .graph rule } (rule.evaluate g) calls) ∧
    forall (rule : EdgeRule) (number : Nat) (e : Edge), g.edges[number]? = some e ->
      exists view : EdgeView, g.viewAt? number = some view ∧ view.edge = e ∧ view.graph = g ∧
        forall calls : List Call,
          Lifecycle { graph := g, job := .edge rule e } (rule.evaluate view) calls := by
  constructor
  · intro rule calls
    exact IsFresh.lifecycle ⟨rfl, rfl, rfl, rfl⟩ calls
  · intro rule number e he
    rcases Graph.exists_view_of_build hbuild he with ⟨view, hat, hview, hedge⟩
    have hmem : view ∈ g.views := by
      refine List.mem_filterMap.mpr ⟨number, List.mem_range.mpr ?_, hat⟩
      exact (Array.getElem?_eq_some_iff.mp he).1
    have hevaluate : rule.evaluateAt g e = rule.evaluate view := by
      unfold EdgeRule.evaluateAt
      rw [hview]
      rfl
    have hfresh : IsFresh { graph := g, job := .edge rule e } (rule.evaluate view) :=
      ⟨rfl, rfl, rfl, hevaluate⟩
    exact ⟨view, hat, hedge, Graph.graph_eq_of_mem_views hbuild hmem, hfresh.lifecycle⟩

/-- A task on the only edge of a graph, with findings taken before, between and after two runs. -/
theorem lifecycle_between_takes :
    let records : List Record :=
      [{ guid := 7, links := [{ target := -3, kind := .alternative }] }, { guid := -3 }]
    let g := Graph.ofRecords records
    let e : Edge :=
      { source := 7, target := -3, kind := .alternative, sourcePosition := 0, targetPosition := 1,
        linkNumber := 0 }
    let rule : EdgeRule :=
      { id := "ends", evaluate := fun view =>
          .ok [{ guids := [view.source.guid, view.target.guid] }] }
    let t : Task := { graph := g, job := .edge rule e }
    Graph.build records false = .ok g ∧ g.edges[0]? = some e ∧
      (exists view : EdgeView, g.viewAt? 0 = some view ∧
        Lifecycle t (rule.evaluate view) [.take, .run, .take, .run, .take]) ∧
      t.takenBy [.take] = [] ∧ t.takenBy [.take, .run] = [] ∧
      (t.after [.take, .run]).violations = [{ guids := [7, -3] }] ∧
      t.takenBy [.take, .run, .take] = [{ guids := [7, -3] }] ∧
      (t.after [.take, .run, .take]).violations = [] ∧
      t.takenBy [.take, .run, .take, .run, .take] = [{ guids := [7, -3] }] ∧
      (t.after [.take, .run, .take, .run, .take]).state = .succeeded := by
  intro records g e rule t
  have hbuild : Graph.build records false = .ok g := rfl
  have he : g.edges[0]? = some e := by
    decide +kernel
  rcases (lifecycle_of_build hbuild).right rule 0 e he with ⟨view, hview, _, _, hlife⟩
  exact ⟨hbuild, he, ⟨view, hview, hlife _⟩, by decide +kernel⟩

end Task
end FeatureModel
