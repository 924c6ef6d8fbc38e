import FeatureModel.Rule.Failure
import FeatureModel.Violation

/-!
# Rules

A rule has a scope: a graph rule looks at a whole graph, an edge rule at one edge
at a time, together with the features at its ends.  Evaluating a rule gives
findings or a failure.
-/

namespace FeatureModel

inductive Scope where
  | graph
  | edge
deriving DecidableEq, Repr, Inhabited

namespace Scope

def name : Scope -> String
  | graph => "graph"
  | edge => "edge"

end Scope

structure RuleInfo where
  id : String
  severity : Severity := .error
  description : String := ""
  version : UInt32 := 1
deriving DecidableEq, Repr, Inhabited

def RuleInfo.finding (info : RuleInfo) (guids : List Guid) (message : String) : Violation where
  ruleId := info.id
  severity := info.severity
  guids := guids
  message := message

/-- One edge as an edge rule sees it. -/
structure EdgeView where
  graph : Graph
  edge : Edge
  /-- The feature that declares the edge. -/
  source : Feature
  /-- The first feature that declares the target of the edge. -/
  target : Feature
deriving DecidableEq, Repr

def Graph.endAt (g : Graph) (position : Nat) : Except RuleFailure Feature :=
  match g.features[position]? with
  | some feature => .ok feature
  | none => .error (.detachedEdge position g.features.size)

/-- The view of an edge; both of its ends must be in the graph. -/
def Graph.view (g : Graph) (edge : Edge) : Except RuleFailure EdgeView := do
  let source <- g.endAt edge.sourcePosition
  let target <- g.endAt edge.targetPosition
  return { graph := g, edge := edge, source := source, target := target }

abbrev RuleOutcome :=
  Except RuleFailure (List Violation)

structure GraphRule extends RuleInfo where
  evaluate : Graph -> RuleOutcome

structure EdgeRule extends RuleInfo where
  evaluate : EdgeView -> RuleOutcome

def EdgeRule.evaluateAt (rule : EdgeRule) (g : Graph) (edge : Edge) : RuleOutcome := do
  let view <- g.view edge
  rule.evaluate view

inductive Rule where
  | graph (rule : GraphRule)
  | edge (rule : EdgeRule)

namespace Rule

def info : Rule -> RuleInfo
  | graph rule => rule.toRuleInfo
  | edge rule => rule.toRuleInfo

def id (rule : Rule) : String :=
  rule.info.id

def scope : Rule -> Scope
  | graph _ => .graph
  | edge _ => .edge

def graph? : Rule -> Option GraphRule
  | graph rule => some rule
  | edge _ => none

def edge? : Rule -> Option EdgeRule
  | graph _ => none
  | edge rule => some rule

/-- What a rule finds on a graph: all at once, or edge by edge in table order. -/
inductive Findings where
  | ofGraph (violations : List Violation)
  | ofEdges (violations : List (List Violation))
deriving DecidableEq, Repr

/-- Evaluates a rule on a graph; the first failure ends the evaluation. -/
def evaluateOn (g : Graph) : Rule -> Except RuleFailure Findings
  | graph rule => (rule.evaluate g).map .ofGraph
  | edge rule => (g.edges.toList.mapM (rule.evaluateAt g)).map .ofEdges

end Rule
end FeatureModel
