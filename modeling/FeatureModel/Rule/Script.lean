import FeatureModel.Rule.Basic

/-!
# Scripted rules

A script is a rule body written as data: it gives fixed findings, fails in a
chosen way, or reports what it sees of the graph or of the edge.
-/

namespace FeatureModel

inductive GraphScript where
  | nothing
  | emit (violations : List Violation)
  | fail (failure : RuleFailure)
  | lookUp (guid : Guid)
  | counts
  | features
deriving DecidableEq, Repr

namespace GraphScript

def featureReport (f : Feature) : Violation where
  guids := [f.guid]
  message := Text.natDecimal f.position ++ ":" ++ f.name ++ ":" ++ f.bindingTime.name ++ ":" ++
    (if f.mandatory then "m" else "o") ++ ":" ++ Text.natDecimal f.edges.length

def run (g : Graph) : GraphScript -> RuleOutcome
  | nothing => .ok []
  | emit violations => .ok violations
  | fail failure => .error failure
  | lookUp guid =>
      match g.get guid with
      | .ok f => .ok [{ guids := [f.guid], message := f.name }]
      | .error e => .error (.unknownFeature e)
  | counts =>
      .ok [{ message := Text.natDecimal g.features.size ++ "/" ++ Text.natDecimal g.edges.size }]
  | features => .ok (g.features.toList.map featureReport)

end GraphScript

structure EdgeCondition where
  kind : Option RelationshipKind := none
  source : Option Guid := none
  target : Option Guid := none
deriving DecidableEq, Repr, Inhabited

def EdgeCondition.holds (c : EdgeCondition) (e : Edge) : Bool :=
  c.kind.all (fun kind => decide (e.kind = kind)) &&
    c.source.all (fun guid => decide (e.source = guid)) &&
    c.target.all (fun guid => decide (e.target = guid))

inductive EdgeScript where
  | onGraph (script : GraphScript)
  | edge
  | guarded (condition : EdgeCondition) (script : EdgeScript)
deriving DecidableEq, Repr

namespace EdgeScript

def edgeReport (view : EdgeView) : Violation where
  severity := .warning
  guids := [view.target.guid, view.source.guid]
  message := view.source.name ++ "->" ++ view.target.name ++ " " ++ view.edge.kind.name ++
    " #" ++ Text.natDecimal view.edge.linkNumber ++
    " @" ++ Text.natDecimal view.source.position ++ ":" ++ Text.natDecimal view.target.position

def run (view : EdgeView) : EdgeScript -> RuleOutcome
  | onGraph script => script.run view.graph
  | edge => .ok [edgeReport view]
  | guarded condition script => if condition.holds view.edge then script.run view else .ok []

end EdgeScript
end FeatureModel
