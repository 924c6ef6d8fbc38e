import FeatureModel.Rule.Basic

/-!
# Built-in rules

Four rules come with the library: guids are unique, guids increase, mandatory
features are not incompatible, and no two features are both alternative and
incompatible.

The rules about two features name them by their first declarations, the lower
guid first, so that every edge between the two gives the same finding.
-/

namespace FeatureModel
namespace Builtin

/-!
## Rules about the guids of a graph
-/

def sharers (g : Graph) (guid : Guid) : List Feature :=
  g.features.toList.filter (fun f => decide (f.guid = guid))

def noDuplicateGuidInfo : RuleInfo where
  id := "no-duplicate-guid"
  severity := .error
  description := "Every feature guid must be unique"

def sharedGuid? (g : Graph) (guid : Guid) : Option Violation :=
  let features := sharers g guid
  if features.length < 2 then
    none
  else
    some (noDuplicateGuidInfo.finding [guid]
      (Text.natDecimal features.length ++ " features share guid " ++ Text.decimal guid ++ ": " ++
        ", ".intercalate (features.map (fun f => "'" ++ f.name ++ "'"))))

/-- Every guid is declared once; one finding for each guid that is not, in ascending order. -/
def noDuplicateGuid : GraphRule where
  toRuleInfo := noDuplicateGuidInfo
  evaluate g :=
    .ok ((Runs.ascending (g.features.toList.map (fun f => f.guid))).filterMap (sharedGuid? g))

def monotonicGuidInfo : RuleInfo where
  id := "monotonic-guid"
  severity := .warning
  description := "Feature guids should increase in declaration order"

/-- Neighbours in a list of features of which the second has no greater guid than the first. -/
def setbacks (features : List Feature) : List (Feature × Feature) :=
  (features.zip features.tail).filter (fun pair => decide (pair.2.guid ≤ pair.1.guid))

def setbackFinding (pair : Feature × Feature) : Violation :=
  monotonicGuidInfo.finding [pair.2.guid]
    ("Feature " ++ pair.2.label ++ " is declared after " ++ pair.1.label ++
      " but its guid is not greater")

/-- Guids increase in declaration order; one finding for each step that does not. -/
def monotonicGuid : GraphRule where
  toRuleInfo := monotonicGuidInfo
  evaluate g := .ok ((setbacks g.features.toList).map setbackFinding)

/-!
## Rules about the ends of an edge
-/

def anyMandatory (g : Graph) (guid : Guid) : Bool :=
  (g.declarations guid).any (fun f => f.mandatory)

/-- The guids at the ends of an edge, the lower one first. -/
def endGuids (view : EdgeView) : Guid × Guid :=
  (min view.source.guid view.target.guid, max view.source.guid view.target.guid)

def endLabels (view : EdgeView) : Except UnknownFeature String := do
  let low <- view.graph.get (endGuids view).1
  let high <- view.graph.get (endGuids view).2
  return low.label ++ " and " ++ high.label

def endsFinding (info : RuleInfo) (view : EdgeView) (before after : String) : RuleOutcome :=
  match endLabels view with
  | .ok labels =>
      .ok [info.finding [(endGuids view).1, (endGuids view).2] (before ++ labels ++ after)]
  | .error e => .error (.unknownFeature e)

def mandatoryIncompatibleInfo : RuleInfo where
  id := "mandatory-incompatible"
  severity := .error
  description := "Mandatory features cannot be mutually exclusive"

/-- No incompatible edge joins two guids that both have a mandatory declaration. -/
def mandatoryIncompatible : EdgeRule where
  toRuleInfo := mandatoryIncompatibleInfo
  evaluate view :=
    if view.edge.kind = .incompatible ∧
        anyMandatory view.graph view.source.guid = true ∧
        anyMandatory view.graph view.target.guid = true then
      endsFinding mandatoryIncompatibleInfo view
        "Mandatory features " " cannot be mutually exclusive"
    else
      .ok []

def conflictingRelationshipKindsInfo : RuleInfo where
  id := "conflicting-relationship-kinds"
  severity := .error
  description := "A pair of features cannot be both alternative and incompatible"

def kindsAcross (view : EdgeView) : KindSet :=
  (view.graph.kindsBetween view.source.guid view.target.guid).union
    (view.graph.kindsBetween view.target.guid view.source.guid)

/-- No two guids are joined both as alternative and as incompatible. -/
def conflictingRelationshipKinds : EdgeRule where
  toRuleInfo := conflictingRelationshipKindsInfo
  evaluate view :=
    if (view.edge.kind = .alternative ∨ view.edge.kind = .incompatible) ∧
        (kindsAcross view).contains .alternative = true ∧
        (kindsAcross view).contains .incompatible = true then
      endsFinding conflictingRelationshipKindsInfo view
        "Conflicting relationships between " ": declared both alternative and incompatible"
    else
      .ok []

def all : List Rule :=
  [.graph noDuplicateGuid, .edge mandatoryIncompatible, .graph monotonicGuid,
    .edge conflictingRelationshipKinds]

def find? (id : String) : Option Rule :=
  all.find? (fun rule => rule.id == id)

end Builtin
end FeatureModel
