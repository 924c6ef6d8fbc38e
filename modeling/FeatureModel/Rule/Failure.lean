import FeatureModel.Graph.Lookup
import FeatureModel.Text.Terminated

/-!
# Failures of rules

The evaluation of a rule may fail instead of giving findings.  A failure is a
defect of the rule, not of the feature model that it looks at.
-/

namespace FeatureModel

inductive FailureKind where
  | runtime
  | logic
  | outOfRange
deriving DecidableEq, Repr, Inhabited

inductive RuleFailure where
  | described (kind : FailureKind) (message : String)
  | missingBody
  | unknownFeature (error : UnknownFeature)
  /-- The edge under evaluation has an end at a position outside the graph. -/
  | detachedEdge (position features : Nat)
  /-- The rule gave up without saying why. -/
  | undescribed
deriving DecidableEq, Repr

namespace RuleFailure

def what? : RuleFailure -> Option String
  | described _ message => some message
  | missingBody => some "bad_function_call"
  | unknownFeature error => some error.message
  | detachedEdge position features =>
      some ("vector::_M_range_check: __n (which is " ++ Text.natDecimal position ++
        ") >= this->size() (which is " ++ Text.natDecimal features ++ ")")
  | undescribed => none

/-- The reason given for a failure; a message ends before its first NUL. -/
def reason (failure : RuleFailure) : String :=
  (failure.what?.map Text.untilNul).getD "unknown exception"

end RuleFailure
end FeatureModel
