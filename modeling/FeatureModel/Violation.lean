import FeatureModel.Record
import FeatureModel.Runs

/-!
# Violations

A violation is one finding of a rule.  Two violations are findings of the same
defect when they agree on the rule, the guids and the message; their severities
may still differ.
-/

namespace FeatureModel

inductive Severity where
  | warning
  | error
deriving DecidableEq, Repr, Inhabited

namespace Severity

def all : List Severity :=
  [warning, error]

def name : Severity -> String
  | warning => "warning"
  | error => "error"

/-- The name of the severity with the given number; any other number counts as a warning. -/
def nameAt (n : Int) : String :=
  match n with
  | .ofNat i => ((all[i]?).getD warning).name
  | .negSucc _ => warning.name

/-- The place of a severity in a report: errors come first. -/
def rank : Severity -> Nat
  | error => 0
  | warning => 1

theorem rank_injective {s t : Severity} (h : s.rank = t.rank) : s = t := by
  cases s <;> cases t <;> simp_all [rank]

end Severity

structure Violation where
  ruleId : String := ""
  severity : Severity := .error
  guids : List Guid := []
  message : String := ""
deriving DecidableEq, Repr, Inhabited

namespace Violation

/-- Spells the guids as a set: ascending and without repetitions. -/
def normalize (v : Violation) : Violation :=
  { v with guids := Runs.ascending v.guids }

def sameDefect (v w : Violation) : Bool :=
  decide (v.ruleId = w.ruleId ∧ v.guids = w.guids ∧ v.message = w.message)

/-- The order that brings findings of one defect together, the most severe first. -/
def defectOrder (v w : Violation) : Ordering :=
  (compare v.ruleId w.ruleId).then <|
  (compare v.guids w.guids).then <|
  (compare v.message w.message).then <|
  compare v.severity.rank w.severity.rank

/-- The order of a report: errors first, then by rule, guids and message. -/
def reportOrder (v w : Violation) : Ordering :=
  (compare v.severity.rank w.severity.rank).then <|
  (compare v.ruleId w.ruleId).then <|
  (compare v.guids w.guids).then <|
  compare v.message w.message

def text (v : Violation) : String :=
  v.severity.name ++ " [" ++ v.ruleId ++ "] guids=\x7b" ++
    ",".intercalate (v.guids.map Text.decimal) ++ "\x7d: " ++ v.message

/-!
## The orders are total and tell different findings apart
-/

instance instTransCmpDefectOrder : Std.TransCmp defectOrder :=
  inferInstanceAs (Std.TransCmp (compareLex (compareOn ruleId)
    (compareLex (compareOn guids)
      (compareLex (compareOn message) (compareOn (fun v => v.severity.rank))))))

instance instTransCmpReportOrder : Std.TransCmp reportOrder :=
  inferInstanceAs (Std.TransCmp (compareLex (compareOn (fun v => v.severity.rank))
    (compareLex (compareOn ruleId)
      (compareLex (compareOn guids) (compareOn message)))))

private theorem eq_of_fields {v w : Violation} (hrule : v.ruleId = w.ruleId)
    (hguids : v.guids = w.guids) (hmessage : v.message = w.message)
    (hrank : v.severity.rank = w.severity.rank) : v = w := by
  cases v with
  | mk r s g m =>
      cases w with
      | mk r' s' g' m' =>
          have hseverity : s = s' := Severity.rank_injective hrank
          simp_all

instance instLawfulEqCmpDefectOrder : Std.LawfulEqCmp defectOrder where
  eq_of_compare {v w} h := by
    simp only [defectOrder, Ordering.then_eq_eq, Std.LawfulEqCmp.compare_eq_iff_eq] at h
    exact eq_of_fields h.left h.right.left h.right.right.left h.right.right.right

instance instLawfulEqCmpReportOrder : Std.LawfulEqCmp reportOrder where
  eq_of_compare {v w} h := by
    simp only [reportOrder, Ordering.then_eq_eq, Std.LawfulEqCmp.compare_eq_iff_eq] at h
    exact eq_of_fields h.right.left h.right.right.left h.right.right.right h.left

end Violation
end FeatureModel
