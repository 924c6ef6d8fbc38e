import FeatureModel.Report.Basic

/-!
# Rendering findings into a report

Findings reach a report in any order, with guids spelled in any way, and with
repetitions.  A report holds each defect once, at its greatest severity, in
report order; so it depends only on the set of findings.
-/

namespace FeatureModel
namespace Report

/-- One finding of each defect, the most severe one, grouped by defect. -/
def distinct (violations : List Violation) : List Violation :=
  Runs.heads Violation.sameDefect
    (Sorting.sortBy Violation.defectOrder (violations.map Violation.normalize))

def arrange (violations : List Violation) : List Violation :=
  Sorting.sortBy Violation.reportOrder (distinct violations)

def countOf (severity : Severity) (violations : List Violation) : Nat :=
  violations.countP (fun v => decide (v.severity = severity))

/-- The verdict: no errors, and in strict mode no warnings either. -/
def verdict (mode : Mode) (errors warnings : Nat) : Bool :=
  errors == 0 && (mode == .lenient || warnings == 0)

def render (violations : List Violation) (mode : Mode) : Report :=
  let arranged := arrange violations
  let errors := countOf .error arranged
  let warnings := countOf .warning arranged
  { isValid := verdict mode errors warnings
    mode := mode
    violations := arranged
    errorCount := errors
    warningCount := warnings }

end Report
end FeatureModel
