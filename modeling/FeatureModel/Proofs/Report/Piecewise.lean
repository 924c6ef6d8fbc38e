import FeatureModel.Proofs.Report.Gravity

/-!
# Reports put together from reports

A defect found in two lists is as grave as in the list that takes it more seriously.
A report of some findings says how grave each defect is, so it may stand in for them:
findings may be reported part by part, in any grouping, before the whole is reported.
-/

namespace FeatureModel

def Severity.graver : Severity -> Severity -> Severity
  | error, _ => error
  | warning, s => s

namespace Report

/-- A way to bring findings together: parts are joined, and some are reported on the way, in some
mode, so that only what their reports say goes on. -/
inductive Gathering where
  | found (findings : List Violation)
  | joined (left right : Gathering)
  | reported (mode : Mode) (part : Gathering)

namespace Gathering

def findings : Gathering -> List Violation
  | found xs => xs
  | joined left right => left.findings ++ right.findings
  | reported _ part => part.findings

/-- What goes on when the reports on the way have been made. -/
def passedOn : Gathering -> List Violation
  | found xs => xs
  | joined left right => left.passedOn ++ right.passedOn
  | reported mode part => (render part.passedOn mode).violations

end Gathering

theorem gravest_append (xs ys : List Violation) (k : DefectKey) :
    gravest (xs ++ ys) k = (gravest xs k).merge Severity.graver (gravest ys k) := by
  unfold gravest
  simp only [List.map_append, List.mem_append]
  -- Whether each of the lists has the defect as an error or as a warning settles both sides.
  by_cases hxe : (k, .error) ∈ xs.map Violation.gist <;>
    by_cases hye : (k, .error) ∈ ys.map Violation.gist <;>
      by_cases hxw : (k, .warning) ∈ xs.map Violation.gist <;>
        by_cases hyw : (k, .warning) ∈ ys.map Violation.gist <;>
          simp only [hxe, hye, hxw, hyw, true_or, or_true, or_self, if_true, if_false] <;> rfl

theorem gravest_violations_render (findings : List Violation) (mode : Mode) (k : DefectKey) :
    gravest (render findings mode).violations k = gravest findings k :=
  gravest_arrange findings k

theorem gravest_passedOn (g : Gathering) (k : DefectKey) :
    gravest g.passedOn k = gravest g.findings k := by
  induction g with
  | found xs => rfl
  | joined left right ihleft ihright =>
      show gravest (left.passedOn ++ right.passedOn) k = gravest (left.findings ++ right.findings) k
      rw [gravest_append, gravest_append, ihleft, ihright]
  | reported mode part ih =>
      show gravest (render part.passedOn mode).violations k = gravest part.findings k
      rw [gravest_violations_render, ih]

/-- The report of some findings, together with further ones, is reported as the findings themselves
would be.  So reporting a report again changes nothing, and findings gathered piecewise have the
report that they have as one list. -/
theorem render_gathered (mode : Mode) :
    (forall xs ys mode', render ((render xs mode').violations ++ ys) mode = render (xs ++ ys) mode) ∧
      (forall xs mode', render (render xs mode').violations mode = render xs mode) ∧
      forall g : Gathering, render g.passedOn mode = render g.findings mode := by
  have hgathered : forall g : Gathering, render g.passedOn mode = render g.findings mode :=
    fun g => render_eq_iff.mpr (gravest_passedOn g)
  refine ⟨?_, ?_, hgathered⟩
  · intro xs ys mode'
    exact hgathered (.joined (.reported mode' (.found xs)) (.found ys))
  · intro xs mode'
    exact hgathered (.reported mode' (.found xs))

/-- A warning reported on its own goes under when its defect turns out to be an error. -/
example :
    let error : Violation := { ruleId := "a", guids := [2, 1], message := "m" }
    let warning : Violation := { error with severity := .warning, guids := [1, 2, 1] }
    let early : Gathering := .joined (.reported .strict (.found [warning, warning])) (.found [error])
    render early.passedOn .lenient =
      { isValid := false, mode := .lenient, violations := [{ error with guids := [1, 2] }],
        errorCount := 1, warningCount := 0 } := by
  decide +kernel

end Report
end FeatureModel
