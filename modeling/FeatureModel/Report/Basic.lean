import FeatureModel.Violation

/-!
# Reports

A report is the outcome of compiling a feature model: the findings, how many of
them are errors and warnings, and the verdict under the chosen mode.
-/

namespace FeatureModel

/-- How strict the verdict is: whether warnings alone make a model invalid. -/
inductive Mode where
  | lenient
  | strict
deriving DecidableEq, Repr, Inhabited

namespace Mode

def all : List Mode :=
  [lenient, strict]

def name : Mode -> String
  | lenient => "lenient"
  | strict => "strict"

/-- The name of the mode with the given number; any other number counts as lenient. -/
def nameAt (n : Int) : String :=
  match n with
  | .ofNat i => ((all[i]?).getD lenient).name
  | .negSucc _ => lenient.name

end Mode

structure Report where
  isValid : Bool := true
  mode : Mode := .lenient
  violations : List Violation := []
  errorCount : Nat := 0
  warningCount : Nat := 0
deriving DecidableEq, Repr, Inhabited

namespace Report

def summary (r : Report) : String :=
  (if r.isValid then "Compilation succeeded" else "Compilation failed") ++
    " (mode=" ++ r.mode.name ++
    ", errors=" ++ Text.natDecimal r.errorCount ++
    ", warnings=" ++ Text.natDecimal r.warningCount ++ ")"

def text (r : Report) : String :=
  r.summary ++ "\n" ++ String.join (r.violations.map (fun v => "  " ++ v.text ++ "\n"))

end Report
end FeatureModel
