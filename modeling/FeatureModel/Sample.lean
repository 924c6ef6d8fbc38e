import FeatureModel.Draft
import FeatureModel.Evaluation.Compile

/-!
# A sample feature model

A storage engine with a choice of two backends and an optional cache, compiled
under the built-in rules.  The outcome of the sample program is a value: what it
writes and how it exits.
-/

namespace FeatureModel
namespace Sample

def features : List Attributes :=
  [{ guid := 0, name := "Storage engine", mandatory := true, rationale := "Core persistence" },
    { guid := 1, name := "Disk backend", bindingTime := .initialization },
    { guid := 2, name := "Memory backend", bindingTime := .initialization },
    { guid := 3, name := "Result cache", bindingTime := .runtime,
      rationale := "Optional speedup" }]

def links : List (Guid × Link) :=
  [(1, { target := 2, kind := .alternative }), (3, { target := 2, kind := .complex })]

def draft : Except UnknownFeature Unit × Draft :=
  (links.forM fun link => Draft.addLink link.1 link.2).on (features.foldl Draft.addFeature {})

def report (mode : Mode) : Except String Report :=
  match draft with
  | (.error e, _) => .error e.message
  | (.ok _, d) =>
      (compileRecords .sequential d.records d.tolerate Registry.builtin mode).mapError
        CompileError.message

structure Outcome where
  exitCode : UInt32 := 0
  output : String := ""
  errorOutput : String := ""
deriving DecidableEq, Repr

/-- The mode that the arguments ask for: strict if the first one says so. -/
def modeOf (arguments : List String) : Mode :=
  match arguments with
  | first :: _ => if Text.untilNul first = "--strict" then .strict else .lenient
  | [] => .lenient

def banner (title : String) : String :=
  "\n\n====== " ++ title ++ " ======\n"

def outcome (arguments : List String) : Outcome :=
  match report (modeOf arguments) with
  | .ok r =>
      { exitCode := if r.isValid then 0 else 1
        output := banner "featc" ++ r.text ++
          banner (if r.isValid then "normal exit" else "abnormal exit") }
  | .error message =>
      { exitCode := 1
        output := banner "featc" ++ banner "abnormal exit"
        errorOutput := "\n\nError:\n" ++ message ++ "\n" }

end Sample
end FeatureModel
