import FeatureModel.Sample

/-!
# The sample program

Writes what the sample program comes to, and exits as it says.
-/

def main (arguments : List String) : IO UInt32 := do
  let outcome := FeatureModel.Sample.outcome arguments
  IO.print outcome.output
  IO.eprint outcome.errorOutput
  return outcome.exitCode
