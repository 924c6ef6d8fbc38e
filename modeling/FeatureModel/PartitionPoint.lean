/-!
# Partition points

In a stretch of an array where a test holds up to some place and fails from
there on, binary search finds that place.
-/

namespace FeatureModel

/-- The place in the stretch from `lo` to `hi` at which the test begins to fail. -/
def partitionPoint {α : Type} (test : α -> Bool) (xs : Array α) (lo hi : Nat) : Nat :=
  if lo < hi then
    let middle := lo + (hi - lo) / 2
    if (xs[middle]?).any test then
      partitionPoint test xs (middle + 1) hi
    else
      partitionPoint test xs lo middle
  else
    lo
termination_by hi - lo

end FeatureModel
