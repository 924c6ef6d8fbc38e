import FeatureModel.Sorting

/-!
# Runs of a list

A run is a longest stretch of neighbours that are the same as the first of
them.  `heads` keeps the first element of each run; on a sorted list that leaves
one element of each kind.
-/

namespace FeatureModel
namespace Runs

variable {α : Type}

def headsAfter (same : α -> α -> Bool) (x : α) : List α -> List α
  | [] => []
  | y :: rest =>
      if same x y then headsAfter same x rest else y :: headsAfter same y rest

/-- The first elements of the runs of a list. -/
def heads (same : α -> α -> Bool) : List α -> List α
  | [] => []
  | x :: rest => x :: headsAfter same x rest

/-- The distinct elements of a list of integers, in ascending order. -/
def ascending (xs : List Int) : List Int :=
  heads (fun a b => decide (a = b)) (Sorting.sortBy compare xs)

theorem headsAfter_sublist (same : α -> α -> Bool) (x : α) (xs : List α) :
    (headsAfter same x xs).Sublist xs := by
  induction xs generalizing x with
  | nil => exact List.Sublist.refl []
  | cons y rest ih =>
      unfold headsAfter
      split
      · exact List.Sublist.cons y (ih x)
      · exact List.Sublist.cons_cons y (ih y)

theorem heads_sublist (same : α -> α -> Bool) (xs : List α) :
    (heads same xs).Sublist xs := by
  cases xs with
  | nil => exact List.Sublist.refl []
  | cons x rest => exact List.Sublist.cons_cons x (headsAfter_sublist same x rest)

end Runs
end FeatureModel
