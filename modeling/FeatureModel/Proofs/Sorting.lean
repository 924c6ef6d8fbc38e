import FeatureModel.Sorting
import Mathlib.Data.List.Chain

/-!
# Orders that leave no choice

Where a comparison is a strict total order, elements have one sorted list only: any two
ways of sorting them give the same, however they treat elements on the way.
-/

namespace FeatureModel
namespace Sorting

variable {α : Type} {cmp : α -> α -> Ordering}

/-- No element of the list is smaller than the one before it. -/
def InOrder (cmp : α -> α -> Ordering) (xs : List α) : Prop :=
  xs.IsChain (fun a b => cmp b a ≠ .lt)

/-- Whether a comparison tells different elements apart, one way only and without cycles, and so
sorts them in one way. -/
structure IsStrictTotal (cmp : α -> α -> Ordering) : Prop where
  irrefl : forall a, cmp a a ≠ .lt
  trans : forall a b c, cmp a b = .lt -> cmp b c = .lt -> cmp a c = .lt
  one_direction : forall a b, a ≠ b ->
    (cmp a b = .lt ∧ cmp b a ≠ .lt) ∨ (cmp b a = .lt ∧ cmp a b ≠ .lt)
  eq_of_inOrder : forall xs ys zs : List α, ys.Perm xs -> zs.Perm xs ->
    InOrder cmp ys -> InOrder cmp zs -> ys = zs

theorem ne_lt_iff_isLE [Std.OrientedCmp cmp] {a b : α} :
    cmp b a ≠ .lt <-> (cmp a b).isLE = true := by
  have hswap : cmp a b = (cmp b a).swap := Std.OrientedCmp.eq_swap
  rw [hswap]
  cases cmp b a <;> decide

theorem inOrder_iff_ascending [Std.TransCmp cmp] {xs : List α} :
    InOrder cmp xs <-> Ascending cmp xs := by
  have htrans : IsTrans α (fun a b => (cmp a b).isLE = true) :=
    ⟨fun _ _ _ => Std.TransCmp.isLE_trans⟩
  unfold InOrder Ascending
  simp only [ne_lt_iff_isLE]
  exact List.isChain_iff_pairwise

theorem isStrictTotal [Std.TransCmp cmp] [Std.LawfulEqCmp cmp] : IsStrictTotal cmp where
  irrefl a := by
    have hself : cmp a a = .eq := Std.ReflCmp.compare_self
    rw [hself]
    decide
  trans _ _ _ := Std.TransCmp.lt_trans
  one_direction a b hne := by
    cases hab : cmp a b with
    | lt =>
        rw [Std.OrientedCmp.gt_iff_lt.mpr hab]
        decide
    | eq => exact absurd (Std.LawfulEqCmp.eq_of_compare hab) hne
    | gt =>
        rw [Std.OrientedCmp.gt_iff_lt.mp hab]
        decide
  eq_of_inOrder _ _ _ hys hzs hysorted hzsorted :=
    eq_of_perm_of_ascending (inOrder_iff_ascending.mp hysorted)
      (inOrder_iff_ascending.mp hzsorted) (hys.trans hzs.symm)

end Sorting
end FeatureModel
