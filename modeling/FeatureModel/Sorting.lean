/-!
# Sorting by a comparison

`sortBy` arranges a list so that no element comes before a smaller one, and elements
that compare as equal keep their order.  It recurses on the list, so that closed terms
evaluate in the kernel, where the library's `mergeSort` does not; the two agree, and
what is known of one is read off the other.
-/

namespace FeatureModel
namespace Sorting

variable {α : Type} {cmp : α -> α -> Ordering}

def insertBy (cmp : α -> α -> Ordering) (a : α) : List α -> List α
  | [] => [a]
  | b :: rest => if (cmp a b).isLE then a :: b :: rest else b :: insertBy cmp a rest

def sortBy (cmp : α -> α -> Ordering) : List α -> List α
  | [] => []
  | a :: rest => insertBy cmp a (sortBy cmp rest)

/-- No element of the list comes before a smaller one. -/
def Ascending (cmp : α -> α -> Ordering) (xs : List α) : Prop :=
  xs.Pairwise (fun a b => (cmp a b).isLE = true)

theorem insertBy_append {a : α} {before after : List α}
    (hbefore : forall b, b ∈ before -> (cmp a b).isLE = false)
    (hafter : forall b, b ∈ after -> (cmp a b).isLE = true) :
    insertBy cmp a (before ++ after) = before ++ a :: after := by
  induction before with
  | nil =>
      cases after with
      | nil => rfl
      | cons b rest => simp [insertBy, hafter b (by simp)]
  | cons b rest ih =>
      have hrest := ih (fun c hc => hbefore c (List.mem_cons_of_mem b hc))
      simp [insertBy, hbefore b (by simp), hrest]

section TransCmp

variable [Std.TransCmp cmp]

theorem isLE_total (a b : α) : ((cmp a b).isLE || (cmp b a).isLE) = true := by
  have hswap : cmp b a = (cmp a b).swap := Std.OrientedCmp.eq_swap
  rw [hswap]
  cases cmp a b <;> rfl

/-- The sort is the library's. -/
theorem sortBy_eq_mergeSort (xs : List α) :
    sortBy cmp xs = xs.mergeSort (fun a b => (cmp a b).isLE) := by
  have htrans : forall a b c : α, (cmp a b).isLE = true -> (cmp b c).isLE = true ->
      (cmp a c).isLE = true := fun _ _ _ => Std.TransCmp.isLE_trans
  induction xs with
  | nil => rw [sortBy, List.mergeSort_nil]
  | cons a rest ih =>
      rcases List.mergeSort_cons htrans isLE_total a rest with ⟨before, after, hall, hrest, hbefore⟩
      have hsorted := List.pairwise_mergeSort htrans isLE_total (a :: rest)
      rw [hall] at hsorted ⊢
      rw [sortBy, ih, hrest, insertBy_append]
      · intro b hb
        simpa using hbefore b hb
      · exact (List.pairwise_cons.mp (List.pairwise_append.mp hsorted).right.left).left

theorem sortBy_perm (cmp : α -> α -> Ordering) [Std.TransCmp cmp] (xs : List α) :
    (sortBy cmp xs).Perm xs := by
  rw [sortBy_eq_mergeSort]
  exact List.mergeSort_perm xs _

@[simp] theorem mem_sortBy {x : α} {xs : List α} : x ∈ sortBy cmp xs <-> x ∈ xs :=
  (sortBy_perm cmp xs).mem_iff

theorem ascending_sortBy (cmp : α -> α -> Ordering) [Std.TransCmp cmp] (xs : List α) :
    Ascending cmp (sortBy cmp xs) := by
  rw [sortBy_eq_mergeSort]
  exact List.pairwise_mergeSort (fun _ _ _ => Std.TransCmp.isLE_trans) isLE_total xs

/-- Sorting is stable: what compares as equal to an element keeps its order. -/
theorem filter_sortBy (a : α) (xs : List α) :
    (sortBy cmp xs).filter (fun b => decide (cmp a b = .eq)) =
      xs.filter (fun b => decide (cmp a b = .eq)) := by
  have hsorted : (xs.filter (fun b => decide (cmp a b = .eq))).Pairwise
      (fun b c => (cmp b c).isLE = true) := by
    rw [List.pairwise_filter]
    refine List.pairwise_of_forall ?_
    intro b c hb hc
    rw [Std.TransCmp.eq_trans (Std.OrientedCmp.eq_symm (of_decide_eq_true hb))
      (of_decide_eq_true hc)]
    rfl
  have hsublist : (xs.filter (fun b => decide (cmp a b = .eq))).Sublist (sortBy cmp xs) := by
    rw [sortBy_eq_mergeSort]
    exact List.sublist_mergeSort (fun _ _ _ => Std.TransCmp.isLE_trans) isLE_total hsorted
      List.filter_sublist
  have hkept := hsublist.filter (fun b => decide (cmp a b = .eq))
  rw [List.filter_filter] at hkept
  simp only [Bool.and_self] at hkept
  exact (hkept.eq_of_length ((sortBy_perm cmp xs).filter _).length_eq.symm).symm

theorem pairwise_sortBy {R : α -> α -> Prop} {xs : List α} (h : xs.Pairwise R) :
    (sortBy cmp xs).Pairwise (fun a b => cmp a b = .lt ∨ (cmp a b = .eq ∧ R a b)) := by
  rw [List.pairwise_iff_forall_sublist]
  intro a b hsublist
  rcases Ordering.isLE_iff_eq_lt_or_eq_eq.mp
    ((ascending_sortBy cmp xs).forall_sublist hsublist) with hlt | heq
  · exact Or.inl hlt
  · have hkept := hsublist.filter (fun c => decide (cmp a c = .eq))
    have hself : cmp a a = .eq := Std.ReflCmp.compare_self
    rw [filter_sortBy] at hkept
    simp only [List.filter_cons, hself, heq, decide_true, if_true, List.filter_nil] at hkept
    exact Or.inr ⟨heq, h.forall_sublist (hkept.trans List.filter_sublist)⟩

theorem eq_of_perm_of_ascending [Std.LawfulEqCmp cmp] {xs ys : List α}
    (hxs : Ascending cmp xs) (hys : Ascending cmp ys) (h : xs.Perm ys) : xs = ys := by
  refine List.Perm.eq_of_pairwise ?_ hxs hys h
  intro a b _ _ hab hba
  cases hcmp : cmp a b with
  | eq => exact Std.LawfulEqCmp.eq_of_compare hcmp
  | lt =>
      have hgt : cmp b a = .gt := Std.OrientedCmp.gt_iff_lt.mpr hcmp
      simp [hgt] at hba
  | gt => simp [hcmp] at hab

end TransCmp
end Sorting
end FeatureModel
