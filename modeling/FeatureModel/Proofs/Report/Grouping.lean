import FeatureModel.Proofs.Report.Order
import FeatureModel.Proofs.Sorting

/-!
# Findings grouped by defect

The orders of a report are strict and total, so that findings are sorted in one way
only.  In the order of defects the findings of one defect stand together, with the most
severe in front, and it is the one that is kept.
-/

namespace FeatureModel
namespace Violation

/-- Whether findings stand in groups of one defect each, and the most severe finding of each group,
in front of the others, is kept. -/
structure Grouped (findings : List Violation) (groups : List (Violation × List Violation))
    (kept : List Violation) : Prop where
  flatMap_eq : groups.flatMap (fun g => g.1 :: g.2) = findings
  sameDefect_within : forall g, g ∈ groups -> forall v, v ∈ g.2 -> sameDefect g.1 v = true
  severe_first : forall g, g ∈ groups -> forall v, v ∈ g.2 -> g.1.severity.rank ≤ v.severity.rank
  apart : groups.Pairwise (fun g h =>
    forall v w, v ∈ g.1 :: g.2 -> w ∈ h.1 :: h.2 -> sameDefect v w = false)
  kept_eq : kept = groups.map Prod.fst

/-- Whether one finding of a defect is kept, and none of the defect is more severe. -/
structure KeepsGravest (findings kept : List Violation) (v w : Violation) : Prop where
  filter_eq : kept.filter (fun u => sameDefect u v) = [w]
  mem : w ∈ findings
  rank_le : forall u, u ∈ findings -> sameDefect u v = true -> w.severity.rank ≤ u.severity.rank

theorem sameDefect_iff {v w : Violation} :
    sameDefect v w = true <-> v.writtenKey = w.writtenKey :=
  tells_sameDefect v w

theorem sameDefect_eq_false_iff {v w : Violation} :
    sameDefect v w = false <-> v.writtenKey ≠ w.writtenKey := by
  rw [Ne, <- sameDefect_iff, Bool.not_eq_true]

variable {findings : List Violation}

theorem grouped_heads (hsorted : Sorting.Ascending defectOrder findings) :
    Grouped findings (Runs.groups sameDefect findings) (Runs.heads sameDefect findings) where
  flatMap_eq := Runs.flatMap_groups sameDefect findings
  sameDefect_within g hg v hv :=
    sameDefect_iff.mpr
      (Runs.key_eq_of_mem_groups tells_sameDefect hg v (List.mem_cons_of_mem _ hv)).symm
  severe_first g hg v hv :=
    rank_le_of_isLE_defectOrder (Runs.rel_of_mem_groups hsorted hg v hv)
      (Runs.key_eq_of_mem_groups tells_sameDefect hg v (List.mem_cons_of_mem _ hv)).symm
  apart := by
    refine (Runs.pairwise_key_ne_groups tells_sameDefect keepsTogether_defectOrder hsorted).imp ?_
    intro g h hne v w hv hw
    exact sameDefect_eq_false_iff.mpr (hne v w hv hw)
  kept_eq := (Runs.map_fst_groups tells_sameDefect findings).symm

theorem exists_keepsGravest (hsorted : Sorting.Ascending defectOrder findings) {v : Violation}
    (hv : v ∈ findings) :
    exists w, KeepsGravest findings (Runs.heads sameDefect findings) v w := by
  have hnodup := Runs.nodup_key_heads tells_sameDefect keepsTogether_defectOrder hsorted
  rcases Runs.exists_head_of_mem tells_sameDefect hsorted hv with ⟨w, hw, hkey, _⟩
  have hone : (Runs.heads sameDefect findings).filter (fun u => sameDefect u v) = [w] := by
    apply Runs.filter_eq_singleton hnodup hw
    intro u
    rw [sameDefect_iff, hkey]
  refine ⟨w, hone, (Runs.heads_sublist _ _).subset hw, ?_⟩
  intro u hu husame
  rcases Runs.exists_head_of_mem tells_sameDefect hsorted hu with ⟨t, ht, htkey, hfirst⟩
  have hwt : t = w := by
    apply List.inj_on_of_nodup_map hnodup ht hw
    rw [htkey, hkey, sameDefect_iff.mp husame]
  rw [hwt] at hfirst htkey
  rcases hfirst with heq | hle
  · rw [heq]
  · exact rank_le_of_isLE_defectOrder hle htkey

/-- Both orders of a report are strict and total, so whatever sorts by one of them gives the same.
Findings in the order of defects stand in groups of one defect each; what is left of neighbours of
one defect is the first finding of each group, so one most severe finding of each defect. -/
theorem orders_total_and_group_soundly :
    Sorting.IsStrictTotal reportOrder ∧ Sorting.IsStrictTotal defectOrder ∧
      forall findings, Sorting.InOrder defectOrder findings ->
        (exists groups, Grouped findings groups (Runs.heads sameDefect findings)) ∧
          forall v, v ∈ findings ->
            exists w, KeepsGravest findings (Runs.heads sameDefect findings) v w := by
  refine ⟨Sorting.isStrictTotal, Sorting.isStrictTotal, ?_⟩
  intro findings hinorder
  have hsorted : Sorting.Ascending defectOrder findings :=
    Sorting.inOrder_iff_ascending.mp hinorder
  exact ⟨⟨_, grouped_heads hsorted⟩, fun _ hv => exists_keepsGravest hsorted hv⟩

/-- Three findings of one defect and two of another that differs in the spelling of its guids. -/
theorem orders_total_and_group_soundly_by_spelling :
    let grave : Violation := { ruleId := "a", guids := [1], message := "found" }
    let light : Violation := { grave with severity := .warning }
    let respelled : Violation := { light with guids := [1, 1] }
    let findings := [grave, light, light, respelled, respelled]
    Sorting.InOrder defectOrder findings ∧ ¬ Sorting.InOrder defectOrder findings.reverse ∧
      Runs.heads sameDefect findings = [grave, respelled] ∧
      (exists groups, Grouped findings groups [grave, respelled]) ∧
      exists w, KeepsGravest findings [grave, respelled] light w := by
  intro grave light respelled findings
  have hinorder : Sorting.InOrder defectOrder findings := by
    unfold Sorting.InOrder
    decide +kernel
  have hheads : Runs.heads sameDefect findings = [grave, respelled] := by decide +kernel
  rcases orders_total_and_group_soundly.right.right findings hinorder with ⟨hgrouped, hkept⟩
  rw [hheads] at hgrouped hkept
  refine ⟨hinorder, ?_, hheads, hgrouped, hkept light (by decide)⟩
  unfold Sorting.InOrder
  decide +kernel

end Violation
end FeatureModel
