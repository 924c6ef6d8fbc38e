import FeatureModel.Graph.Lookup
import FeatureModel.Proofs.Graph.TableOrder
import FeatureModel.Proofs.Graph.Views
import FeatureModel.Proofs.PartitionPoint

/-!
# Edges of a guid

The edge table is sorted by source, so the stretch that is searched for a guid holds
all edges of that guid.
-/

namespace FeatureModel
namespace Graph

theorem Holds.contains_iff {records : List Record} {numbers : Nat -> Record -> List Nat} {g : Graph}
    (h : Holds records numbers g) {guid : Guid} :
    g.contains guid = true <-> exists q, q ∈ records ∧ q.guid = guid := by
  unfold contains
  rw [h.lookup_firsts, List.isSome_head?, ne_eq, positionsIn_eq_nil_iff]
  simp

section Built

variable {records : List Record} {tolerate : Bool} {g : Graph}

theorem edgesFrom_eq_filter (h : build records tolerate = .ok g) (guid : Guid) :
    g.edgesFrom guid = g.edges.toList.filter (fun e => decide (e.source = guid)) := by
  have hsorted : g.edges.toList.Pairwise (fun e f => e.source ≤ f.source) := by
    rw [edges_of_build h]
    refine (pairwise_tableOf records).imp ?_
    intro e f hef
    rcases hef with hlt | ⟨heq, _⟩
    · exact Int.le_of_lt hlt
    · exact Int.le_of_eq heq
  exact extract_partitionPoint_eq_filter hsorted

theorem map_toExported_outgoing (h : build records tolerate = .ok g) (guid : Guid) :
    (g.outgoing guid).map (List.map Edge.toExported) =
      if g.contains guid then .ok (g.toExported.edges.filter (fun e => decide (e.source = guid)))
      else .error { guid := guid } := by
  unfold outgoing
  split
  · show Except.ok ((g.edgesFrom guid).map Edge.toExported) = _
    rw [edgesFrom_eq_filter h]
    show _ = Except.ok ((g.edges.toList.map Edge.toExported).filter _)
    rw [List.filter_map]
    rfl
  · rfl

end Built

end Graph
end FeatureModel
