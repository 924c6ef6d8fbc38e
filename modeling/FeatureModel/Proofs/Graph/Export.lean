import FeatureModel.Proofs.Graph.Acceptance
import FeatureModel.Proofs.Graph.TableOrder

/-!
# Records read back from an exported graph

An exported graph knows no positions and no numbers of links, and lists its edges by
source guid.  Read back, each record has all links of its guid.  So the records are
told apart, and nothing about them is lost, where no guid is repeated.
-/

namespace FeatureModel

def ExportedEdge.link (e : ExportedEdge) : Link where
  target := e.target
  kind := e.kind

namespace ExportedGraph

/-- The record that a node tells of; its links are the edges from its guid. -/
def recordOf (exported : ExportedGraph) (node : Attributes) : Record where
  toAttributes := node
  links := (exported.edges.filter (fun e => decide (e.source = node.guid))).map ExportedEdge.link

def toRecords (exported : ExportedGraph) : List Record :=
  exported.nodes.map exported.recordOf

end ExportedGraph

namespace Graph

theorem map_link_exportLink (source : Guid) (links : List Link) :
    (links.map (exportLink source)).map ExportedEdge.link = links := by
  rw [List.map_map]
  exact List.map_id links

variable {records : List Record} {tolerate : Bool} {g : Graph}

theorem filter_source_toExported (h : build records tolerate = .ok g) (guid : Guid) :
    g.toExported.edges.filter (fun e => decide (e.source = guid)) =
      (linksOf records guid).map (exportLink guid) := by
  show (g.edges.toList.map Edge.toExported).filter _ = _
  rw [edges_of_build h, List.filter_map, <- map_toExported_filter_source]
  rfl

theorem toRecords_toExported (h : build records tolerate = .ok g) :
    g.toExported.toRecords = records.map (fun r => { r with links := linksOf records r.guid }) := by
  have hnodes : g.toExported.nodes = records.map Record.toAttributes :=
    (holds_of_build h).map_toAttributes
  unfold ExportedGraph.toRecords
  rw [hnodes, List.map_map]
  apply List.map_congr_left
  intro r _
  show Record.mk r.toAttributes _ = Record.mk r.toAttributes _
  rw [filter_source_toExported h, map_link_exportLink]

/-- Records without repeated guids are read back from their exported graph as they were, so they
have the same graph again. -/
theorem records_read_back_of_build (h : build records false = .ok g) :
    g.toExported.toRecords = records ∧
      build g.toExported.toRecords false = .ok g ∧
      (build g.toExported.toRecords false).map toExported = .ok g.toExported := by
  have hnodup := nodup_guids_of_build h
  have hrecords : g.toExported.toRecords = records := by
    rw [toRecords_toExported h]
    calc
      records.map (fun r => { r with links := linksOf records r.guid })
          = records.map id := by
            apply List.map_congr_left
            intro r hr
            rw [linksOf_eq_links hnodup hr]
            rfl
      _ = records := List.map_id records
  rw [hrecords, h]
  exact ⟨rfl, rfl, rfl⟩

/-- Guids that fall, with links ahead and back: the edges of the last record come first. -/
theorem records_read_back_from_falling_guids :
    let records : List Record :=
      [{ guid := 7, name := "a", rationale := "x", mandatory := true,
         links := [{ target := -2, kind := .incompatible }, { target := 3, kind := .complex },
           { target := -2, kind := .alternative }] },
        { guid := 3, name := "b", bindingTime := .runtime,
          links := [{ target := 7, kind := .complex }] },
        { guid := -2, name := "", links := [{ target := 3, kind := .alternative },
          { target := 7, kind := .alternative }] }]
    let g := ofRecords records
    build records false = .ok g ∧ g.toExported.toRecords = records ∧
      build g.toExported.toRecords false = .ok g ∧
      (build g.toExported.toRecords false).map toExported = .ok g.toExported := by
  intro records g
  have hbuild : build records false = .ok g := rfl
  exact ⟨hbuild, records_read_back_of_build hbuild⟩

end Graph
end FeatureModel
