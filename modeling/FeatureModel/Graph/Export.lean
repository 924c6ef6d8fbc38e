import FeatureModel.Graph.Basic

/-!
# Exported graphs

An exported graph is plain data for other programs: the attributes of the
features in declaration order, and the edges in table order.
-/

namespace FeatureModel

structure ExportedEdge where
  source : Guid
  target : Guid
  kind : RelationshipKind
deriving DecidableEq, Repr

structure ExportedGraph where
  nodes : List Attributes
  edges : List ExportedEdge
deriving DecidableEq, Repr

def Edge.toExported (e : Edge) : ExportedEdge where
  source := e.source
  target := e.target
  kind := e.kind

def Graph.toExported (g : Graph) : ExportedGraph where
  nodes := g.features.toList.map Feature.toAttributes
  edges := g.edges.toList.map Edge.toExported

end FeatureModel
