import FeatureModel.Graph.Basic
import FeatureModel.PartitionPoint

/-!
# Looking up features and their edges

Lookups that need a declared guid fail with the guid that is not declared.  The
edges of a guid form one stretch of the edge table, which is found by binary
search.
-/

namespace FeatureModel

structure UnknownFeature where
  guid : Guid
deriving DecidableEq, Repr

def UnknownFeature.message (e : UnknownFeature) : String :=
  "No feature with guid " ++ Text.decimal e.guid

namespace Graph

def get (g : Graph) (guid : Guid) : Except UnknownFeature Feature :=
  match g.find? guid with
  | some feature => .ok feature
  | none => .error { guid := guid }

/-- The stretch of the edge table whose sources are the given guid. -/
def edgesFrom (g : Graph) (guid : Guid) : List Edge :=
  let first := partitionPoint (fun e => decide (e.source < guid)) g.edges 0 g.edges.size
  let last := partitionPoint (fun e => decide (e.source ≤ guid)) g.edges first g.edges.size
  (g.edges.extract first last).toList

def outgoing (g : Graph) (guid : Guid) : Except UnknownFeature (List Edge) :=
  if g.contains guid then .ok (g.edgesFrom guid) else .error { guid := guid }

def outgoingOfKind (g : Graph) (guid : Guid) (kind : RelationshipKind) :
    Except UnknownFeature (List Edge) := do
  let edges <- g.outgoing guid
  return edges.filter (fun e => decide (e.kind = kind))

end Graph
end FeatureModel
