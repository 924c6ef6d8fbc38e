import FeatureModel.Graph.Export
import FeatureModel.Graph.Lookup

/-!
# Queries

A query is a question about a graph, kept as a value.  The answer is what the
function of that name gives.
-/

namespace FeatureModel
namespace Graph

inductive Query where
  | contains (guid : Guid)
  | find (guid : Guid)
  | get (guid : Guid)
  | declarations (guid : Guid)
  | featureAt (position : Nat)
  | outgoing (guid : Guid)
  | outgoingOfKind (guid : Guid) (kind : RelationshipKind)
  | kindsBetween (source target : Guid)
  | hasRelationship (a b : Guid)
  | counts
  | whole
  | exported
deriving DecidableEq, Repr

inductive Answer where
  | flag (value : Bool)
  | feature (value : Feature)
  | feature? (value : Option Feature)
  | features (value : List Feature)
  | edges (value : List Edge)
  | kinds (value : KindSet)
  | counts (features edges : Nat)
  | graph (value : Graph)
  | exported (value : ExportedGraph)
deriving DecidableEq, Repr

inductive QueryError where
  | unknownFeature (error : UnknownFeature)
  | positionOutOfRange
deriving DecidableEq, Repr

def featureAt (g : Graph) (position : Nat) : Except QueryError Feature :=
  match g.features[position]? with
  | some feature => .ok feature
  | none => .error .positionOutOfRange

def answer (g : Graph) : Query -> Except QueryError Answer
  | .contains guid => .ok (.flag (g.contains guid))
  | .find guid => .ok (.feature? (g.find? guid))
  | .get guid => ((g.get guid).map .feature).mapError .unknownFeature
  | .declarations guid => .ok (.features (g.declarations guid))
  | .featureAt position => (g.featureAt position).map .feature
  | .outgoing guid => ((g.outgoing guid).map .edges).mapError .unknownFeature
  | .outgoingOfKind guid kind =>
      ((g.outgoingOfKind guid kind).map .edges).mapError .unknownFeature
  | .kindsBetween source target => .ok (.kinds (g.kindsBetween source target))
  | .hasRelationship a b => .ok (.flag (g.hasRelationship a b))
  | .counts => .ok (.counts g.features.size g.edges.size)
  | .whole => .ok (.graph g)
  | .exported => .ok (.exported g.toExported)

end Graph
end FeatureModel
