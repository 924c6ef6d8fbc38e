import FeatureModel.Index
import FeatureModel.KindSet
import FeatureModel.Record

/-!
# Feature graphs

A feature graph holds one feature per record, in declaration order, and a table
of edges, one per declared link.  Three indexes answer questions by guid: the
position of the first feature that declares a guid, the positions of all that do,
and the kinds declared from one guid toward another.
-/

namespace FeatureModel

structure Feature extends Attributes where
  /-- The number of the record that declares the feature. -/
  position : Nat
  /-- The numbers, in the edge table, of the edges that the feature declares. -/
  edges : List Nat
deriving DecidableEq, Repr, Inhabited

/-- A declared link with both of its ends resolved. -/
structure Edge where
  source : Guid
  target : Guid
  kind : RelationshipKind
  /-- The position of the feature that declares the edge. -/
  sourcePosition : Nat
  /-- The position of the first feature that declares the target. -/
  targetPosition : Nat
  /-- The number of the link within its record. -/
  linkNumber : Nat
deriving DecidableEq, Repr, Inhabited

structure Graph where
  features : Array Feature
  /-- The edges by source guid, then by source position, then by link number. -/
  edges : Array Edge
  /-- The position of the first feature that declares a guid. -/
  firsts : Index Guid Nat
  /-- The positions of the features that declare a guid, in ascending order. -/
  positions : Index Guid (List Nat)
  /-- The kinds declared from the first guid of a pair toward the second. -/
  kinds : Index (Guid × Guid) KindSet
deriving DecidableEq, Repr

namespace Graph

def empty : Graph where
  features := #[]
  edges := #[]
  firsts := Index.empty
  positions := Index.empty
  kinds := Index.empty

def positionsOf (g : Graph) (guid : Guid) : List Nat :=
  (g.positions.lookup? guid).getD []

def declarations (g : Graph) (guid : Guid) : List Feature :=
  (g.positionsOf guid).filterMap (fun i => g.features[i]?)

def contains (g : Graph) (guid : Guid) : Bool :=
  (g.firsts.lookup? guid).isSome

/-- The first feature that declares a guid. -/
def find? (g : Graph) (guid : Guid) : Option Feature := do
  let i <- g.firsts.lookup? guid
  g.features[i]?

/-- The kinds declared from one guid toward another; none if either is not declared. -/
def kindsBetween (g : Graph) (source target : Guid) : KindSet :=
  (g.kinds.lookup? (source, target)).getD KindSet.empty

/-- Tells whether an edge joins two guids, in either direction. -/
def hasRelationship (g : Graph) (a b : Guid) : Bool :=
  !(g.kindsBetween a b).isEmpty || !(g.kindsBetween b a).isEmpty

end Graph
end FeatureModel
