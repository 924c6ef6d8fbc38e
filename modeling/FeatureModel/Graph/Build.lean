import FeatureModel.Graph.Basic
import FeatureModel.Sorting
import FeatureModel.StructuralError

/-!
# Building a graph from records

Records are scanned in order, and the first structural defect ends the scan.
For each record its guid is checked first, then its links in order.  A link may
point forward: its target is looked for among all records.

When the scan is through, the edge table is laid out by source guid.  The sort is
stable, so the records of one guid keep their declaration order.
-/

namespace FeatureModel
namespace Graph

def scanLink (declared : Guid -> Bool) (source : Attributes)
    (kinds : Index (Guid × Guid) KindSet) (link : Link) :
    Except StructuralError (Index (Guid × Guid) KindSet) :=
  let known := (kinds.lookup? (source.guid, link.target)).getD KindSet.empty
  if link.target = source.guid then
    .error (.selfRelationship source link.kind)
  else if !declared link.target then
    .error (.danglingReference source link.kind link.target)
  else
    let (isNew, extended) := known.insert link.kind
    if isNew then
      .ok (kinds.put (source.guid, link.target) extended)
    else
      .error (.duplicateRelationshipKind source link.kind link.target)

/-- The feature of an earlier record that keeps a guid from being declared again. -/
def clash? (tolerate : Bool) (g : Graph) (guid : Guid) : Option Feature :=
  if tolerate then none else g.find? guid

def addFeature (g : Graph) (attributes : Attributes) : Graph :=
  { g with
    features := g.features.push
      { toAttributes := attributes, position := g.features.size, edges := [] }
    firsts := g.firsts.emplace attributes.guid g.features.size
    positions := g.positions.put attributes.guid
      (g.positionsOf attributes.guid ++ [g.features.size]) }

/-- Checks one record and adds its feature, without edges yet. -/
def scanRecord (declared : Guid -> Bool) (tolerate : Bool) (g : Graph) (record : Record) :
    Except StructuralError Graph :=
  match clash? tolerate g record.guid with
  | some first => .error (.duplicateGuid record.guid first.name record.name)
  | none => do
      let kinds <- record.links.foldlM (scanLink declared record.toAttributes) g.kinds
      return addFeature { g with kinds := kinds } record.toAttributes

def isDeclared (records : List Record) (guid : Guid) : Bool :=
  records.any (fun r => r.guid == guid)

def scan (records : List Record) (tolerate : Bool) : Except StructuralError Graph :=
  records.foldlM (scanRecord (isDeclared records) tolerate) empty

/-- Records with their positions are compared by guid only. -/
def tableOrder (a b : Record × Nat) : Ordering :=
  compare a.1.guid b.1.guid

instance instTransCmpTableOrder : Std.TransCmp tableOrder :=
  inferInstanceAs (Std.TransCmp (compareOn (fun entry : Record × Nat => entry.1.guid)))

/-- The records with their positions, by guid; records of one guid keep their order. -/
def byGuid (records : List Record) : List (Record × Nat) :=
  Sorting.sortBy tableOrder records.zipIdx

/-- Puts the edge of a link at the end of the table and hands its number to the feature of its
record. -/
def attachLink (entry : Record × Nat) (g : Graph) (link : Link × Nat) : Graph :=
  { g with
    edges := g.edges.push
      { source := entry.1.guid
        target := link.1.target
        kind := link.1.kind
        sourcePosition := entry.2
        targetPosition := (g.firsts.lookup? link.1.target).getD 0
        linkNumber := link.2 }
    features := g.features.modify entry.2 fun f =>
      { f with edges := f.edges ++ [g.edges.size] } }

def attach (g : Graph) (entry : Record × Nat) : Graph :=
  entry.1.links.zipIdx.foldl (attachLink entry) g

/-- Builds the graph of a list of records, or names its first structural defect. -/
def build (records : List Record) (tolerate : Bool) : Except StructuralError Graph := do
  let scanned <- scan records tolerate
  return (byGuid records).foldl attach scanned

end Graph
end FeatureModel
