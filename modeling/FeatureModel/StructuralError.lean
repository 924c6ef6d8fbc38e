import FeatureModel.Record
import FeatureModel.Text.Terminated

/-!
# Structural errors

A list of records has no graph when it has a structural defect.  An error names
the defect, the guids involved, and the message for the author of the records.
-/

namespace FeatureModel

inductive StructuralDefect where
  | duplicateGuid
  | danglingReference
  | selfRelationship
  | duplicateRelationshipKind
deriving DecidableEq, Repr, Inhabited

namespace StructuralDefect

def all : List StructuralDefect :=
  [duplicateGuid, danglingReference, selfRelationship, duplicateRelationshipKind]

def name : StructuralDefect -> String
  | duplicateGuid => "DuplicateGuid"
  | danglingReference => "DanglingReference"
  | selfRelationship => "SelfRelationship"
  | duplicateRelationshipKind => "DuplicateRelationshipKind"

def nameAt (n : Int) : String :=
  match n with
  | .ofNat i => (all[i]?).elim "Unknown" name
  | .negSucc _ => "Unknown"

end StructuralDefect

inductive StructuralError where
  /-- Two records, with the given names, declare one guid. -/
  | duplicateGuid (guid : Guid) (first second : String)
  | selfRelationship (source : Attributes) (kind : RelationshipKind)
  | danglingReference (source : Attributes) (kind : RelationshipKind) (target : Guid)
  | duplicateRelationshipKind (source : Attributes) (kind : RelationshipKind) (target : Guid)
deriving DecidableEq, Repr

namespace StructuralError

def defect : StructuralError -> StructuralDefect
  | duplicateGuid .. => .duplicateGuid
  | selfRelationship .. => .selfRelationship
  | danglingReference .. => .danglingReference
  | duplicateRelationshipKind .. => .duplicateRelationshipKind

/-- The guids involved, the declaring one first. -/
def guids : StructuralError -> List Guid
  | duplicateGuid guid _ _ => [guid]
  | selfRelationship source _ => [source.guid]
  | danglingReference source _ target => [source.guid, target]
  | duplicateRelationshipKind source _ target => [source.guid, target]

def fullMessage : StructuralError -> String
  | duplicateGuid guid first second =>
      "Features '" ++ first ++ "' and '" ++ second ++ "' share guid " ++ Text.decimal guid
  | selfRelationship source kind =>
      "Feature " ++ source.label ++ " declares a " ++ kind.name ++ " relationship to itself"
  | danglingReference source kind target =>
      "Feature " ++ source.label ++ " declares a " ++ kind.name ++
        " relationship to unknown guid " ++ Text.decimal target
  | duplicateRelationshipKind source kind target =>
      "Feature " ++ source.label ++ " declares more than one " ++ kind.name ++
        " relationship to guid " ++ Text.decimal target

def message (e : StructuralError) : String :=
  Text.untilNul e.fullMessage

end StructuralError
end FeatureModel
