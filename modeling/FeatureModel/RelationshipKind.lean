/-!
# Relationship kinds

A feature may declare another one as an alternative to itself, as incompatible
with itself, or as related to it in some more complex way.
-/

namespace FeatureModel

inductive RelationshipKind where
  | alternative
  | incompatible
  | complex
deriving DecidableEq, Repr, Inhabited

namespace RelationshipKind

def all : List RelationshipKind :=
  [alternative, incompatible, complex]

def name : RelationshipKind -> String
  | alternative => "alternative"
  | incompatible => "incompatible"
  | complex => "complex"

def parse? (text : String) : Option RelationshipKind :=
  all.find? (fun k => k.name == text)

def nameAt (n : Int) : String :=
  match n with
  | .ofNat i => (all[i]?).elim "unknown" name
  | .negSucc _ => "unknown"

theorem mem_all (k : RelationshipKind) : k ∈ all := by
  cases k <;> decide

theorem nodup_all : all.Nodup := by
  decide

theorem parse?_name (k : RelationshipKind) : parse? k.name = some k := by
  cases k <;> rfl

theorem name_of_parse? {text : String} {k : RelationshipKind} (h : parse? text = some k) :
    k.name = text := by
  simpa using List.find?_some h

end RelationshipKind
end FeatureModel
