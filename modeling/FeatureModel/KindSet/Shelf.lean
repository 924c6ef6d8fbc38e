import FeatureModel.KindSet

/-!
# A shelf of kind sets

Kind sets are worked on by number: a shelf starts with one empty set, and new
sets are put at its end.  A command that names a number not on the shelf has no
answer and changes nothing.
-/

namespace FeatureModel
namespace KindSet

abbrev Shelf :=
  Array KindSet

namespace Shelf

def start : Shelf :=
  #[KindSet.empty]

inductive Command where
  | create
  | insert (set : Nat) (kind : RelationshipKind)
  | contains (set : Nat) (kind : RelationshipKind)
  | size (set : Nat)
  | isEmpty (set : Nat)
  | compare (left right : Nat)
  | union (left right : Nat)
deriving DecidableEq, Repr

inductive Answer where
  | placed (set : Nat)
  | flag (value : Bool)
  | count (value : Nat)
  | comparison (equal : Bool)
deriving DecidableEq, Repr

def step (shelf : Shelf) : Command -> Option (Answer × Shelf)
  | .create => some (.placed shelf.size, shelf.push KindSet.empty)
  | .insert i kind => do
      let s <- shelf[i]?
      let (isNew, s) := s.insert kind
      return (.flag isNew, shelf.set! i s)
  | .contains i kind => do
      let s <- shelf[i]?
      return (.flag (s.contains kind), shelf)
  | .size i => do
      let s <- shelf[i]?
      return (.count s.size, shelf)
  | .isEmpty i => do
      let s <- shelf[i]?
      return (.flag s.isEmpty, shelf)
  | .compare i j => do
      let s <- shelf[i]?
      let t <- shelf[j]?
      return (.comparison (decide (s = t)), shelf)
  | .union i j => do
      let s <- shelf[i]?
      let t <- shelf[j]?
      return (.placed shelf.size, shelf.push (s.union t))

def run (shelf : Shelf) : List Command -> List (Option Answer × Shelf)
  | [] => []
  | command :: rest =>
      match shelf.step command with
      | some (answer, next) => (some answer, next) :: run next rest
      | none => (none, shelf) :: run shelf rest

end Shelf
end KindSet
end FeatureModel
