import FeatureModel.Proofs.Graph.Lookup
import FeatureModel.Proofs.Rule.Guids
import FeatureModel.Proofs.Rule.Pairs

/-!
# What the built-in rules about edges find

On a graph built from records the rules about the ends of edges do not fail.  What
they find is told by the records, without the graph: they have a finding about each
pair of guids that offends.
-/

namespace FeatureModel

/-- Whether a link of a kind joins two guids, in either direction. -/
def Joined (records : List Record) (a b : Guid) (kind : RelationshipKind) : Prop :=
  Declares records a { target := b, kind := kind } ∨
    Declares records b { target := a, kind := kind }

def Mandatory (records : List Record) (guid : Guid) : Prop :=
  exists r, r ∈ records ∧ r.guid = guid ∧ r.mandatory = true

def Excluding (records : List Record) (a b : Guid) : Prop :=
  Joined records a b .incompatible ∧ Mandatory records a ∧ Mandatory records b

def Conflicting (records : List Record) (a b : Guid) : Prop :=
  Joined records a b .alternative ∧ Joined records a b .incompatible

theorem Joined.symm {records : List Record} {a b : Guid} {kind : RelationshipKind}
    (h : Joined records a b kind) : Joined records b a kind :=
  Or.symm h

namespace Builtin

section Holds

variable {records : List Record} {numbers : Nat -> Record -> List Nat} {g : Graph}

/-!
## Rules about the ends of an edge
-/

theorem anyMandatory_eq_true_iff (h : Graph.Holds records numbers g) {guid : Guid} :
    anyMandatory g guid = true <-> Mandatory records guid := by
  unfold anyMandatory Mandatory
  rw [h.declarations_eq, List.any_map, List.any_eq_true]
  constructor
  · intro hany
    rcases hany with ⟨⟨r, i⟩, hentry, hmandatory⟩
    rcases Graph.mem_entriesOf.mp hentry with ⟨hr, hguid⟩
    exact ⟨r, List.mem_of_getElem? hr, hguid, hmandatory⟩
  · intro hmandatory
    rcases hmandatory with ⟨r, hr, hguid, hmandatory⟩
    rcases List.mem_iff_getElem?.mp hr with ⟨i, hi⟩
    exact ⟨(r, i), Graph.mem_entriesOf.mpr ⟨hi, hguid⟩, hmandatory⟩

theorem contains_kindsAcross_iff {view : EdgeView}
    (h : Graph.Holds records numbers view.graph) {kind : RelationshipKind} :
    (kindsAcross view).contains kind = true <->
      Joined records view.source.guid view.target.guid kind := by
  unfold kindsAcross Joined
  rw [KindSet.contains_union, Bool.or_eq_true, h.contains_kinds, h.contains_kinds]

end Holds

section Views

variable {records : List Record} {tolerate : Bool} {g : Graph}

theorem exists_view_of_joined (h : Graph.build records tolerate = .ok g) {a b : Guid}
    {kind : RelationshipKind} (hjoined : Joined records a b kind) :
    exists view, view ∈ g.views ∧ view.Between a b ∧ view.edge.kind = kind := by
  rcases hjoined with hforth | hback
  · rcases Graph.exists_view_of_declares h hforth with ⟨view, hview, hsource, htarget, hkind⟩
    exact ⟨view, hview, Or.inl ⟨hsource, htarget⟩, hkind⟩
  · rcases Graph.exists_view_of_declares h hback with ⟨view, hview, hsource, htarget, hkind⟩
    exact ⟨view, hview, Or.inr ⟨hsource, htarget⟩, hkind⟩

theorem ne_of_joined (h : Graph.build records tolerate = .ok g) {a b : Guid}
    {kind : RelationshipKind} (hjoined : Joined records a b kind) : a ≠ b := by
  rcases hjoined with hforth | hback
  · exact (Graph.ends_of_declares h hforth).left
  · exact Ne.symm (Graph.ends_of_declares h hback).left

theorem findsPairs_mandatoryIncompatible (h : Graph.build records tolerate = .ok g) :
    FindsPairs g mandatoryIncompatible (Excluding records)
      (pairFinding mandatoryIncompatibleInfo "Mandatory features " " cannot be mutually exclusive"
        records) := by
  have hmandatory : forall {view guid}, view ∈ g.views ->
      (anyMandatory view.graph guid = true <-> Mandatory records guid) := by
    intro view guid hview
    rw [Graph.graph_eq_of_mem_views h hview]
    exact anyMandatory_eq_true_iff (Graph.holds_of_build h)
  apply findsPairs_of_test h (fun _ => rfl)
  · intro a b hpair
    exact ⟨hpair.left.symm, hpair.right.symm⟩
  · intro a b hpair
    exact ne_of_joined h hpair.left
  · intro view hview htest
    rw [hmandatory hview, hmandatory hview] at htest
    have hdeclares := Graph.declares_of_mem_views h hview
    rw [htest.left] at hdeclares
    exact ⟨Or.inl hdeclares, htest.right⟩
  · intro a b hpair
    rcases exists_view_of_joined h hpair.left with ⟨view, hview, hends, hkind⟩
    refine ⟨view, hview, hends, ?_⟩
    rw [hmandatory hview, hmandatory hview]
    rcases hends with ⟨hsource, htarget⟩ | ⟨hsource, htarget⟩
    · rw [hsource, htarget]
      exact ⟨hkind, hpair.right⟩
    · rw [hsource, htarget]
      exact ⟨hkind, hpair.right.symm⟩

theorem findsPairs_conflictingRelationshipKinds (h : Graph.build records tolerate = .ok g) :
    FindsPairs g conflictingRelationshipKinds (Conflicting records)
      (pairFinding conflictingRelationshipKindsInfo "Conflicting relationships between "
        ": declared both alternative and incompatible" records) := by
  have hkinds : forall {view kind}, view ∈ g.views ->
      ((kindsAcross view).contains kind = true <->
        Joined records view.source.guid view.target.guid kind) := by
    intro view kind hview
    have hholds := Graph.holds_of_build h
    rw [<- Graph.graph_eq_of_mem_views h hview] at hholds
    exact contains_kindsAcross_iff hholds
  apply findsPairs_of_test h (fun _ => rfl)
  · intro a b hpair
    exact ⟨hpair.left.symm, hpair.right.symm⟩
  · intro a b hpair
    exact ne_of_joined h hpair.left
  · intro view hview htest
    rw [hkinds hview, hkinds hview] at htest
    exact htest.right
  -- An edge of either kind is tested; the alternative one is as good as the other.
  · intro a b hpair
    rcases exists_view_of_joined h hpair.left with ⟨view, hview, hends, hkind⟩
    refine ⟨view, hview, hends, ?_⟩
    rw [hkinds hview, hkinds hview]
    refine ⟨Or.inl hkind, ?_⟩
    rcases hends with ⟨hsource, htarget⟩ | ⟨hsource, htarget⟩
    · rw [hsource, htarget]
      exact hpair
    · rw [hsource, htarget]
      exact ⟨hpair.left.symm, hpair.right.symm⟩

end Views

/-!
## All of them
-/

theorem forall_mem_all {p : Rule -> Prop} :
    (forall rule, rule ∈ all -> p rule) <->
      p (.graph noDuplicateGuid) ∧ p (.edge mandatoryIncompatible) ∧ p (.graph monotonicGuid) ∧
        p (.edge conflictingRelationshipKinds) := by
  unfold all
  simp only [List.forall_mem_cons, List.not_mem_nil, false_imp_iff, implies_true, and_true]

end Builtin
end FeatureModel
