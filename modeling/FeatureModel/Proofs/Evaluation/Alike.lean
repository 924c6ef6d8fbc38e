import FeatureModel.Proofs.Evaluation.Pairs

/-!
# Records that rules do not tell apart

The built-in rules about the ends of an edge look at three things only: how a guid is
called, whether it is mandatory, and which kinds join it to others.  Records that agree
about these are alike to both rules.
-/

namespace FeatureModel

/-- Whether two lists of records agree about everything that rules about the ends of edges look
at. -/
structure EndsAlike (records records' : List Record) : Prop where
  labelIn_eq : forall guid, labelIn records' guid = labelIn records guid
  mandatory_iff : forall guid, Mandatory records' guid <-> Mandatory records guid
  joined_iff : forall a b kind, kind = .alternative ∨ kind = .incompatible ->
    (Joined records' a b kind <-> Joined records a b kind)

section EndsAlike

variable {records records' : List Record}

theorem EndsAlike.pairFinding_eq (h : EndsAlike records records') (info : RuleInfo)
    (before after : String) :
    pairFinding info before after records' = pairFinding info before after records := by
  funext pair
  unfold pairFinding
  rw [h.labelIn_eq, h.labelIn_eq]

theorem EndsAlike.excluding_iff (h : EndsAlike records records') {a b : Guid} :
    Excluding records' a b <-> Excluding records a b := by
  unfold Excluding
  rw [h.joined_iff a b _ (Or.inr rfl), h.mandatory_iff, h.mandatory_iff]

theorem EndsAlike.conflicting_iff (h : EndsAlike records records') {a b : Guid} :
    Conflicting records' a b <-> Conflicting records a b := by
  unfold Conflicting
  rw [h.joined_iff a b _ (Or.inl rfl), h.joined_iff a b _ (Or.inr rfl)]

end EndsAlike

namespace Evaluation

section Pairs

variable {records records' : List Record} {g g' : Graph} {rule : EdgeRule}
  {Offends Offends' : Guid -> Guid -> Prop} {before after : String}

theorem exists_ok_of_findsPairs {finding : Guid × Guid -> Violation}
    (h : Builtin.FindsPairs g rule Offends finding) :
    forall x, x ∈ sequence g [.edge rule] -> exists found, x.outcome = .ok found := by
  intro x hx
  rw [sequence_edge] at hx
  rcases List.mem_map.mp hx with ⟨view, hview, heq⟩
  rw [<- heq]
  exact h.exists_ok hview

theorem findsAlike_of_findsPairs
    (h : Builtin.FindsPairs g rule Offends (pairFinding rule.toRuleInfo before after records))
    (h' : Builtin.FindsPairs g' rule Offends' (pairFinding rule.toRuleInfo before after records'))
    (hfinding : pairFinding rule.toRuleInfo before after records' =
      pairFinding rule.toRuleInfo before after records)
    (hoffends : forall {a b}, Offends' a b <-> Offends a b) : FindsAlike g g' (.edge rule) where
  isOk := exists_ok_of_findsPairs h
  isOk' := exists_ok_of_findsPairs h'
  mem_iff v := by
    rw [mem_foundBy_pairs_iff h, mem_foundBy_pairs_iff h', hfinding]
    simp only [hoffends]

end Pairs

section Built

variable {records records' : List Record} {tolerate tolerate' : Bool} {g g' : Graph}

theorem findsAlike_mandatoryIncompatible (h : Graph.build records tolerate = .ok g)
    (h' : Graph.build records' tolerate' = .ok g') (hends : EndsAlike records records') :
    FindsAlike g g' (.edge Builtin.mandatoryIncompatible) :=
  findsAlike_of_findsPairs (Builtin.findsPairs_mandatoryIncompatible h)
    (Builtin.findsPairs_mandatoryIncompatible h') (hends.pairFinding_eq _ _ _) hends.excluding_iff

theorem findsAlike_conflictingRelationshipKinds (h : Graph.build records tolerate = .ok g)
    (h' : Graph.build records' tolerate' = .ok g') (hends : EndsAlike records records') :
    FindsAlike g g' (.edge Builtin.conflictingRelationshipKinds) :=
  findsAlike_of_findsPairs (Builtin.findsPairs_conflictingRelationshipKinds h)
    (Builtin.findsPairs_conflictingRelationshipKinds h') (hends.pairFinding_eq _ _ _)
    hends.conflicting_iff

end Built

theorem findsAlike_of_evaluate_eq {g g' : Graph} {rule : GraphRule} {found : List Violation}
    (h : rule.evaluate g = .ok found) (h' : rule.evaluate g' = .ok found) :
    FindsAlike g g' (.graph rule) where
  isOk x hx := by
    rw [List.mem_singleton.mp (show x ∈ [ofGraph g rule] from hx)]
    exact ⟨found, h⟩
  isOk' x hx := by
    rw [List.mem_singleton.mp (show x ∈ [ofGraph g' rule] from hx)]
    exact ⟨found, h'⟩
  mem_iff v := by
    rw [foundBy_graph h, foundBy_graph h']

end Evaluation
end FeatureModel
