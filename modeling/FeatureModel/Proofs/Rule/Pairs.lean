import FeatureModel.Proofs.Graph.Views
import FeatureModel.Proofs.Record.ByGuid
import FeatureModel.Rule.Builtin
import Mathlib.Order.MinMax

/-!
# Findings about pairs of guids

Several edges may join two guids.  A rule about the ends of an edge says the same on
each of them, whatever its direction, and names the two by their first records.
-/

namespace FeatureModel

/-- How messages refer to a guid: by its first record. -/
def labelIn (records : List Record) (guid : Guid) : String :=
  ((firstOf? records guid).map (fun r => r.label)).getD ""

def pairFinding (info : RuleInfo) (before after : String) (records : List Record)
    (pair : Guid × Guid) : Violation :=
  info.finding [pair.1, pair.2]
    (before ++ (labelIn records pair.1 ++ " and " ++ labelIn records pair.2) ++ after)

def EdgeView.Between (view : EdgeView) (a b : Guid) : Prop :=
  (view.source.guid = a ∧ view.target.guid = b) ∨ (view.source.guid = b ∧ view.target.guid = a)

namespace Builtin

/-- Whether an edge rule has a finding about each pair of guids that offends: it gives it on some
edge between the two, and nothing on any other edge. -/
structure FindsPairs (g : Graph) (rule : EdgeRule) (Offends : Guid -> Guid -> Prop)
    (finding : Guid × Guid -> Violation) : Prop where
  symm : forall {a b}, Offends a b -> Offends b a
  ne : forall {a b}, Offends a b -> a ≠ b
  evaluate_eq : forall view, view ∈ g.views ->
    rule.evaluate view = .ok [] ∨
      (Offends view.source.guid view.target.guid ∧
        rule.evaluate view = .ok [finding (endGuids view)])
  exists_view : forall a b, Offends a b ->
    exists view, view ∈ g.views ∧ view.Between a b ∧
      rule.evaluate view = .ok [finding (endGuids view)]

theorem endGuids_eq_of_lt {view : EdgeView} {a b : Guid} (h : view.Between a b) (hlt : a < b) :
    endGuids view = (a, b) := by
  unfold endGuids
  rcases h with ⟨hsource, htarget⟩ | ⟨hsource, htarget⟩
  · rw [hsource, htarget, min_eq_left hlt.le, max_eq_right hlt.le]
  · rw [hsource, htarget, min_eq_right hlt.le, max_eq_left hlt.le]

section FindsPairs

variable {g : Graph} {rule : EdgeRule} {Offends : Guid -> Guid -> Prop}
  {finding : Guid × Guid -> Violation}

theorem FindsPairs.exists_ok (h : FindsPairs g rule Offends finding) {view : EdgeView}
    (hview : view ∈ g.views) : exists found, rule.evaluate view = .ok found := by
  rcases h.evaluate_eq view hview with hclear | ⟨_, hfound⟩
  · exact ⟨_, hclear⟩
  · exact ⟨_, hfound⟩

theorem FindsPairs.clear_iff (h : FindsPairs g rule Offends finding) :
    (forall view, view ∈ g.views -> rule.evaluate view = .ok []) <->
      forall a b, ¬ Offends a b := by
  constructor
  · intro hclear a b hpair
    rcases h.exists_view a b hpair with ⟨view, hview, _, hfound⟩
    rw [hclear view hview] at hfound
    cases hfound
  · intro hnone view hview
    rcases h.evaluate_eq view hview with hclear | ⟨hpair, _⟩
    · exact hclear
    · exact absurd hpair (hnone _ _)

theorem FindsPairs.exists_found_iff (h : FindsPairs g rule Offends finding) {v : Violation} :
    (exists view found, view ∈ g.views ∧ rule.evaluate view = .ok found ∧ v ∈ found) <->
      exists a b, a < b ∧ Offends a b ∧ v = finding (a, b) := by
  constructor
  · intro hv
    rcases hv with ⟨view, found, hview, hfound, hv⟩
    rcases h.evaluate_eq view hview with hclear | ⟨hpair, hone⟩
    · rw [hclear] at hfound
      cases hfound
      cases hv
    · rw [hone] at hfound
      cases hfound
      rw [List.mem_singleton.mp hv]
      rcases lt_or_gt_of_ne (h.ne hpair) with hlt | hgt
      · refine ⟨_, _, hlt, hpair, ?_⟩
        rw [endGuids_eq_of_lt (Or.inl ⟨rfl, rfl⟩) hlt]
      · refine ⟨_, _, hgt, h.symm hpair, ?_⟩
        rw [endGuids_eq_of_lt (Or.inr ⟨rfl, rfl⟩) hgt]
  · intro hv
    rcases hv with ⟨a, b, hlt, hpair, hv⟩
    rcases h.exists_view a b hpair with ⟨view, hview, hends, hfound⟩
    refine ⟨view, _, hview, hfound, ?_⟩
    rw [hv, endGuids_eq_of_lt hends hlt]
    exact List.mem_singleton_self _

end FindsPairs

/-!
## Looking up the ends of an edge
-/

section Views

variable {records : List Record} {tolerate : Bool} {g : Graph}

theorem exists_get_of_build (h : Graph.build records tolerate = .ok g) {guid : Guid}
    (hdeclared : exists q, q ∈ records ∧ q.guid = guid) :
    exists f, g.get guid = .ok f ∧ f.label = labelIn records guid := by
  rcases Graph.exists_isFirst hdeclared with ⟨i, r, hr⟩
  refine ⟨r.toFeature i (Graph.numbersIn records i r), ?_, ?_⟩
  · unfold Graph.get
    rw [Graph.eq_ofRecords_of_build h, Graph.find?_ofRecords hr]
  · unfold labelIn
    rw [firstOf?_eq_some_iff.mpr ⟨i, hr⟩]
    rfl

theorem endsFinding_eq (h : Graph.build records tolerate = .ok g) {view : EdgeView}
    (hview : view ∈ g.views) (info : RuleInfo) (before after : String) :
    endsFinding info view before after =
      .ok [pairFinding info before after records (endGuids view)] := by
  rcases Graph.ends_of_declares h (Graph.declares_of_mem_views h hview) with
    ⟨_, hsource, htarget⟩
  have hlow : exists q, q ∈ records ∧ q.guid = (endGuids view).1 := by
    show exists q, q ∈ records ∧ q.guid = min view.source.guid view.target.guid
    rcases min_choice view.source.guid view.target.guid with heq | heq
    · rw [heq]
      exact hsource
    · rw [heq]
      exact htarget
  have hhigh : exists q, q ∈ records ∧ q.guid = (endGuids view).2 := by
    show exists q, q ∈ records ∧ q.guid = max view.source.guid view.target.guid
    rcases max_choice view.source.guid view.target.guid with heq | heq
    · rw [heq]
      exact hsource
    · rw [heq]
      exact htarget
  rcases exists_get_of_build h hlow with ⟨low, hgetLow, hlabelLow⟩
  rcases exists_get_of_build h hhigh with ⟨high, hgetHigh, hlabelHigh⟩
  have hlabels : endLabels view = .ok (low.label ++ " and " ++ high.label) := by
    unfold endLabels
    rw [Graph.graph_eq_of_mem_views h hview, hgetLow, hgetHigh]
    rfl
  unfold endsFinding pairFinding
  rw [hlabels, hlabelLow, hlabelHigh]

/-- A rule that names the ends of the edges that pass a test has a finding about each pair that
offends, if a pair offends exactly when some edge between the two passes. -/
theorem findsPairs_of_test (h : Graph.build records tolerate = .ok g) {rule : EdgeRule}
    {info : RuleInfo} {before after : String} {Offends : Guid -> Guid -> Prop}
    {test : EdgeView -> Prop} [DecidablePred test]
    (hrule : forall view, rule.evaluate view =
      if test view then endsFinding info view before after else .ok [])
    (hsymm : forall {a b}, Offends a b -> Offends b a)
    (hne : forall {a b}, Offends a b -> a ≠ b)
    (hsound : forall view, view ∈ g.views -> test view ->
      Offends view.source.guid view.target.guid)
    (hcomplete : forall a b, Offends a b ->
      exists view, view ∈ g.views ∧ view.Between a b ∧ test view) :
    FindsPairs g rule Offends (pairFinding info before after records) where
  symm := hsymm
  ne := hne
  evaluate_eq view hview := by
    by_cases htest : test view
    · rw [hrule, if_pos htest, endsFinding_eq h hview]
      exact Or.inr ⟨hsound view hview htest, rfl⟩
    · rw [hrule, if_neg htest]
      exact Or.inl rfl
  exists_view a b hpair := by
    rcases hcomplete a b hpair with ⟨view, hview, hends, htest⟩
    refine ⟨view, hview, hends, ?_⟩
    rw [hrule, if_pos htest, endsFinding_eq h hview]

theorem FindsPairs.declared (h : Graph.build records tolerate = .ok g) {rule : EdgeRule}
    {Offends : Guid -> Guid -> Prop} {finding : Guid × Guid -> Violation}
    (hpairs : FindsPairs g rule Offends finding) {a b : Guid} (hpair : Offends a b) :
    exists q, q ∈ records ∧ q.guid = a := by
  rcases hpairs.exists_view a b hpair with ⟨view, hview, hends, _⟩
  rcases Graph.ends_of_declares h (Graph.declares_of_mem_views h hview) with
    ⟨_, hsource, htarget⟩
  rcases hends with ⟨heq, _⟩ | ⟨_, heq⟩
  · rw [<- heq]
    exact hsource
  · rw [<- heq]
    exact htarget

end Views

end Builtin
end FeatureModel
