import FeatureModel.Proofs.Evaluation.Verdict
import FeatureModel.Proofs.Report.Members

/-!
# What single rules find

The findings of several rules are those of each rule alone, and they can be told
apart by the name they are made in.  A report depends only on which findings there
are, so rules that find the same on two graphs give one report for both.
-/

namespace FeatureModel
namespace Evaluation

/-- The findings of a rule on a graph, in its name and at its severity. -/
def foundBy (g : Graph) (rule : Rule) : List Violation :=
  (sequence g [rule]).flatMap signed

/-- Whether a rule fails on neither of two graphs and finds the same on both. -/
structure FindsAlike (g g' : Graph) (rule : Rule) : Prop where
  isOk : forall x, x ∈ sequence g [rule] -> exists found, x.outcome = .ok found
  isOk' : forall x, x ∈ sequence g' [rule] -> exists found, x.outcome = .ok found
  mem_iff : forall v, v ∈ foundBy g rule <-> v ∈ foundBy g' rule

/-!
## Findings and the rules that make them
-/

theorem mem_sequence_iff {g : Graph} {rules : List Rule} {x : Evaluation} :
    x ∈ sequence g rules <-> exists rule, rule ∈ rules ∧ x ∈ sequence g [rule] := by
  unfold sequence
  simp only [List.mem_append, List.mem_map, List.mem_flatMap, List.mem_filterMap,
    List.mem_singleton, exists_eq_left]
  constructor
  · intro h
    rcases h with ⟨rule, ⟨entry, hentry, hrule⟩, hx⟩ | ⟨rule, ⟨entry, hentry, hrule⟩, hx⟩
    · exact ⟨entry, hentry, Or.inl ⟨rule, hrule, hx⟩⟩
    · exact ⟨entry, hentry, Or.inr ⟨rule, hrule, hx⟩⟩
  · intro h
    rcases h with ⟨entry, hentry, ⟨rule, hrule, hx⟩ | ⟨rule, hrule, hx⟩⟩
    · exact Or.inl ⟨rule, ⟨entry, hentry, hrule⟩, hx⟩
    · exact Or.inr ⟨rule, ⟨entry, hentry, hrule⟩, hx⟩

theorem sequence_edge (g : Graph) (rule : EdgeRule) :
    sequence g [.edge rule] = g.views.map (ofEdge rule) := by
  show g.views.map (ofEdge rule) ++ [] = _
  exact List.append_nil _

theorem rule_of_mem_sequence {g : Graph} {rule : Rule} {x : Evaluation}
    (hx : x ∈ sequence g [rule]) : x.rule = rule.info := by
  cases rule with
  | graph rule =>
      rw [List.mem_singleton.mp (show x ∈ [ofGraph g rule] from hx)]
      rfl
  | edge rule =>
      rw [sequence_edge] at hx
      rcases List.mem_map.mp hx with ⟨view, _, heq⟩
      rw [<- heq]
      rfl

theorem foundBy_graph {g : Graph} {rule : GraphRule} {found : List Violation}
    (h : rule.evaluate g = .ok found) : foundBy g (.graph rule) = found.map rule.sign := by
  show signed (ofGraph g rule) ++ [] = _
  rw [List.append_nil]
  unfold signed ofGraph
  rw [h]
  rfl

theorem mem_foundBy_edge_iff {g : Graph} {rule : EdgeRule} {v : Violation} :
    v ∈ foundBy g (.edge rule) <->
      exists w, (exists view found, view ∈ g.views ∧ rule.evaluate view = .ok found ∧ w ∈ found) ∧
        rule.sign w = v := by
  unfold foundBy
  rw [sequence_edge, List.flatMap_map]
  simp only [List.mem_flatMap, mem_signed_iff]
  constructor
  · intro h
    rcases h with ⟨view, hview, found, w, hfound, hw, hsign⟩
    exact ⟨w, ⟨view, found, hview, hfound, hw⟩, hsign⟩
  · intro h
    rcases h with ⟨w, ⟨view, found, hview, hfound, hw⟩, hsign⟩
    exact ⟨view, hview, found, w, hfound, hw, hsign⟩

theorem of_mem_foundBy {g : Graph} {rule : Rule} {v : Violation} (hv : v ∈ foundBy g rule) :
    v.ruleId = rule.id ∧ v.severity = rule.info.severity := by
  rcases List.mem_flatMap.mp hv with ⟨x, hx, hvx⟩
  have hrule := rule_of_mem_sequence hx
  constructor
  · rw [ruleId_of_mem_signed hvx, hrule]
    rfl
  · rw [severity_of_mem_signed hvx, hrule]

theorem mem_flatMap_signed_sequence {g : Graph} {rules : List Rule} {v : Violation} :
    v ∈ (sequence g rules).flatMap signed <-> exists rule, rule ∈ rules ∧ v ∈ foundBy g rule := by
  unfold foundBy
  simp only [List.mem_flatMap]
  constructor
  · intro h
    rcases h with ⟨x, hx, hv⟩
    rcases mem_sequence_iff.mp hx with ⟨rule, hrule, hxrule⟩
    exact ⟨rule, hrule, x, hxrule, hv⟩
  · intro h
    rcases h with ⟨rule, hrule, x, hx, hv⟩
    exact ⟨x, mem_sequence_iff.mpr ⟨rule, hrule, hx⟩, hv⟩

theorem mem_foundBy_iff {g : Graph} {rules : List Rule} (hnodup : (rules.map Rule.id).Nodup)
    {rule : Rule} (hrule : rule ∈ rules) {v : Violation} :
    v ∈ foundBy g rule <-> v ∈ (sequence g rules).flatMap signed ∧ v.ruleId = rule.id := by
  rw [mem_flatMap_signed_sequence]
  constructor
  · intro hv
    exact ⟨⟨rule, hrule, hv⟩, (of_mem_foundBy hv).left⟩
  · intro h
    rcases h with ⟨⟨other, hother, hv⟩, hid⟩
    have hsame : other = rule :=
      List.inj_on_of_nodup_map hnodup hother hrule ((of_mem_foundBy hv).left.symm.trans hid)
    rw [<- hsame]
    exact hv

theorem filter_arrange_sequence {g : Graph} {rules : List Rule}
    (hnodup : (rules.map Rule.id).Nodup) {rule : Rule} (hrule : rule ∈ rules) :
    (Report.arrange ((sequence g rules).flatMap signed)).filter
        (fun v => decide (v.ruleId = rule.id)) =
      Report.arrange (foundBy g rule) := by
  rw [Report.filter_ruleId_arrange]
  apply Report.arrange_congr
  intro v
  rw [List.mem_filter, decide_eq_true_eq, mem_foundBy_iff hnodup hrule]

theorem exists_rule_of_mem_arrange {g : Graph} {rules : List Rule} {v : Violation}
    (hv : v ∈ Report.arrange ((sequence g rules).flatMap signed)) :
    exists rule, rule ∈ rules ∧ v.ruleId = rule.id ∧ v.severity = rule.info.severity := by
  rcases (Report.mem_arrange_iff.mp hv).right.left with ⟨w, hw, hkey, hseverity⟩
  rcases mem_flatMap_signed_sequence.mp hw with ⟨rule, hrule, hfound⟩
  rcases of_mem_foundBy hfound with ⟨hid, hinfo⟩
  exact ⟨rule, hrule, (congrArg DefectKey.ruleId hkey).symm.trans hid, hseverity.symm.trans hinfo⟩

/-!
## Compilations
-/

section Built

variable {records : List Record} {tolerate : Bool} {g : Graph} {rules : List Rule}
  {registry : Registry}

theorem compile_eq_ok_iff (hbuild : Graph.build records tolerate = .ok g)
    (hreached : Registry.Reached rules registry) {executor : Executor} {mode : Mode}
    {report : Report} :
    compile executor g registry mode = .ok report <->
      (forall x, x ∈ sequence g rules -> exists found, x.outcome = .ok found) ∧
        report = Report.render ((sequence g rules).flatMap signed) mode := by
  rw [compile_eq_settle hbuild hreached]
  rcases all_ok_or_first_error (sequence g rules) with
    hall | ⟨before, x, after, failure, heq, hbefore, hx⟩
  · rw [settle_of_ok hall]
    constructor
    · intro h
      cases h
      exact ⟨hall, rfl⟩
    · intro h
      rw [h.right]
      rfl
  · constructor
    · intro h
      rw [heq, settle_of_first_error hbefore hx] at h
      cases h
    · intro h
      rcases h.left x (by simp [heq]) with ⟨found, hfound⟩
      rw [hx] at hfound
      cases hfound

theorem compileRecords_of_compile (hbuild : Graph.build records tolerate = .ok g)
    {executor : Executor} {mode : Mode} {report : Report}
    (hreport : compile executor g registry mode = .ok report) :
    compileRecords executor records tolerate registry mode = .ok report := by
  unfold compileRecords
  rw [hbuild]
  dsimp only
  rw [hreport]
  rfl

theorem forall_ok_iff_forall_rule {g : Graph} {rules : List Rule} :
    (forall x, x ∈ sequence g rules -> exists found, x.outcome = .ok found) <->
      forall rule, rule ∈ rules ->
        forall x, x ∈ sequence g [rule] -> exists found, x.outcome = .ok found := by
  constructor
  · intro h rule hrule x hx
    exact h x (mem_sequence_iff.mpr ⟨rule, hrule, hx⟩)
  · intro h x hx
    rcases mem_sequence_iff.mp hx with ⟨rule, hrule, hxrule⟩
    exact h rule hrule x hxrule

/-- Rules that find the same on two graphs, and fail on neither, give one report for both. -/
theorem exists_report_of_findsAlike (hbuild : Graph.build records tolerate = .ok g)
    {records' : List Record} {tolerate' : Bool} {g' : Graph}
    (hbuild' : Graph.build records' tolerate' = .ok g')
    (hreached : Registry.Reached rules registry)
    (halike : forall rule, rule ∈ rules -> FindsAlike g g' rule) (executor : Executor)
    (mode : Mode) :
    exists report, compile executor g registry mode = .ok report ∧
      compile executor g' registry mode = .ok report := by
  refine ⟨Report.render ((sequence g rules).flatMap signed) mode, ?_, ?_⟩
  · rw [compile_eq_ok_iff hbuild hreached, forall_ok_iff_forall_rule]
    exact ⟨fun rule hrule => (halike rule hrule).isOk, rfl⟩
  · rw [compile_eq_ok_iff hbuild' hreached, forall_ok_iff_forall_rule]
    refine ⟨fun rule hrule => (halike rule hrule).isOk', ?_⟩
    apply Report.render_congr
    intro v
    rw [mem_flatMap_signed_sequence, mem_flatMap_signed_sequence]
    constructor
    · intro h
      rcases h with ⟨rule, hrule, hv⟩
      exact ⟨rule, hrule, ((halike rule hrule).mem_iff v).mp hv⟩
    · intro h
      rcases h with ⟨rule, hrule, hv⟩
      exact ⟨rule, hrule, ((halike rule hrule).mem_iff v).mpr hv⟩

end Built

end Evaluation
end FeatureModel
