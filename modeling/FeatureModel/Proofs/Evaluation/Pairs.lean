import FeatureModel.Proofs.Evaluation.Findings
import Mathlib.Data.List.Forall2
import Mathlib.Data.Set.List

/-!
# One item for each pair of guids

The built-in rules about the ends of an edge report a pair of guids that offends once,
however many edges join the two, whatever their directions and whichever records
declare them.
-/

namespace FeatureModel

/-- Whether a finding is about a pair of guids, which it names by their first records between two
texts. -/
structure Violation.NamesPair (ruleId before after : String) (records : List Record)
    (pair : Guid × Guid) (v : Violation) : Prop where
  ruleId_eq : v.ruleId = ruleId
  severity_eq : v.severity = .error
  guids_eq : v.guids = [pair.1, pair.2]
  message_eq : exists i low j high, IsFirst records pair.1 i low ∧ IsFirst records pair.2 j high ∧
    v.message = before ++ (low.label ++ " and " ++ high.label) ++ after

/-- Whether findings are one for each unordered pair of guids that offends, the lower guid first. -/
def OnePerPair (Offends : Guid -> Guid -> Prop) (Names : Guid × Guid -> Violation -> Prop)
    (found : List Violation) : Prop :=
  exists pairs : List (Guid × Guid), pairs.Nodup ∧
    (forall a b, (a, b) ∈ pairs <-> a < b ∧ Offends a b) ∧ List.Forall₂ Names pairs found

namespace Evaluation

section Pairs

variable {records : List Record} {tolerate : Bool} {g : Graph} {rule : EdgeRule}
  {Offends : Guid -> Guid -> Prop} {before after : String}

theorem pairFinding_injective (info : RuleInfo) (before after : String) (records : List Record) :
    Function.Injective (pairFinding info before after records) := by
  intro p q heq
  have hguids : [p.1, p.2] = [q.1, q.2] := congrArg Violation.guids heq
  rw [List.cons.injEq, List.cons.injEq] at hguids
  exact Prod.ext hguids.left hguids.right.left

theorem mem_foundBy_pairs_iff
    (h : Builtin.FindsPairs g rule Offends (pairFinding rule.toRuleInfo before after records))
    {v : Violation} :
    v ∈ foundBy g (.edge rule) <->
      exists a b, a < b ∧ Offends a b ∧
        v = pairFinding rule.toRuleInfo before after records (a, b) := by
  rw [mem_foundBy_edge_iff]
  simp only [h.exists_found_iff]
  constructor
  · intro hv
    rcases hv with ⟨w, ⟨a, b, hlt, hpair, hw⟩, hsign⟩
    refine ⟨a, b, hlt, hpair, ?_⟩
    rw [<- hsign, hw]
    rfl
  · intro hv
    rcases hv with ⟨a, b, hlt, hpair, hv⟩
    refine ⟨v, ⟨a, b, hlt, hpair, hv⟩, ?_⟩
    rw [hv]
    rfl

theorem mem_arrange_foundBy_pairs_iff
    (h : Builtin.FindsPairs g rule Offends (pairFinding rule.toRuleInfo before after records))
    {v : Violation} :
    v ∈ Report.arrange (foundBy g (.edge rule)) <->
      exists a b, a < b ∧ Offends a b ∧
        v = pairFinding rule.toRuleInfo before after records (a, b) := by
  rw [<- mem_foundBy_pairs_iff h]
  have hnormal : forall w, w ∈ foundBy g (.edge rule) -> w.IsNormal := by
    intro w hw
    rcases (mem_foundBy_pairs_iff h).mp hw with ⟨a, b, hlt, _, heq⟩
    rw [heq]
    exact List.pairwise_pair.mpr hlt
  exact Report.mem_arrange_iff_mem hnormal (fun w hw => (of_mem_foundBy hw).right)

theorem namesPair_pairFinding {info : RuleInfo} (hseverity : info.severity = .error)
    {a b : Guid} (ha : exists q, q ∈ records ∧ q.guid = a)
    (hb : exists q, q ∈ records ∧ q.guid = b) :
    (pairFinding info before after records (a, b)).NamesPair info.id before after records
      (a, b) where
  ruleId_eq := rfl
  severity_eq := hseverity
  guids_eq := rfl
  message_eq := by
    rcases Graph.exists_isFirst ha with ⟨i, low, hlow⟩
    rcases Graph.exists_isFirst hb with ⟨j, high, hhigh⟩
    refine ⟨i, low, j, high, hlow, hhigh, ?_⟩
    show before ++ (labelIn records a ++ " and " ++ labelIn records b) ++ after = _
    unfold labelIn
    rw [firstOf?_eq_some_iff.mpr ⟨i, hlow⟩, firstOf?_eq_some_iff.mpr ⟨j, hhigh⟩]
    rfl

theorem onePerPair_arrange_foundBy (hbuild : Graph.build records tolerate = .ok g)
    (h : Builtin.FindsPairs g rule Offends (pairFinding rule.toRuleInfo before after records))
    (hseverity : rule.severity = .error) :
    OnePerPair Offends (Violation.NamesPair rule.id before after records)
      (Report.arrange (foundBy g (.edge rule))) := by
  have hinjective := pairFinding_injective rule.toRuleInfo before after records
  -- Every finding is the one of a pair, so the report lists what the rule says of some pairs.
  have hrange : Report.arrange (foundBy g (.edge rule)) ∈
      Set.range (List.map (pairFinding rule.toRuleInfo before after records)) := by
    rw [Set.range_list_map]
    intro v hv
    rcases (mem_arrange_foundBy_pairs_iff h).mp hv with ⟨a, b, _, _, heq⟩
    exact ⟨(a, b), heq.symm⟩
  rcases hrange with ⟨pairs, hpairs⟩
  have hmem : forall a b, (a, b) ∈ pairs <-> a < b ∧ Offends a b := by
    intro a b
    rw [<- List.mem_map_of_injective hinjective, hpairs, mem_arrange_foundBy_pairs_iff h]
    constructor
    · intro hfound
      rcases hfound with ⟨a', b', hlt, hpair, heq⟩
      cases hinjective heq
      exact ⟨hlt, hpair⟩
    · intro hpair
      exact ⟨a, b, hpair.left, hpair.right, rfl⟩
  refine ⟨pairs, ?_, hmem, ?_⟩
  · have hnodup := (Report.nodup_key_arrange (foundBy g (.edge rule))).of_map
    rw [<- hpairs] at hnodup
    exact hnodup.of_map
  · rw [<- hpairs, List.forall₂_map_right_iff, List.forall₂_same]
    rintro ⟨a, b⟩ hab
    have hpair := ((hmem a b).mp hab).right
    exact namesPair_pairFinding hseverity (h.declared hbuild hpair)
      (h.declared hbuild (h.symm hpair))

theorem onePerPair_filter_arrange (hbuild : Graph.build records tolerate = .ok g)
    (h : Builtin.FindsPairs g rule Offends (pairFinding rule.toRuleInfo before after records))
    (hseverity : rule.severity = .error) {rules : List Rule} (hnodup : (rules.map Rule.id).Nodup)
    (hrule : .edge rule ∈ rules) :
    OnePerPair Offends (Violation.NamesPair rule.id before after records)
      ((Report.arrange ((sequence g rules).flatMap signed)).filter
        (fun v => decide (v.ruleId = rule.id))) := by
  have hfilter := filter_arrange_sequence (g := g) hnodup hrule
  exact hfilter.symm ▸ onePerPair_arrange_foundBy hbuild h hseverity

end Pairs

end Evaluation

/-- Records that have a graph have a report under the built-in rules.  Two guids that exclude each
other although both are mandatory are reported once, and so are two that are joined both as
alternative and as incompatible. -/
theorem compileRecords_reports_pairs_once {records : List Record} {tolerate : Bool} {g : Graph}
    (hbuild : Graph.build records tolerate = .ok g) (executor : Executor) (mode : Mode) :
    exists report,
      compileRecords executor records tolerate Registry.builtin mode = .ok report ∧
        OnePerPair (Excluding records)
          (Violation.NamesPair "mandatory-incompatible" "Mandatory features "
            " cannot be mutually exclusive" records)
          (report.violations.filter (fun v => decide (v.ruleId = "mandatory-incompatible"))) ∧
        OnePerPair (Conflicting records)
          (Violation.NamesPair "conflicting-relationship-kinds" "Conflicting relationships between "
            ": declared both alternative and incompatible" records)
          (report.violations.filter
            (fun v => decide (v.ruleId = "conflicting-relationship-kinds"))) := by
  have hnodup := Registry.reached_builtin.nodup_ids
  refine ⟨Report.render ((Evaluation.sequence g Builtin.all).flatMap Evaluation.signed) mode,
    ?_, ?_, ?_⟩
  · unfold compileRecords
    rw [hbuild]
    dsimp only
    rw [Evaluation.compile_builtin_eq hbuild]
    rfl
  · exact Evaluation.onePerPair_filter_arrange hbuild
      (Builtin.findsPairs_mandatoryIncompatible hbuild) rfl hnodup (by simp [Builtin.all])
  · exact Evaluation.onePerPair_filter_arrange hbuild
      (Builtin.findsPairs_conflictingRelationshipKinds hbuild) rfl hnodup (by simp [Builtin.all])

/-- Three edges join two guids, one of them declared twice; each rule says so once, and names the
lower guid first. -/
theorem compileRecords_reports_three_edges_once :
    let records : List Record :=
      [{ guid := 7, name := "left",
          links := [{ target := -3, kind := .incompatible }, { target := -3, kind := .alternative }] },
        { guid := 7, name := "left again", mandatory := true },
        { guid := -3, name := "right", mandatory := true,
          links := [{ target := 7, kind := .incompatible }] }]
    exists report,
      compileRecords (.pool 2) records true Registry.builtin .lenient = .ok report ∧
        (report.violations.filter (fun v => decide (v.guids = [-3, 7]))).map (fun v => v.message) =
          ["Conflicting relationships between 'right'/-3 and 'left'/7" ++
              ": declared both alternative and incompatible",
            "Mandatory features 'right'/-3 and 'left'/7 cannot be mutually exclusive"] ∧
        OnePerPair (Excluding records)
          (Violation.NamesPair "mandatory-incompatible" "Mandatory features "
            " cannot be mutually exclusive" records)
          (report.violations.filter (fun v => decide (v.ruleId = "mandatory-incompatible"))) := by
  intro records
  have hbuild : Graph.build records true = .ok (Graph.ofRecords records) := rfl
  rcases compileRecords_reports_pairs_once hbuild (.pool 2) .lenient with
    ⟨report, hreport, hexcluding, _⟩
  refine ⟨report, hreport, ?_, hexcluding⟩
  have hmessages : (compileRecords (.pool 2) records true Registry.builtin .lenient).map
      (fun r => (r.violations.filter (fun v => decide (v.guids = [-3, 7]))).map
        (fun v => v.message)) =
      .ok ["Conflicting relationships between 'right'/-3 and 'left'/7" ++
          ": declared both alternative and incompatible",
        "Mandatory features 'right'/-3 and 'left'/7 cannot be mutually exclusive"] := by
    decide +kernel
  rw [hreport] at hmessages
  exact Except.ok.inj hmessages

end FeatureModel
