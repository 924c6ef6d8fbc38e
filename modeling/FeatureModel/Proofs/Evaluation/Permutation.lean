import FeatureModel.Proofs.Evaluation.Alike
import FeatureModel.Proofs.Evaluation.Isolation
import FeatureModel.Proofs.Evaluation.Setbacks
import FeatureModel.Proofs.Graph.Permutation

/-!
# Compiling records in another order

Of the built-in rules only the one about increasing guids looks at the order of records
that repeat no guid.  So their reports in two orders have the same errors, and differ in
its warnings at most.
-/

namespace FeatureModel

/-- Whether two reports differ in the warnings of one rule at most. -/
structure Report.AlikeButFor (ruleId : String) (report report' : Report) : Prop where
  errors_eq : report.violations.filter (fun v => decide (v.severity = .error)) =
    report'.violations.filter (fun v => decide (v.severity = .error))
  errorCount_eq : report.errorCount = report'.errorCount
  ruleId_eq : forall v, v ∈ report.violations ∨ v ∈ report'.violations ->
    v.severity = .warning -> v.ruleId = ruleId

namespace Evaluation

/-!
## Errors of rules
-/

theorem filter_error_arrange_foundBy {g : Graph} {rule : Rule}
    (hseverity : rule.info.severity = .warning) :
    (Report.arrange (foundBy g rule)).filter (fun v => decide (v.severity = .error)) = [] := by
  rw [List.filter_eq_nil_iff]
  intro v hv
  rw [(of_mem_arrange_foundBy hv).right, hseverity]
  decide

theorem filter_error_arrange_eq {g g' : Graph} {rules : List Rule}
    (hnodup : (rules.map Rule.id).Nodup)
    (halike : forall rule, rule ∈ rules -> rule.info.severity = .error -> FindsAlike g g' rule) :
    (Report.arrange ((sequence g rules).flatMap signed)).filter
        (fun v => decide (v.severity = .error)) =
      (Report.arrange ((sequence g' rules).flatMap signed)).filter
        (fun v => decide (v.severity = .error)) := by
  rcases Rule.exists_perm_pairwise_precedes hnodup with ⟨ordered, hperm, hordered⟩
  rw [arrange_sequence hnodup hperm hordered, arrange_sequence hnodup hperm hordered,
    List.filter_flatMap, List.filter_flatMap]
  apply List.flatMap_congr
  intro rule hrule
  cases hseverity : rule.info.severity with
  | warning =>
      rw [filter_error_arrange_foundBy hseverity, filter_error_arrange_foundBy hseverity]
  | error =>
      have hsame := (halike rule (hperm.mem_iff.mp hrule) hseverity).mem_iff
      rw [Report.arrange_congr hsame]

/-!
## The built-in rules
-/

section Built

variable {records records' : List Record} {g g' : Graph}

theorem endsAlike_of_perm (hperm : records.Perm records')
    (hnodup : (records.map (fun r => r.guid)).Nodup) : EndsAlike records records' where
  labelIn_eq guid := by
    unfold labelIn
    rw [firstOf?_of_perm hperm hnodup]
  mandatory_iff guid := by
    unfold Mandatory
    simp only [hperm.mem_iff]
  joined_iff a b kind _ := by
    unfold Joined
    rw [declares_iff_of_perm hperm, declares_iff_of_perm hperm]

theorem findsAlike_of_perm (hperm : records.Perm records')
    (h : Graph.build records false = .ok g) (h' : Graph.build records' false = .ok g') :
    forall rule, rule ∈ Builtin.all -> rule.info.severity = .error -> FindsAlike g g' rule := by
  have hnodup := Graph.nodup_guids_of_build h
  have hnodup' := Graph.nodup_guids_of_build h'
  have hends := endsAlike_of_perm hperm hnodup
  rw [Builtin.forall_mem_all]
  refine ⟨?_, ?_, ?_, ?_⟩
  · intro _
    exact findsAlike_of_evaluate_eq
      ((Builtin.noDuplicateGuid_clear_iff (Graph.holds_of_build h)).mpr hnodup)
      ((Builtin.noDuplicateGuid_clear_iff (Graph.holds_of_build h')).mpr hnodup')
  · intro _
    exact findsAlike_mandatoryIncompatible h h' hends
  · intro herror
    -- The rule only warns.
    cases herror
  · intro _
    exact findsAlike_conflictingRelationshipKinds h h' hends

theorem alikeButFor_of_perm (hperm : records.Perm records')
    (h : Graph.build records false = .ok g) (h' : Graph.build records' false = .ok g')
    (mode : Mode) :
    Report.AlikeButFor Builtin.monotonicGuid.id
      (Report.render ((sequence g Builtin.all).flatMap signed) mode)
      (Report.render ((sequence g' Builtin.all).flatMap signed) mode) := by
  have herrors := filter_error_arrange_eq Registry.reached_builtin.nodup_ids
    (findsAlike_of_perm hperm h h')
  refine ⟨herrors, ?_, ?_⟩
  · show Report.countOf .error _ = Report.countOf .error _
    rw [Report.countOf_eq_length_filter, Report.countOf_eq_length_filter, herrors]
  · intro v hv hwarning
    rcases hv with hone | hother
    · exact (severity_eq_warning_iff_builtin hone).mp hwarning
    · exact (severity_eq_warning_iff_builtin hother).mp hwarning

end Built

end Evaluation

/-- Records in two orders both have a graph that repeats no guid, or neither has.  The two graphs
are the same up to positions, and under the built-in rules their reports differ in the warnings
about guids that do not increase at most, which a lenient verdict does not count. -/
theorem permuted_records_alike {records records' : List Record} (hperm : records.Perm records') :
    ((exists g, Graph.build records false = .ok g) <->
        exists g', Graph.build records' false = .ok g') ∧
      forall g g', Graph.build records false = .ok g -> Graph.build records' false = .ok g' ->
        g.SameUnplaced g' ∧
          forall executor mode, exists report report',
            compile executor g Registry.builtin mode = .ok report ∧
              compile executor g' Registry.builtin mode = .ok report' ∧
                report.AlikeButFor "monotonic-guid" report' ∧
                  (mode = .lenient -> report.isValid = report'.isValid) := by
  refine ⟨Graph.build_isOk_iff_of_perm hperm, ?_⟩
  intro g g' h h'
  refine ⟨Graph.sameUnplaced_of_perm hperm h h', ?_⟩
  intro executor mode
  have halike := Evaluation.alikeButFor_of_perm hperm h h' mode
  refine ⟨_, _, Evaluation.compile_builtin_eq h executor mode,
    Evaluation.compile_builtin_eq h' executor mode, halike, ?_⟩
  intro hlenient
  rw [hlenient] at halike ⊢
  exact Report.isValid_render_lenient_congr halike.errorCount_eq

/-- Two records in both orders: the positions in their tables differ, and one order has a warning
beside the two errors of both. -/
theorem permuted_records_alike_reversed :
    let left : Record :=
      { guid := 7, name := "left", mandatory := true,
        links := [{ target := -3, kind := .incompatible }, { target := -3, kind := .alternative }] }
    let right : Record := { guid := -3, name := "right", mandatory := true }
    exists g g' report report',
      Graph.build [left, right] false = .ok g ∧ Graph.build [right, left] false = .ok g' ∧
        g.edges ≠ g'.edges ∧ g.SameUnplaced g' ∧
          compile (.pool 2) g Registry.builtin .lenient = .ok report ∧
          compile (.pool 2) g' Registry.builtin .lenient = .ok report' ∧
          report.AlikeButFor "monotonic-guid" report' ∧ report.isValid = report'.isValid ∧
          report.errorCount = 2 ∧ report.warningCount = 1 ∧ report'.warningCount = 0 := by
  intro left right
  have hbuild : Graph.build [left, right] false = .ok (Graph.ofRecords [left, right]) := by
    decide +kernel
  have hbuild' : Graph.build [right, left] false = .ok (Graph.ofRecords [right, left]) := by
    decide +kernel
  rcases (permuted_records_alike (List.Perm.swap right left [])).right _ _ hbuild hbuild' with
    ⟨hsame, hreports⟩
  rcases hreports (.pool 2) .lenient with ⟨report, report', hone, hother, halike, hvalid⟩
  have hcounts : (compile (.pool 2) (Graph.ofRecords [left, right]) Registry.builtin .lenient).map
      (fun r => (r.errorCount, r.warningCount)) = .ok (2, 1) := by
    decide +kernel
  have hcounts' : (compile (.pool 2) (Graph.ofRecords [right, left]) Registry.builtin .lenient).map
      (fun r => r.warningCount) = .ok 0 := by
    decide +kernel
  rw [hone] at hcounts
  rw [hother] at hcounts'
  have hpair := Prod.ext_iff.mp (Except.ok.inj hcounts)
  exact ⟨_, _, report, report', hbuild, hbuild', by decide +kernel, hsame, hone, hother, halike,
    hvalid rfl, hpair.left, hpair.right, Except.ok.inj hcounts'⟩

end FeatureModel
