import FeatureModel.Proofs.Evaluation.Findings

/-!
# Rules do not meddle with one another

The report of a registry is made of the reports of its rules, each compiled alone:
one after another, the rules that give errors first, and by identifier among rules
of one severity.  So it does not depend on the order in which rules are registered.
-/

namespace FeatureModel

namespace Rule

/-- Whether the findings of a rule stand before those of another in a report. -/
def Precedes (r s : Rule) : Prop :=
  (r.info.severity = .error ∧ s.info.severity = .warning) ∨
    (r.info.severity = s.info.severity ∧ Text.bytes r.id < Text.bytes s.id)

def total (count : Rule -> Nat) : List Rule -> Nat
  | [] => 0
  | rule :: rest => count rule + total count rest

end Rule

/-- Whether a report consists of reports of single rules, one after another. -/
structure Report.Concatenates (reportOf : Rule -> Report) (ordered : List Rule) (r : Report) :
    Prop where
  violations_eq : r.violations = ordered.flatMap (fun rule => (reportOf rule).violations)
  errorCount_eq : r.errorCount = Rule.total (fun rule => (reportOf rule).errorCount) ordered
  warningCount_eq : r.warningCount = Rule.total (fun rule => (reportOf rule).warningCount) ordered
  isValid_iff : r.isValid = true <->
    forall rule, rule ∈ ordered -> (reportOf rule).isValid = true
  /-- What is said in the name of a rule is what its own report says. -/
  violations_of_rule : forall rule, rule ∈ ordered ->
    r.violations.filter (fun v => decide (v.ruleId = rule.id)) = (reportOf rule).violations

/-!
## Rules in the order of a report
-/

namespace Rule

def order (r s : Rule) : Ordering :=
  (compare r.info.severity.rank s.info.severity.rank).then (compare r.id s.id)

instance instTransCmpOrder : Std.TransCmp order :=
  inferInstanceAs (Std.TransCmp (compareLex (compareOn (fun rule : Rule => rule.info.severity.rank))
    (compareOn (fun rule => rule.id))))

theorem precedes_of_isLE_order {r s : Rule} (h : (order r s).isLE = true) (hne : r.id ≠ s.id) :
    r.Precedes s := by
  unfold order at h
  cases hseverity : compare r.info.severity.rank s.info.severity.rank with
  | lt => exact Or.inl (Violation.compare_rank_eq_lt.mp hseverity)
  | gt =>
      rw [hseverity] at h
      cases h
  | eq =>
      rw [hseverity, Ordering.eq_then] at h
      refine Or.inr ⟨Violation.rank_eq_iff.mp (Std.LawfulEqCmp.eq_of_compare hseverity), ?_⟩
      cases hid : compare r.id s.id with
      | lt => exact Violation.compare_text_eq_lt.mp hid
      | eq => exact absurd (Std.LawfulEqCmp.eq_of_compare hid) hne
      | gt =>
          rw [hid] at h
          cases h

theorem exists_perm_pairwise_precedes {rules : List Rule} (h : (rules.map Rule.id).Nodup) :
    exists ordered : List Rule, ordered.Perm rules ∧ ordered.Pairwise Precedes := by
  have hperm := Sorting.sortBy_perm order rules
  refine ⟨Sorting.sortBy order rules, hperm, ?_⟩
  have hne := (hperm.map Rule.id).nodup_iff.mpr h
  rw [List.Nodup, List.pairwise_map] at hne
  refine (List.pairwise_and_iff.mpr ⟨Sorting.ascending_sortBy order rules, hne⟩).imp ?_
  intro r s hrs
  exact precedes_of_isLE_order hrs.left hrs.right

theorem total_eq_zero_iff {count : Rule -> Nat} {rules : List Rule} :
    total count rules = 0 <-> forall rule, rule ∈ rules -> count rule = 0 := by
  induction rules with
  | nil => simp [total]
  | cons rule rest ih => simp [total, ih]

theorem countOf_flatMap (severity : Severity) (f : Rule -> List Violation) (rules : List Rule) :
    Report.countOf severity (rules.flatMap f) =
      total (fun rule => Report.countOf severity (f rule)) rules := by
  induction rules with
  | nil => rfl
  | cons rule rest ih =>
      rw [total, <- ih, List.flatMap_cons]
      exact List.countP_append

end Rule

namespace Evaluation

theorem of_mem_arrange_foundBy {g : Graph} {rule : Rule} {v : Violation}
    (hv : v ∈ Report.arrange (foundBy g rule)) :
    v.ruleId = rule.id ∧ v.severity = rule.info.severity := by
  rcases (Report.mem_arrange_iff.mp hv).right.left with ⟨w, hw, hkey, hseverity⟩
  have hfound := of_mem_foundBy hw
  exact ⟨(congrArg DefectKey.ruleId hkey).symm.trans hfound.left,
    hseverity.symm.trans hfound.right⟩

theorem arrange_sequence {g : Graph} {rules ordered : List Rule}
    (hnodup : (rules.map Rule.id).Nodup) (hperm : ordered.Perm rules)
    (hordered : ordered.Pairwise Rule.Precedes) :
    Report.arrange ((sequence g rules).flatMap signed) =
      ordered.flatMap (fun rule => Report.arrange (foundBy g rule)) := by
  have hsame : Report.arrange ((sequence g rules).flatMap signed) =
      Report.arrange (ordered.flatMap (foundBy g)) := by
    apply Report.arrange_congr
    intro v
    rw [mem_flatMap_signed_sequence, List.mem_flatMap]
    simp only [hperm.mem_iff]
  rw [hsame]
  apply Report.arrange_flatMap
  · intro r s hr hs v w hv hw hkey
    refine List.inj_on_of_nodup_map hnodup (hperm.mem_iff.mp hr) (hperm.mem_iff.mp hs) ?_
    rw [<- (of_mem_foundBy hv).left, <- (of_mem_foundBy hw).left]
    exact congrArg DefectKey.ruleId hkey
  · refine hordered.imp ?_
    intro r s hrs v hv w hw
    rcases of_mem_arrange_foundBy hv with ⟨hvid, hvseverity⟩
    rcases of_mem_arrange_foundBy hw with ⟨hwid, hwseverity⟩
    unfold Violation.Precedes
    rw [hvid, hvseverity, hwid, hwseverity]
    rcases hrs with hseverity | ⟨hseverity, hid⟩
    · exact Or.inl hseverity
    · exact Or.inr ⟨hseverity, Or.inl hid⟩

/-!
## Reports of rules
-/

def reportOf (g : Graph) (mode : Mode) (rule : Rule) : Report :=
  Report.render (foundBy g rule) mode

theorem isValid_render_iff (findings : List Violation) (mode : Mode) :
    (Report.render findings mode).isValid = true <->
      Report.countOf .error (Report.arrange findings) = 0 ∧
        (mode = .lenient ∨ Report.countOf .warning (Report.arrange findings) = 0) := by
  simp [Report.render, Report.verdict]

theorem concatenates_render {g : Graph} {rules ordered : List Rule}
    (hnodup : (rules.map Rule.id).Nodup) (hperm : ordered.Perm rules)
    (hordered : ordered.Pairwise Rule.Precedes) (mode : Mode) :
    (Report.render ((sequence g rules).flatMap signed) mode).Concatenates (reportOf g mode)
      ordered := by
  have harranged := arrange_sequence (g := g) hnodup hperm hordered
  have hcount : forall severity,
      Report.countOf severity (Report.arrange ((sequence g rules).flatMap signed)) =
        Rule.total (fun rule => Report.countOf severity (Report.arrange (foundBy g rule)))
          ordered := by
    intro severity
    rw [harranged]
    exact Rule.countOf_flatMap severity _ ordered
  refine ⟨harranged, hcount .error, hcount .warning, ?_, ?_⟩
  · unfold reportOf
    simp only [isValid_render_iff]
    rw [hcount, hcount, Rule.total_eq_zero_iff, Rule.total_eq_zero_iff]
    constructor
    · intro h rule hrule
      exact ⟨h.left rule hrule, h.right.imp_right (fun hnone => hnone rule hrule)⟩
    · intro h
      refine ⟨fun rule hrule => (h rule hrule).left, ?_⟩
      cases mode with
      | lenient => exact Or.inl rfl
      | strict => exact Or.inr (fun rule hrule => by simpa using (h rule hrule).right)
  · intro rule hrule
    exact filter_arrange_sequence hnodup (hperm.mem_iff.mp hrule)

section Built

variable {records : List Record} {tolerate : Bool} {g : Graph} {rules : List Rule}
  {registry : Registry}

theorem compile_only_eq_ok_iff (hbuild : Graph.build records tolerate = .ok g)
    (hreached : Registry.Reached rules registry) {rule : Rule} (hrule : rule ∈ rules)
    {executor : Executor} {mode : Mode} {report : Report} :
    compile executor g (Registry.only rule) mode = .ok report <->
      (forall x, x ∈ sequence g [rule] -> exists found, x.outcome = .ok found) ∧
        report = reportOf g mode rule :=
  compile_eq_ok_iff hbuild (hreached.only hrule)

theorem compile_eq_ok_iff_of_perm (hbuild : Graph.build records tolerate = .ok g)
    (hreached : Registry.Reached rules registry) {rules' : List Rule} {registry' : Registry}
    (hreached' : Registry.Reached rules' registry') (hperm : rules'.Perm rules)
    {executor : Executor} {mode : Mode} {report : Report} :
    compile executor g registry' mode = .ok report <->
      compile executor g registry mode = .ok report := by
  have hmem : forall {x : Evaluation}, x ∈ sequence g rules' <-> x ∈ sequence g rules := by
    intro x
    rw [mem_sequence_iff, mem_sequence_iff]
    simp only [hperm.mem_iff]
  have hrender : Report.render ((sequence g rules').flatMap signed) mode =
      Report.render ((sequence g rules).flatMap signed) mode := by
    apply Report.render_congr
    intro v
    simp only [List.mem_flatMap, hmem]
  rw [compile_eq_ok_iff hbuild hreached', compile_eq_ok_iff hbuild hreached, hrender]
  simp only [hmem]

end Built

end Evaluation

/-- A compilation succeeds when each of its rules does alone, and its report is then made of
theirs, whatever the order in which they were registered. -/
theorem compile_concatenates_rules {records : List Record} {tolerate : Bool} {g : Graph}
    (hbuild : Graph.build records tolerate = .ok g) {rules : List Rule} {registry : Registry}
    (hreached : Registry.Reached rules registry) (executor : Executor) (mode : Mode) :
    (forall rule, rule ∈ rules -> Registry.Reached [rule] (Registry.only rule)) ∧
      ((exists report, compile executor g registry mode = .ok report) <->
        forall rule, rule ∈ rules ->
          exists report, compile executor g (Registry.only rule) mode = .ok report) ∧
      (forall report, compile executor g registry mode = .ok report ->
        exists (reportOf : Rule -> Report) (ordered : List Rule),
          (forall rule, rule ∈ rules ->
            compile executor g (Registry.only rule) mode = .ok (reportOf rule)) ∧
          ordered.Perm rules ∧ ordered.Pairwise Rule.Precedes ∧
            report.Concatenates reportOf ordered) ∧
      forall rules' registry', Registry.Reached rules' registry' -> rules'.Perm rules ->
        forall report, compile executor g registry' mode = .ok report <->
          compile executor g registry mode = .ok report := by
  have honly : forall {rule}, rule ∈ rules -> forall report,
      compile executor g (Registry.only rule) mode = .ok report <->
        (forall x, x ∈ Evaluation.sequence g [rule] -> exists found, x.outcome = .ok found) ∧
          report = Evaluation.reportOf g mode rule :=
    fun hrule _ => Evaluation.compile_only_eq_ok_iff hbuild hreached hrule
  refine ⟨fun _ hrule => hreached.only hrule, ?_, ?_, ?_⟩
  · simp only [Evaluation.compile_eq_ok_iff hbuild hreached, exists_and_left, exists_eq, and_true]
    rw [Evaluation.forall_ok_iff_forall_rule]
    constructor
    · intro h rule hrule
      exact ⟨_, (honly hrule _).mpr ⟨h rule hrule, rfl⟩⟩
    · intro h rule hrule
      rcases h rule hrule with ⟨report, hreport⟩
      exact ((honly hrule report).mp hreport).left
  · intro report hreport
    rcases (Evaluation.compile_eq_ok_iff hbuild hreached).mp hreport with ⟨hall, heq⟩
    rcases Rule.exists_perm_pairwise_precedes hreached.nodup_ids with ⟨ordered, hperm, hordered⟩
    refine ⟨Evaluation.reportOf g mode, ordered, ?_, hperm, hordered, ?_⟩
    · intro rule hrule
      exact (honly hrule _).mpr ⟨Evaluation.forall_ok_iff_forall_rule.mp hall rule hrule, rfl⟩
    · rw [heq]
      exact Evaluation.concatenates_render hreached.nodup_ids hperm hordered mode
  · intro rules' registry' hreached' hperm report
    exact Evaluation.compile_eq_ok_iff_of_perm hbuild hreached hreached' hperm

/-- A rule that speaks in the name of another is still reported apart from it, under its own name
and at its own severity. -/
theorem compile_keeps_rules_apart :
    let records : List Record :=
      [{ guid := 7, links := [{ target := -3, kind := .complex }] }, { guid := -3 }]
    let edgeRule : Rule := .edge
      { id := "a", severity := .warning,
        evaluate := fun _ => .ok [{ ruleId := "b", guids := [7], message := "found" }] }
    let graphRule : Rule := .graph
      { id := "b", evaluate := fun _ => .ok [{ ruleId := "b", guids := [7, 7], message := "found" }] }
    let g := Graph.ofRecords records
    let registry := (Registry.empty.add edgeRule).add graphRule
    exists report, compile (.pool 2) g registry .strict = .ok report ∧
      report.violations.map (fun v => (v.ruleId, v.severity)) =
        [("b", .error), ("a", .warning)] ∧
      exists (reportOf : Rule -> Report) (ordered : List Rule),
        ordered.Perm [edgeRule, graphRule] ∧ report.Concatenates reportOf ordered := by
  intro records edgeRule graphRule g registry
  have hbuild : Graph.build records false = .ok g := rfl
  have hreached : Registry.Reached [edgeRule, graphRule] registry :=
    (Registry.Reached.empty.put edgeRule rfl rfl).put graphRule rfl rfl
  have happly := compile_concatenates_rules hbuild hreached (.pool 2) .strict
  have hreport : compile (.pool 2) g registry .strict = .ok
      { isValid := false
        mode := .strict
        violations :=
          [{ ruleId := "b", severity := .error, guids := [7], message := "found" },
            { ruleId := "a", severity := .warning, guids := [7], message := "found" }]
        errorCount := 1
        warningCount := 1 } := by
    decide +kernel
  rcases happly.right.right.left _ hreport with ⟨reportOf, ordered, _, hperm, _, hconcatenates⟩
  exact ⟨_, hreport, rfl, reportOf, ordered, hperm, hconcatenates⟩

end FeatureModel
