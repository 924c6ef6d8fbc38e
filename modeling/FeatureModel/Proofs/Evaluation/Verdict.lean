import FeatureModel.Proofs.Evaluation.Reference
import FeatureModel.Proofs.Report.Postcondition
import FeatureModel.Proofs.Rule.Builtin

/-!
# The verdict of the built-in rules

Records that are compiled under the built-in rules have a report unless they have
no graph.  Its verdict says whether the records are consistent, and in strict mode
also whether their guids increase.
-/

namespace FeatureModel

/-- What the built-in rules ask of records at the severity of an error. -/
structure Consistent (records : List Record) : Prop where
  nodup_guids : (records.map (fun r => r.guid)).Nodup
  not_both_mandatory : forall a b, a ≠ b -> Joined records a b .incompatible ->
    ¬ (Mandatory records a ∧ Mandatory records b)
  not_joined_twice : forall a b, a ≠ b -> Joined records a b .alternative ->
    ¬ Joined records a b .incompatible

namespace Evaluation

/-!
## Verdicts on evaluations
-/

theorem mem_signed_iff {x : Evaluation} {w : Violation} :
    w ∈ x.signed <-> exists found v, x.outcome = .ok found ∧ v ∈ found ∧ x.rule.sign v = w := by
  unfold signed
  cases x.outcome with
  | ok found =>
      rw [List.mem_map]
      constructor
      · intro h
        rcases h with ⟨v, hv, hsign⟩
        exact ⟨found, v, rfl, hv, hsign⟩
      · intro h
        rcases h with ⟨_, v, heq, hv, hsign⟩
        cases heq
        exact ⟨v, hv, hsign⟩
  | error failure => simp

theorem ruleId_of_mem_signed {x : Evaluation} {w : Violation} (h : w ∈ x.signed) :
    w.ruleId = x.rule.id := by
  rcases mem_signed_iff.mp h with ⟨_, v, _, _, hsign⟩
  rw [<- hsign]
  rfl

theorem severity_of_mem_signed {x : Evaluation} {w : Violation} (h : w ∈ x.signed) :
    w.severity = x.rule.severity := by
  rcases mem_signed_iff.mp h with ⟨_, v, _, _, hsign⟩
  rw [<- hsign]
  rfl

theorem signed_eq_nil_iff {x : Evaluation} (hx : exists found, x.outcome = .ok found) :
    x.signed = [] <-> x.outcome = .ok [] := by
  rcases hx with ⟨found, hfound⟩
  unfold signed
  rw [hfound]
  simp

theorem isValid_render_signed {xs : List Evaluation}
    (hall : forall x, x ∈ xs -> exists found, x.outcome = .ok found) (mode : Mode) :
    (Report.render (xs.flatMap signed) mode).isValid = true <->
      forall x, x ∈ xs -> (mode = .strict ∨ x.rule.severity = .error) -> x.outcome = .ok [] := by
  cases mode with
  | strict =>
      rw [Report.isValid_render_strict, List.flatMap_eq_nil_iff]
      constructor
      · intro hnil x hx _
        exact (signed_eq_nil_iff (hall x hx)).mp (hnil x hx)
      · intro hclear x hx
        exact (signed_eq_nil_iff (hall x hx)).mpr (hclear x hx (Or.inl rfl))
  | lenient =>
      rw [Report.isValid_render_lenient]
      constructor
      · intro hnone x hx hcounts
        apply (signed_eq_nil_iff (hall x hx)).mp
        rw [List.eq_nil_iff_forall_not_mem]
        intro w hw
        have hseverity : x.rule.severity = .error := by simpa using hcounts
        apply hnone w (List.mem_flatMap.mpr ⟨x, hx, hw⟩)
        rw [severity_of_mem_signed hw, hseverity]
      · intro hclear w hw herror
        rcases List.mem_flatMap.mp hw with ⟨x, hx, hwx⟩
        rw [severity_of_mem_signed hwx] at herror
        rw [(signed_eq_nil_iff (hall x hx)).mpr (hclear x hx (Or.inr herror))] at hwx
        cases hwx

/-!
## The evaluations of the built-in rules
-/

theorem forall_mem_sequence_builtin {g : Graph} {p : Evaluation -> Prop} :
    (forall x, x ∈ sequence g Builtin.all -> p x) <->
      p (ofGraph g Builtin.noDuplicateGuid) ∧ p (ofGraph g Builtin.monotonicGuid) ∧
        (forall view, view ∈ g.views -> p (ofEdge Builtin.mandatoryIncompatible view)) ∧
          forall view, view ∈ g.views -> p (ofEdge Builtin.conflictingRelationshipKinds view) := by
  have hsequence : sequence g Builtin.all =
      [ofGraph g Builtin.noDuplicateGuid, ofGraph g Builtin.monotonicGuid] ++
        (g.views.map (ofEdge Builtin.mandatoryIncompatible) ++
          (g.views.map (ofEdge Builtin.conflictingRelationshipKinds) ++ [])) := rfl
  rw [hsequence]
  simp only [List.forall_mem_append, List.forall_mem_cons, List.forall_mem_map, List.append_nil,
    List.not_mem_nil, false_imp_iff, implies_true, and_true, and_assoc]

section Builtin

variable {records : List Record} {tolerate : Bool} {g : Graph}

theorem exists_ok_of_mem_sequence_builtin (h : Graph.build records tolerate = .ok g) :
    forall x, x ∈ sequence g Builtin.all -> exists found, x.outcome = .ok found := by
  rw [forall_mem_sequence_builtin]
  refine ⟨⟨_, rfl⟩, ⟨_, rfl⟩, ?_, ?_⟩
  · intro view hview
    exact (Builtin.findsPairs_mandatoryIncompatible h).exists_ok hview
  · intro view hview
    exact (Builtin.findsPairs_conflictingRelationshipKinds h).exists_ok hview

/-- Of the built-in rules, the one about increasing guids counts in strict mode only. -/
theorem sequence_builtin_clear_iff (h : Graph.build records tolerate = .ok g) (mode : Mode) :
    (forall x, x ∈ sequence g Builtin.all ->
        (mode = .strict ∨ x.rule.severity = .error) -> x.outcome = .ok []) <->
      Consistent records ∧
        (mode = .strict -> (records.map (fun r => r.guid)).Pairwise (fun a b => a < b)) := by
  have hholds := Graph.holds_of_build h
  have hexcluding := Builtin.findsPairs_mandatoryIncompatible h
  have hconflict := Builtin.findsPairs_conflictingRelationshipKinds h
  rw [forall_mem_sequence_builtin]
  constructor
  · intro hclear
    rcases hclear with ⟨hshared, hsetbacks, hmandatory, hconflicting⟩
    refine ⟨⟨?_, ?_, ?_⟩, ?_⟩
    · exact (Builtin.noDuplicateGuid_clear_iff hholds).mp (hshared (Or.inr rfl))
    · intro a b _ hjoined hboth
      exact hexcluding.clear_iff.mp (fun view hview => hmandatory view hview (Or.inr rfl)) a b
        ⟨hjoined, hboth⟩
    · intro a b _ halternative hincompatible
      exact hconflict.clear_iff.mp (fun view hview => hconflicting view hview (Or.inr rfl)) a b
        ⟨halternative, hincompatible⟩
    · intro hstrict
      exact (Builtin.monotonicGuid_clear_iff hholds).mp (hsetbacks (Or.inl hstrict))
  · intro hall
    rcases hall with ⟨hconsistent, hascending⟩
    refine ⟨?_, ?_, ?_, ?_⟩
    · intro _
      exact (Builtin.noDuplicateGuid_clear_iff hholds).mpr hconsistent.nodup_guids
    · intro hcounts
      rcases hcounts with hstrict | herror
      · exact (Builtin.monotonicGuid_clear_iff hholds).mpr (hascending hstrict)
      · -- The rule only warns.
        cases herror
    · intro view hview _
      refine hexcluding.clear_iff.mpr ?_ view hview
      intro a b hpair
      exact hconsistent.not_both_mandatory a b (hexcluding.ne hpair) hpair.left hpair.right
    · intro view hview _
      refine hconflict.clear_iff.mpr ?_ view hview
      intro a b hpair
      exact hconsistent.not_joined_twice a b (hconflict.ne hpair) hpair.left hpair.right

theorem compile_builtin_eq (h : Graph.build records tolerate = .ok g) (executor : Executor)
    (mode : Mode) :
    compile executor g Registry.builtin mode =
      .ok (Report.render ((sequence g Builtin.all).flatMap signed) mode) := by
  rw [compile_eq_settle h Registry.reached_builtin,
    settle_of_ok (exists_ok_of_mem_sequence_builtin h)]
  rfl

theorem compile_builtin (h : Graph.build records tolerate = .ok g) (executor : Executor)
    (mode : Mode) :
    exists report, compile executor g Registry.builtin mode = .ok report ∧
      (report.isValid = true <-> Consistent records ∧
        (mode = .strict -> (records.map (fun r => r.guid)).Pairwise (fun a b => a < b))) := by
  refine ⟨_, compile_builtin_eq h executor mode, ?_⟩
  rw [isValid_render_signed (exists_ok_of_mem_sequence_builtin h), sequence_builtin_clear_iff h]

end Builtin

end Evaluation

/-- Records compiled under the built-in rules have no report exactly when they have no graph, and
then for the same reason; otherwise the report is valid exactly when they are consistent and, in
strict mode, their guids increase. -/
theorem compileRecords_builtin_judges (executor : Executor) (records : List Record)
    (tolerate : Bool) (mode : Mode) :
    (forall e, compileRecords executor records tolerate Registry.builtin mode = .error e <->
        exists defect, Graph.build records tolerate = .error defect ∧ e = .structural defect) ∧
      forall report,
        compileRecords executor records tolerate Registry.builtin mode = .ok report ->
          (report.isValid = true <-> Consistent records ∧
            (mode = .strict ->
              (records.map (fun r => r.guid)).Pairwise (fun a b => a < b))) := by
  unfold compileRecords
  cases h : Graph.build records tolerate with
  | error defect =>
      constructor
      · intro e
        simp [eq_comm]
      · intro report hreport
        cases hreport
  | ok g =>
      rcases Evaluation.compile_builtin h executor mode with ⟨_, hcompile, hvalid⟩
      dsimp only
      rw [hcompile]
      constructor
      · intro e
        simp [Except.mapError]
      · intro report hreport
        cases hreport
        exact hvalid

end FeatureModel
