import FeatureModel.Proofs.Report.Order
import FeatureModel.Report.Render

/-!
# What a report says

A report holds one normal finding for each defect found, at the greatest
severity at which it was found, in report order, with its counts and verdict.
That describes the report of a list of findings completely.
-/

namespace FeatureModel
namespace Report

open Violation

/-- What makes a report the one of a list of findings, in a mode. -/
structure Renders (findings : List Violation) (mode : Mode) (r : Report) : Prop where
  mode_eq : r.mode = mode
  /-- The guids of each finding are spelled as a set. -/
  isNormal : forall v, v ∈ r.violations -> v.guids.Pairwise (fun a b => a < b)
  /-- The defects reported are the defects found. -/
  mem_keys : forall k, k ∈ r.violations.map key <-> k ∈ findings.map key
  nodup_keys : (r.violations.map key).Nodup
  severity_eq_error_iff : forall v, v ∈ r.violations ->
    (v.severity = .error <->
      exists w, w ∈ findings ∧ w.key = v.key ∧ w.severity = .error)
  pairwise_precedes : r.violations.Pairwise Precedes
  errorCount_eq :
    r.errorCount = (r.violations.filter (fun v => decide (v.severity = .error))).length
  warningCount_eq :
    r.warningCount = (r.violations.filter (fun v => decide (v.severity = .warning))).length
  count_add : r.errorCount + r.warningCount = r.violations.length
  isValid_lenient : mode = .lenient ->
    (r.isValid = true <-> forall w, w ∈ findings -> w.severity ≠ .error)
  isValid_strict : mode = .strict -> (r.isValid = true <-> findings = [])

/-!
## One finding of each defect
-/

theorem exists_of_mem_distinct {findings : List Violation} {v : Violation}
    (h : v ∈ distinct findings) : exists w, w ∈ findings ∧ v = w.normalize := by
  have hsorted := Sorting.mem_sortBy.mp ((Runs.heads_sublist _ _).subset h)
  rcases List.mem_map.mp hsorted with ⟨w, hw, hv⟩
  exact ⟨w, hw, hv.symm⟩

theorem isNormal_of_mem_distinct {findings : List Violation} {v : Violation}
    (h : v ∈ distinct findings) : v.IsNormal := by
  rcases exists_of_mem_distinct h with ⟨w, _, hv⟩
  rw [hv]
  exact isNormal_normalize w

theorem nodup_writtenKey_distinct (findings : List Violation) :
    ((distinct findings).map writtenKey).Nodup :=
  Runs.nodup_key_heads tells_sameDefect keepsTogether_defectOrder
    (Sorting.ascending_sortBy defectOrder (findings.map normalize))

theorem exists_mem_distinct {findings : List Violation} {w : Violation} (hw : w ∈ findings) :
    exists v, v ∈ distinct findings ∧ v.key = w.key ∧ v.severity.rank ≤ w.severity.rank := by
  have hmem : w.normalize ∈ Sorting.sortBy defectOrder (findings.map normalize) :=
    Sorting.mem_sortBy.mpr (List.mem_map_of_mem hw)
  rcases Runs.exists_head_of_mem tells_sameDefect
      (Sorting.ascending_sortBy defectOrder (findings.map normalize)) hmem with
    ⟨v, hv, hwritten, hfirst⟩
  have hkey : v.key = w.normalize.key :=
    (writtenKey_eq_iff_key_eq (isNormal_of_mem_distinct hv) (isNormal_normalize w)).mp hwritten
  refine ⟨v, hv, hkey.trans (key_normalize w), ?_⟩
  rcases hfirst with heq | hle
  · rw [heq, severity_normalize]
  · exact rank_le_of_isLE_defectOrder (w := w.normalize) hle hwritten

/-!
## The findings of a report
-/

theorem mem_arrange {findings : List Violation} {v : Violation} :
    v ∈ arrange findings <-> v ∈ distinct findings :=
  Sorting.mem_sortBy

theorem isNormal_of_mem_arrange {findings : List Violation} {v : Violation}
    (h : v ∈ arrange findings) : v.IsNormal :=
  isNormal_of_mem_distinct (mem_arrange.mp h)

theorem nodup_key_arrange (findings : List Violation) : ((arrange findings).map key).Nodup := by
  have hperm : ((arrange findings).map writtenKey).Perm ((distinct findings).map writtenKey) :=
    (Sorting.sortBy_perm _ _).map writtenKey
  have hwritten := hperm.nodup_iff.mpr (nodup_writtenKey_distinct findings)
  rw [List.Nodup, List.pairwise_map] at hwritten ⊢
  refine hwritten.imp_of_mem ?_
  intro v w hv hw hne hkey
  exact hne ((writtenKey_eq_iff_key_eq (isNormal_of_mem_arrange hv)
    (isNormal_of_mem_arrange hw)).mpr hkey)

theorem eq_of_mem_arrange_of_key_eq {findings : List Violation} {v w : Violation}
    (hv : v ∈ arrange findings) (hw : w ∈ arrange findings) (hkey : v.key = w.key) : v = w :=
  List.inj_on_of_nodup_map (nodup_key_arrange findings) hv hw hkey

theorem mem_keys_arrange (findings : List Violation) (k : DefectKey) :
    k ∈ (arrange findings).map key <-> k ∈ findings.map key := by
  simp only [List.mem_map, mem_arrange]
  constructor
  · intro h
    rcases h with ⟨v, hv, hk⟩
    rcases exists_of_mem_distinct hv with ⟨w, hw, heq⟩
    exact ⟨w, hw, by rw [<- hk, heq, key_normalize]⟩
  · intro h
    rcases h with ⟨w, hw, hk⟩
    rcases exists_mem_distinct hw with ⟨v, hv, hkey, _⟩
    exact ⟨v, hv, hkey.trans hk⟩

theorem severity_eq_error_iff_of_mem_arrange {findings : List Violation} {v : Violation}
    (hv : v ∈ arrange findings) :
    v.severity = .error <-> exists w, w ∈ findings ∧ w.key = v.key ∧ w.severity = .error := by
  constructor
  · intro herror
    rcases exists_of_mem_distinct (mem_arrange.mp hv) with ⟨w, hw, heq⟩
    refine ⟨w, hw, ?_, ?_⟩
    · rw [heq, key_normalize]
    · rw [<- severity_normalize, <- heq]
      exact herror
  · intro h
    rcases h with ⟨w, hw, hkey, herror⟩
    rcases exists_mem_distinct hw with ⟨u, hu, hukey, hrank⟩
    have huv : u = v := eq_of_mem_arrange_of_key_eq (mem_arrange.mpr hu) hv (hukey.trans hkey)
    rw [<- huv]
    apply Severity.rank_injective
    rw [herror] at hrank
    exact Nat.le_zero.mp hrank

theorem pairwise_precedes_arrange (findings : List Violation) :
    (arrange findings).Pairwise Precedes := by
  have hle := Sorting.ascending_sortBy reportOrder (distinct findings)
  have hkeys := nodup_key_arrange findings
  rw [List.Nodup, List.pairwise_map] at hkeys
  refine (List.pairwise_and_iff.mpr ⟨hle, hkeys⟩).imp ?_
  intro v w h
  apply reportOrder_eq_lt_iff.mp
  cases hcmp : reportOrder v w with
  | lt => rfl
  | eq => exact absurd (congrArg key (Std.LawfulEqCmp.eq_of_compare hcmp)) h.right
  | gt =>
      rw [hcmp] at h
      cases h.left

/-!
## Counts and verdict
-/

theorem countOf_eq_length_filter (severity : Severity) (findings : List Violation) :
    countOf severity findings =
      (findings.filter (fun v => decide (v.severity = severity))).length :=
  List.countP_eq_length_filter

theorem countOf_add (findings : List Violation) :
    countOf .error findings + countOf .warning findings = findings.length := by
  induction findings with
  | nil => rfl
  | cons v rest ih =>
      cases hv : v.severity <;> simp [countOf, hv] at ih ⊢ <;> omega

theorem countOf_error_arrange_eq_zero_iff (findings : List Violation) :
    countOf .error (arrange findings) = 0 <-> forall w, w ∈ findings -> w.severity ≠ .error := by
  simp only [countOf, List.countP_eq_zero, decide_eq_true_eq]
  constructor
  · intro h w hw herror
    have hk : w.key ∈ (arrange findings).map key :=
      (mem_keys_arrange findings w.key).mpr (List.mem_map_of_mem hw)
    rcases List.mem_map.mp hk with ⟨v, hv, hkey⟩
    exact h v hv ((severity_eq_error_iff_of_mem_arrange hv).mpr ⟨w, hw, hkey.symm, herror⟩)
  · intro h v hv herror
    rcases (severity_eq_error_iff_of_mem_arrange hv).mp herror with ⟨w, hw, _, hwerror⟩
    exact h w hw hwerror

theorem arrange_eq_nil_iff (findings : List Violation) :
    arrange findings = [] <-> findings = [] := by
  have h := mem_keys_arrange findings
  constructor
  · intro hnil
    rw [hnil] at h
    cases findings with
    | nil => rfl
    | cons w rest => exact absurd ((h w.key).mpr (by simp)) (by simp)
  · intro hnil
    rw [hnil] at h ⊢
    cases harranged : arrange [] with
    | nil => rfl
    | cons v rest => exact absurd ((h v.key).mp (by simp [harranged])) (by simp)

theorem isValid_render_lenient (findings : List Violation) :
    (render findings .lenient).isValid = true <->
      forall w, w ∈ findings -> w.severity ≠ .error := by
  rw [<- countOf_error_arrange_eq_zero_iff]
  simp [render, verdict]

theorem isValid_render_lenient_congr {findings findings' : List Violation}
    (hcount : (render findings .lenient).errorCount = (render findings' .lenient).errorCount) :
    (render findings .lenient).isValid = (render findings' .lenient).isValid := by
  show verdict .lenient (render findings .lenient).errorCount _ =
    verdict .lenient (render findings' .lenient).errorCount _
  unfold verdict
  rw [hcount, beq_self_eq_true, Bool.true_or, Bool.true_or]

theorem isValid_render_strict (findings : List Violation) :
    (render findings .strict).isValid = true <-> findings = [] := by
  rw [<- arrange_eq_nil_iff, <- List.length_eq_zero_iff, <- countOf_add]
  simp [render, verdict]

theorem renders_render (findings : List Violation) (mode : Mode) :
    Renders findings mode (render findings mode) where
  mode_eq := rfl
  isNormal _ hv := isNormal_of_mem_arrange hv
  mem_keys := mem_keys_arrange findings
  nodup_keys := nodup_key_arrange findings
  severity_eq_error_iff _ hv := severity_eq_error_iff_of_mem_arrange hv
  pairwise_precedes := pairwise_precedes_arrange findings
  errorCount_eq := countOf_eq_length_filter .error (arrange findings)
  warningCount_eq := countOf_eq_length_filter .warning (arrange findings)
  count_add := countOf_add (arrange findings)
  isValid_lenient h := by
    rw [h]
    exact isValid_render_lenient findings
  isValid_strict h := by
    rw [h]
    exact isValid_render_strict findings

/-!
## Nothing else is the report of these findings
-/

theorem Renders.mem_violations {findings : List Violation} {mode mode' : Mode} {r r' : Report}
    (h : Renders findings mode r) (h' : Renders findings mode' r') {v : Violation}
    (hv : v ∈ r.violations) : v ∈ r'.violations := by
  have hk : v.key ∈ r'.violations.map key :=
    (h'.mem_keys v.key).mpr ((h.mem_keys v.key).mp (List.mem_map_of_mem hv))
  rcases List.mem_map.mp hk with ⟨w, hw, hkey⟩
  have herror : w.severity = .error <-> v.severity = .error := by
    rw [h'.severity_eq_error_iff w hw, h.severity_eq_error_iff v hv, hkey]
  have hseverity : w.severity = v.severity := by
    cases hws : w.severity <;> cases hvs : v.severity <;> simp_all
  rw [<- eq_of_key_eq (h'.isNormal w hw) (h.isNormal v hv) hkey hseverity]
  exact hw

theorem Renders.violations_eq {findings : List Violation} {mode mode' : Mode} {r r' : Report}
    (h : Renders findings mode r) (h' : Renders findings mode' r') :
    r.violations = r'.violations :=
  Runs.eq_of_mem_iff_of_pairwise (fun _ _ => Precedes.asymm) h.pairwise_precedes
    h'.pairwise_precedes (fun _ => ⟨h.mem_violations h', h'.mem_violations h⟩)

theorem Renders.isValid_eq {findings : List Violation} {mode : Mode} {r r' : Report}
    (h : Renders findings mode r) (h' : Renders findings mode r') : r.isValid = r'.isValid := by
  rw [Bool.eq_iff_iff]
  cases mode with
  | lenient => rw [h.isValid_lenient rfl, h'.isValid_lenient rfl]
  | strict => rw [h.isValid_strict rfl, h'.isValid_strict rfl]

theorem Renders.eq {findings : List Violation} {mode : Mode} {r r' : Report}
    (h : Renders findings mode r) (h' : Renders findings mode r') : r = r' := by
  have hviolations := h.violations_eq h'
  have herrors : r.errorCount = r'.errorCount := by
    rw [h.errorCount_eq, h'.errorCount_eq, hviolations]
  have hwarnings : r.warningCount = r'.warningCount := by
    rw [h.warningCount_eq, h'.warningCount_eq, hviolations]
  have hmode : r.mode = r'.mode := h.mode_eq.trans h'.mode_eq.symm
  have hvalid := h.isValid_eq h'
  cases r with
  | mk valid mode violations errors warnings =>
      cases r' with
      | mk valid' mode' violations' errors' warnings' => simp_all

/-- The report of a list of findings is the one that says what was found, and its findings do
not depend on the mode. -/
theorem renders_iff_eq_render (findings : List Violation) (mode : Mode) :
    (forall r, Renders findings mode r <-> r = render findings mode) ∧
      forall mode', (render findings mode').violations = (render findings mode).violations := by
  constructor
  · intro r
    constructor
    · intro h
      exact h.eq (renders_render findings mode)
    · intro h
      rw [h]
      exact renders_render findings mode
  · intro mode'
    exact (renders_render findings mode').violations_eq (renders_render findings mode)

end Report
end FeatureModel
