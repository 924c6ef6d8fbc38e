import FeatureModel.Proofs.Runs
import FeatureModel.Proofs.Text.ByteOrder
import FeatureModel.Violation
import Mathlib.Data.Finset.Dedup

/-!
# What findings are about, and their order

Findings of one defect share a key: the rule, the set of guids and the message.
On normal findings, which spell a set of guids in one way only, the key says no
more and no less than the written fields.
-/

namespace FeatureModel

/-- What a finding is about, however its guids are spelled. -/
structure DefectKey where
  ruleId : String
  guids : Finset Guid
  message : String
deriving DecidableEq

namespace Violation

def key (v : Violation) : DefectKey where
  ruleId := v.ruleId
  guids := v.guids.toFinset
  message := v.message

/-- The fields on which findings of one defect agree as they are written. -/
def writtenKey (v : Violation) : String × List Guid × String :=
  (v.ruleId, v.guids, v.message)

/-- A finding whose guids are spelled as a set. -/
def IsNormal (v : Violation) : Prop :=
  v.guids.Pairwise (fun a b => a < b)

theorem isNormal_normalize (v : Violation) : v.normalize.IsNormal :=
  Runs.pairwise_lt_ascending v.guids

@[simp] theorem key_normalize (v : Violation) : v.normalize.key = v.key := by
  have hguids : (Runs.ascending v.guids).toFinset = v.guids.toFinset := by
    apply List.toFinset.ext
    intro guid
    exact Runs.mem_ascending
  simp only [key, normalize, hguids]

@[simp] theorem severity_normalize (v : Violation) : v.normalize.severity = v.severity :=
  rfl

theorem guids_eq_of_toFinset_eq {xs ys : List Guid}
    (hxs : xs.Pairwise (fun a b => a < b)) (hys : ys.Pairwise (fun a b => a < b))
    (h : xs.toFinset = ys.toFinset) :
    xs = ys := by
  exact Runs.eq_of_mem_iff_of_pairwise (fun _ _ => Int.lt_asymm) hxs hys
    (List.toFinset.ext_iff.mp h)

theorem writtenKey_eq_iff_key_eq {v w : Violation} (hv : v.IsNormal) (hw : w.IsNormal) :
    v.writtenKey = w.writtenKey <-> v.key = w.key := by
  simp only [writtenKey, key, Prod.mk.injEq, DefectKey.mk.injEq]
  constructor
  · intro h
    exact ⟨h.left, by rw [h.right.left], h.right.right⟩
  · intro h
    exact ⟨h.left, guids_eq_of_toFinset_eq hv hw h.right.left, h.right.right⟩

theorem eq_of_key_eq {v w : Violation} (hv : v.IsNormal) (hw : w.IsNormal)
    (hkey : v.key = w.key) (hseverity : v.severity = w.severity) : v = w := by
  have hwritten := (writtenKey_eq_iff_key_eq hv hw).mpr hkey
  simp only [writtenKey, Prod.mk.injEq] at hwritten
  cases v with
  | mk r s g m =>
      cases w with
      | mk r' s' g' m' => simp_all

/-!
## Grouping by defect
-/

theorem tells_sameDefect : Runs.Tells sameDefect writtenKey := by
  intro v w
  simp [sameDefect, writtenKey]

def writtenOrder (v w : Violation) : Ordering :=
  (compare v.ruleId w.ruleId).then <|
  (compare v.guids w.guids).then <|
  compare v.message w.message

instance instTransCmpWrittenOrder : Std.TransCmp writtenOrder :=
  inferInstanceAs (Std.TransCmp (compareLex (compareOn ruleId)
    (compareLex (compareOn guids) (compareOn message))))

theorem writtenOrder_eq_iff {v w : Violation} :
    writtenOrder v w = .eq <-> v.writtenKey = w.writtenKey := by
  simp [writtenOrder, writtenKey, Ordering.then_eq_eq, Std.LawfulEqCmp.compare_eq_iff_eq]

theorem defectOrder_eq_then (v w : Violation) :
    defectOrder v w = (writtenOrder v w).then (compare v.severity.rank w.severity.rank) := by
  simp only [defectOrder, writtenOrder, Ordering.then_assoc]

theorem isLE_writtenOrder {v w : Violation} (h : (defectOrder v w).isLE = true) :
    (writtenOrder v w).isLE = true := by
  rw [defectOrder_eq_then] at h
  cases hw : writtenOrder v w <;> simp [hw] at h ⊢

theorem rank_le_of_isLE_defectOrder {v w : Violation} (h : (defectOrder v w).isLE = true)
    (hkey : v.writtenKey = w.writtenKey) : v.severity.rank ≤ w.severity.rank := by
  rw [defectOrder_eq_then, writtenOrder_eq_iff.mpr hkey] at h
  simpa [Nat.isLE_compare] using h

theorem keepsTogether_defectOrder :
    Runs.KeepsTogether (fun v w => (defectOrder v w).isLE = true) writtenKey := by
  intro u v w huv hvw huw
  have hle := isLE_writtenOrder huv
  have hge : (writtenOrder v u).isLE = true := by
    have h := isLE_writtenOrder hvw
    have heq : writtenOrder w u = .eq := writtenOrder_eq_iff.mpr huw.symm
    exact Std.TransCmp.isLE_trans h (by simp [heq])
  exact (writtenOrder_eq_iff.mp (Std.OrientedCmp.isLE_antisymm hle hge)).symm

/-!
## The order of a report
-/

/-- Whether a finding stands before another in a report: errors first, then by the bytes of the
rule, by the guids, a shorter list before its extensions, and by the bytes of the message. -/
def Precedes (v w : Violation) : Prop :=
  (v.severity = .error ∧ w.severity = .warning) ∨
    (v.severity = w.severity ∧
      (Text.bytes v.ruleId < Text.bytes w.ruleId ∨
        (v.ruleId = w.ruleId ∧
          (v.guids < w.guids ∨
            (v.guids = w.guids ∧ Text.bytes v.message < Text.bytes w.message)))))

theorem compare_guids_eq_lt {xs ys : List Guid} : compare xs ys = .lt <-> xs < ys := by
  induction xs generalizing ys with
  | nil =>
      cases ys with
      | nil => simp
      | cons y ys => simp
  | cons x xs ih =>
      cases ys with
      | nil => simp
      | cons y ys =>
          rw [List.compare_cons_cons, Ordering.then_eq_lt, List.cons_lt_cons_iff, ih,
            Int.compare_eq_lt, Std.LawfulEqCmp.compare_eq_iff_eq]

theorem compare_text_eq_lt {s t : String} :
    compare s t = .lt <-> Text.bytes s < Text.bytes t := by
  rw [Text.bytes_lt_iff]
  exact compareOfLessAndEq_eq_lt

theorem compare_rank_eq_lt {s t : Severity} :
    compare s.rank t.rank = .lt <-> s = .error ∧ t = .warning := by
  cases s <;> cases t <;> decide

theorem rank_eq_iff {s t : Severity} : s.rank = t.rank <-> s = t := by
  cases s <;> cases t <;> decide

theorem reportOrder_eq_lt_iff {v w : Violation} : reportOrder v w = .lt <-> v.Precedes w := by
  simp only [reportOrder, Precedes, Ordering.then_eq_lt, compare_rank_eq_lt,
    compare_guids_eq_lt, compare_text_eq_lt, Std.LawfulEqCmp.compare_eq_iff_eq, rank_eq_iff]

theorem Precedes.asymm {v w : Violation} (h : v.Precedes w) : ¬ w.Precedes v := by
  rw [<- reportOrder_eq_lt_iff] at *
  rw [Std.OrientedCmp.gt_iff_lt.mpr h]
  decide

end Violation
end FeatureModel
