import FeatureModel.Proofs.Report.Postcondition

/-!
# Which findings a report holds

A normal finding stands in a report when its defect was found at its severity and
never more severely.  So a report depends only on which findings there are, it can
be read rule by rule, and findings that share no defect and come in report order
may be reported block by block.
-/

namespace FeatureModel
namespace Report

open Violation

theorem mem_arrange_iff {findings : List Violation} {v : Violation} :
    v ∈ arrange findings <->
      v.IsNormal ∧ (exists w, w ∈ findings ∧ w.key = v.key ∧ w.severity = v.severity) ∧
        forall w, w ∈ findings -> w.key = v.key -> v.severity.rank ≤ w.severity.rank := by
  constructor
  · intro hv
    refine ⟨isNormal_of_mem_arrange hv, ?_, ?_⟩
    · rcases exists_of_mem_distinct (mem_arrange.mp hv) with ⟨w, hw, heq⟩
      rw [heq]
      exact ⟨w, hw, (key_normalize w).symm, rfl⟩
    · intro w hw hkey
      rcases exists_mem_distinct hw with ⟨u, hu, hukey, hrank⟩
      have huv : u = v := eq_of_mem_arrange_of_key_eq (mem_arrange.mpr hu) hv (hukey.trans hkey)
      rw [<- huv]
      exact hrank
  · intro h
    rcases h with ⟨hnormal, ⟨w, hw, hkey, hseverity⟩, hleast⟩
    rcases exists_mem_distinct hw with ⟨u, hu, hukey, hrank⟩
    rcases exists_of_mem_distinct hu with ⟨t, ht, hut⟩
    have htkey : t.key = v.key := by
      rw [<- key_normalize t, <- hut, hukey, hkey]
    have hsame : u.severity = v.severity := by
      apply Severity.rank_injective
      have hle := hleast t ht htkey
      rw [<- severity_normalize t, <- hut] at hle
      rw [hseverity] at hrank
      exact Nat.le_antisymm hrank hle
    have huv : u = v :=
      eq_of_key_eq (isNormal_of_mem_distinct hu) hnormal (hukey.trans hkey) hsame
    rw [<- huv]
    exact mem_arrange.mpr hu

theorem arrange_eq_of_mem_iff {xs ys : List Violation}
    (h : forall v, v ∈ arrange xs <-> v ∈ ys) (hys : ys.Pairwise Precedes) :
    arrange xs = ys :=
  Runs.eq_of_mem_iff_of_pairwise (fun _ _ => Precedes.asymm) (pairwise_precedes_arrange xs) hys h

theorem arrange_congr {xs ys : List Violation} (h : forall v, v ∈ xs <-> v ∈ ys) :
    arrange xs = arrange ys := by
  refine arrange_eq_of_mem_iff ?_ (pairwise_precedes_arrange ys)
  intro v
  rw [mem_arrange_iff, mem_arrange_iff]
  simp only [h]

theorem render_congr {xs ys : List Violation} (h : forall v, v ∈ xs <-> v ∈ ys) (mode : Mode) :
    render xs mode = render ys mode := by
  unfold render
  rw [arrange_congr h]

theorem filter_ruleId_arrange (findings : List Violation) (id : String) :
    (arrange findings).filter (fun v => decide (v.ruleId = id)) =
      arrange (findings.filter (fun v => decide (v.ruleId = id))) := by
  symm
  refine arrange_eq_of_mem_iff ?_ ((pairwise_precedes_arrange findings).filter _)
  intro v
  have hrule : forall {w : Violation}, w.key = v.key -> w.ruleId = v.ruleId :=
    fun hkey => congrArg DefectKey.ruleId hkey
  simp only [List.mem_filter, decide_eq_true_eq, mem_arrange_iff]
  constructor
  · intro h
    rcases h with ⟨hnormal, ⟨w, hw, hkey, hseverity⟩, hleast⟩
    have hid : v.ruleId = id := (hrule hkey).symm.trans hw.right
    refine ⟨⟨hnormal, ⟨w, hw.left, hkey, hseverity⟩, ?_⟩, hid⟩
    intro u hu hukey
    exact hleast u ⟨hu, (hrule hukey).trans hid⟩ hukey
  · intro h
    rcases h with ⟨⟨hnormal, ⟨w, hw, hkey, hseverity⟩, hleast⟩, hid⟩
    refine ⟨hnormal, ⟨w, ⟨hw, (hrule hkey).trans hid⟩, hkey, hseverity⟩, ?_⟩
    intro u hu hukey
    exact hleast u hu.left hukey

theorem mem_arrange_iff_mem {findings : List Violation} {severity : Severity}
    (hnormal : forall w, w ∈ findings -> w.IsNormal)
    (hseverity : forall w, w ∈ findings -> w.severity = severity) {v : Violation} :
    v ∈ arrange findings <-> v ∈ findings := by
  rw [mem_arrange_iff]
  constructor
  · intro h
    rcases h with ⟨hv, ⟨w, hw, hkey, hsame⟩, _⟩
    rw [<- eq_of_key_eq (hnormal w hw) hv hkey hsame]
    exact hw
  · intro hv
    refine ⟨hnormal v hv, ⟨v, hv, rfl, rfl⟩, ?_⟩
    intro w hw _
    rw [hseverity v hv, hseverity w hw]

/-!
## Reports block by block
-/

section Blocks

variable {β : Type} {f : β -> List Violation} {blocks : List β}

theorem mem_arrange_flatMap_iff
    (hkeys : forall a b, a ∈ blocks -> b ∈ blocks -> forall v w, v ∈ f a -> w ∈ f b ->
      v.key = w.key -> a = b) {v : Violation} :
    v ∈ arrange (blocks.flatMap f) <-> exists b, b ∈ blocks ∧ v ∈ arrange (f b) := by
  simp only [mem_arrange_iff, List.mem_flatMap]
  constructor
  · intro h
    rcases h with ⟨hnormal, ⟨w, ⟨b, hb, hw⟩, hkey, hseverity⟩, hleast⟩
    refine ⟨b, hb, hnormal, ⟨w, hw, hkey, hseverity⟩, ?_⟩
    intro u hu hukey
    exact hleast u ⟨b, hb, hu⟩ hukey
  · intro h
    rcases h with ⟨b, hb, hnormal, ⟨w, hw, hkey, hseverity⟩, hleast⟩
    refine ⟨hnormal, ⟨w, ⟨b, hb, hw⟩, hkey, hseverity⟩, ?_⟩
    intro u hu hukey
    rcases hu with ⟨a, ha, hu⟩
    have hab : a = b := hkeys a b ha hb u w hu hw (hukey.trans hkey.symm)
    rw [hab] at hu
    exact hleast u hu hukey

/-- Blocks of findings that share no defect and come in report order are reported one after
another. -/
theorem arrange_flatMap
    (hkeys : forall a b, a ∈ blocks -> b ∈ blocks -> forall v w, v ∈ f a -> w ∈ f b ->
      v.key = w.key -> a = b)
    (hordered : blocks.Pairwise (fun a b =>
      forall v, v ∈ arrange (f a) -> forall w, w ∈ arrange (f b) -> v.Precedes w)) :
    arrange (blocks.flatMap f) = blocks.flatMap (fun b => arrange (f b)) := by
  refine arrange_eq_of_mem_iff ?_ ?_
  · intro v
    rw [mem_arrange_flatMap_iff hkeys, List.mem_flatMap]
  · rw [List.pairwise_flatMap]
    exact ⟨fun b _ => pairwise_precedes_arrange (f b), hordered⟩

end Blocks

end Report
end FeatureModel
