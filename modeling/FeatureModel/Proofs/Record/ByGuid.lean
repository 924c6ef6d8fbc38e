import FeatureModel.Proofs.Graph.Entry
import FeatureModel.Proofs.Runs

/-!
# Records of one guid

Several records may have the same guid.  Together they declare the links of that
guid, in declaration order, and the first of them stands for the guid where only
one record can.
-/

namespace FeatureModel

def recordsOf (records : List Record) (guid : Guid) : List Record :=
  records.filter (fun r => decide (r.guid = guid))

/-- The links that the records of a guid declare, in declaration order. -/
def linksOf (records : List Record) (guid : Guid) : List Link :=
  (recordsOf records guid).flatMap (fun r => r.links)

def firstOf? (records : List Record) (guid : Guid) : Option Record :=
  records.find? (fun r => decide (r.guid = guid))

variable {records : List Record} {guid : Guid}

theorem mem_recordsOf {r : Record} : r ∈ recordsOf records guid <-> r ∈ records ∧ r.guid = guid := by
  simp [recordsOf]

theorem declares_iff_mem_linksOf {link : Link} :
    Declares records guid link <-> link ∈ linksOf records guid := by
  unfold Declares linksOf
  simp only [List.mem_flatMap, mem_recordsOf, and_assoc]

theorem recordsOf_eq_singleton (hnodup : (records.map (fun r => r.guid)).Nodup) {r : Record}
    (hr : r ∈ records) : recordsOf records r.guid = [r] :=
  Runs.filter_eq_singleton hnodup hr (fun _ => decide_eq_true_iff)

theorem linksOf_eq_links (hnodup : (records.map (fun r => r.guid)).Nodup) {r : Record}
    (hr : r ∈ records) : linksOf records r.guid = r.links := by
  unfold linksOf
  rw [recordsOf_eq_singleton hnodup hr, List.flatMap_singleton]

theorem firstOf?_eq_some_iff {r : Record} :
    firstOf? records guid = some r <-> exists i, IsFirst records guid i r := by
  unfold firstOf?
  rw [List.find?_eq_some_iff_getElem]
  simp only [decide_eq_true_eq, Bool.not_eq_true', decide_eq_false_iff_not]
  constructor
  · intro h
    rcases h with ⟨hguid, i, hi, hget, hbefore⟩
    refine ⟨i, List.getElem?_eq_some_iff.mpr ⟨hi, hget⟩, hguid, ?_⟩
    intro j q hj hq
    rcases List.getElem?_eq_some_iff.mp hq with ⟨_, hqget⟩
    rw [<- hqget]
    exact hbefore j hj
  · intro h
    rcases h with ⟨i, hfirst⟩
    rcases List.getElem?_eq_some_iff.mp hfirst.getElem?_eq with ⟨hi, hget⟩
    refine ⟨hfirst.guid_eq, i, hi, hget, ?_⟩
    intro j hj
    exact hfirst.guid_ne j records[j] hj (List.getElem?_eq_getElem (Nat.lt_trans hj hi))

theorem firstOf?_eq_none_iff :
    firstOf? records guid = none <-> forall r, r ∈ records -> r.guid ≠ guid := by
  simp [firstOf?]

end FeatureModel
