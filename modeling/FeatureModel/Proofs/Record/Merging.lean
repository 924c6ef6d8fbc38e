import FeatureModel.Proofs.Record.ByGuid

/-!
# One record for each guid

Merging makes one record of all that have a guid.  It stands in the place of the
first of them and says of the guid what they say together.
-/

namespace FeatureModel

def firstRecords : List Record -> List Record
  | [] => []
  | r :: rest => r :: (firstRecords rest).filter (fun q => decide (q.guid ≠ r.guid))

/-- A record that is mandatory if any record of its guid is, and declares the links of all of
them. -/
def mergedInto (records : List Record) (r : Record) : Record :=
  { r with
    mandatory := (recordsOf records r.guid).any (fun q => q.mandatory)
    links := linksOf records r.guid }

/-- One record for each guid, in order of first appearance. -/
def mergeRecords (records : List Record) : List Record :=
  (firstRecords records).map (mergedInto records)

variable {guid : Guid}

theorem recordsOf_firstRecords (records : List Record) (guid : Guid) :
    recordsOf (firstRecords records) guid = (firstOf? records guid).toList := by
  induction records with
  | nil => rfl
  | cons r rest ih =>
      unfold firstRecords recordsOf firstOf?
      rw [List.filter_cons, List.find?_cons, List.filter_filter]
      by_cases hguid : r.guid = guid
      · have hnone : (firstRecords rest).filter
            (fun q => decide (q.guid = guid) && decide (q.guid ≠ r.guid)) = [] := by
          rw [List.filter_eq_nil_iff]
          intro q _
          simp [hguid]
        simp only [hguid, decide_true, if_true]
        rw [<- hguid] at hnone ⊢
        rw [hnone]
        rfl
      · have hsame : (firstRecords rest).filter
            (fun q => decide (q.guid = guid) && decide (q.guid ≠ r.guid)) =
              recordsOf (firstRecords rest) guid := by
          apply List.filter_congr
          intro q _
          by_cases hq : q.guid = guid
          · simp [hq, Ne.symm hguid]
          · simp [hq]
        rw [hsame, ih]
        simp [hguid, firstOf?]

theorem pairwise_guid_ne_firstRecords (records : List Record) :
    (firstRecords records).Pairwise (fun r q => r.guid ≠ q.guid) := by
  induction records with
  | nil => exact List.Pairwise.nil
  | cons r rest ih =>
      unfold firstRecords
      apply List.pairwise_cons.mpr
      constructor
      · intro q hq
        exact Ne.symm (of_decide_eq_true (List.mem_filter.mp hq).right)
      · exact ih.filter _

theorem recordsOf_mergeRecords (records : List Record) (guid : Guid) :
    recordsOf (mergeRecords records) guid =
      ((firstOf? records guid).map (mergedInto records)).toList := by
  have hfilter : recordsOf (mergeRecords records) guid =
      (recordsOf (firstRecords records) guid).map (mergedInto records) := by
    unfold mergeRecords recordsOf
    rw [List.filter_map]
    rfl
  rw [hfilter, recordsOf_firstRecords]
  cases firstOf? records guid <;> rfl

theorem nodup_guids_mergeRecords (records : List Record) :
    ((mergeRecords records).map (fun r => r.guid)).Nodup := by
  unfold mergeRecords
  rw [List.map_map, List.Nodup, List.pairwise_map]
  exact pairwise_guid_ne_firstRecords records

theorem firstOf?_mergeRecords (records : List Record) (guid : Guid) :
    firstOf? (mergeRecords records) guid = (firstOf? records guid).map (mergedInto records) := by
  have hhead : firstOf? (mergeRecords records) guid =
      (recordsOf (mergeRecords records) guid).head? := List.head?_filter.symm
  rw [hhead, recordsOf_mergeRecords]
  cases firstOf? records guid <;> rfl

theorem recordsOf_eq_nil_of_firstOf?_eq_none {records : List Record}
    (h : firstOf? records guid = none) : recordsOf records guid = [] := by
  rw [List.eq_nil_iff_forall_not_mem]
  intro r hr
  exact firstOf?_eq_none_iff.mp h r (mem_recordsOf.mp hr).left (mem_recordsOf.mp hr).right

theorem guid_eq_of_firstOf? {records : List Record} {r : Record}
    (h : firstOf? records guid = some r) : r.guid = guid := by
  rcases firstOf?_eq_some_iff.mp h with ⟨_, hfirst⟩
  exact hfirst.guid_eq

theorem linksOf_mergeRecords (records : List Record) (guid : Guid) :
    linksOf (mergeRecords records) guid = linksOf records guid := by
  unfold linksOf
  rw [recordsOf_mergeRecords]
  cases hfirst : firstOf? records guid with
  | none =>
      rw [recordsOf_eq_nil_of_firstOf?_eq_none hfirst]
      rfl
  | some r =>
      show linksOf records r.guid ++ [] = linksOf records guid
      rw [List.append_nil, guid_eq_of_firstOf? hfirst]

theorem exists_mergeRecords_iff {records : List Record} :
    (exists q, q ∈ mergeRecords records ∧ q.guid = guid) <->
      exists q, q ∈ records ∧ q.guid = guid := by
  have hdeclared : forall {rs : List Record},
      (exists q, q ∈ rs ∧ q.guid = guid) <-> firstOf? rs guid ≠ none := by
    intro rs
    rw [ne_eq, firstOf?_eq_none_iff]
    simp
  rw [hdeclared, hdeclared, firstOf?_mergeRecords, ne_eq, ne_eq, Option.map_eq_none_iff]

theorem declares_mergeRecords_iff {records : List Record} {link : Link} :
    Declares (mergeRecords records) guid link <-> Declares records guid link := by
  rw [declares_iff_mem_linksOf, declares_iff_mem_linksOf, linksOf_mergeRecords]

end FeatureModel
