import FeatureModel.Proofs.Graph.Views
import FeatureModel.Proofs.Record.ByGuid
import Mathlib.Data.List.Nodup
import Mathlib.Tactic.MkIffOfInductiveProp

/-!
# Records that have a graph

Whether records have a graph depends on what the records of each guid declare
together: no link twice, none to the guid itself, and none to a guid that no
record has.  It does not matter which of the records declares which link.
-/

namespace FeatureModel

/-- What is asked of the links that the records of a guid declare together. -/
@[mk_iff]
structure SoundLinks (records : List Record) (guid : Guid) : Prop where
  nodup : (linksOf records guid).Nodup
  target_ne : forall link, link ∈ linksOf records guid -> link.target ≠ guid
  target_declared : forall link, link ∈ linksOf records guid ->
    exists q, q ∈ records ∧ q.guid = link.target

variable {records : List Record} {guid : Guid}

theorem nodup_linksOf_iff :
    (linksOf records guid).Nodup <->
      forall i m r j n q link, LinkAt records i m r link -> LinkAt records j n q link ->
        r.guid = guid -> q.guid = guid -> ¬ (Spot.link i m).Before (.link j n) := by
  unfold linksOf recordsOf List.Nodup
  rw [List.pairwise_flatMap, List.pairwise_filter]
  simp only [List.mem_filter, decide_eq_true_eq]
  constructor
  · intro h i m r j n q link hr hq hrguid hqguid hbefore
    rcases List.getElem?_eq_some_iff.mp hr.left with ⟨hi, hri⟩
    rcases List.getElem?_eq_some_iff.mp hq.left with ⟨hj, hqj⟩
    rcases hbefore with hij | ⟨hij, hmn⟩
    · have hacross := List.pairwise_iff_getElem.mp h.right i j hi hj hij
      rw [hri, hqj] at hacross
      exact hacross hrguid hqguid link (List.mem_of_getElem? hr.right) link
        (List.mem_of_getElem? hq.right) rfl
    · have hsame : r = q := by
        rw [<- hri, <- hqj]
        simp only [hij]
      rcases List.getElem?_eq_some_iff.mp hr.right with ⟨hm, hrm⟩
      rw [<- hsame] at hq
      rcases List.getElem?_eq_some_iff.mp hq.right with ⟨hn, hqn⟩
      have hwithin := h.left r ⟨List.mem_of_getElem? hr.left, hrguid⟩
      exact List.pairwise_iff_getElem.mp hwithin m n hm hn hmn (hrm.trans hqn.symm)
  · intro hnone
    constructor
    · intro r hr
      rcases List.mem_iff_getElem?.mp hr.left with ⟨i, hi⟩
      rw [List.pairwise_iff_getElem]
      intro m n hm hn hmn heq
      exact hnone i m r i n r r.links[m] ⟨hi, List.getElem?_eq_getElem hm⟩
        ⟨hi, heq ▸ List.getElem?_eq_getElem hn⟩ hr.right hr.right (Or.inr ⟨rfl, hmn⟩)
    · rw [List.pairwise_iff_getElem]
      intro i j hi hj hij hrguid hqguid x hx y hy heq
      rcases List.mem_iff_getElem?.mp hx with ⟨m, hm⟩
      rcases List.mem_iff_getElem?.mp hy with ⟨n, hn⟩
      rw [<- heq] at hn
      exact hnone i m records[i] j n records[j] x ⟨List.getElem?_eq_getElem hi, hm⟩
        ⟨List.getElem?_eq_getElem hj, hn⟩ hrguid hqguid (Or.inl hij)

theorem IsFirst.position_le {i j : Nat} {r q : Record} (h : IsFirst records guid i r)
    (hq : records[j]? = some q) (hguid : q.guid = guid) : i ≤ j := by
  apply Nat.le_of_not_lt
  intro hj
  exact h.guid_ne j q hj hq hguid

theorem nodup_guids_iff :
    (records.map (fun r => r.guid)).Nodup <->
      forall (i j : Nat) (r q : Record), records[i]? = some r -> records[j]? = some q -> i < j ->
        r.guid ≠ q.guid := by
  rw [List.Nodup, List.pairwise_map, List.pairwise_iff_getElem]
  constructor
  · intro h i j r q hr hq hij
    rcases List.getElem?_eq_some_iff.mp hr with ⟨hi, hri⟩
    rcases List.getElem?_eq_some_iff.mp hq with ⟨hj, hqj⟩
    rw [<- hri, <- hqj]
    exact h i j hi hj hij
  · intro h i j hi hj hij
    exact h i j _ _ (List.getElem?_eq_getElem hi) (List.getElem?_eq_getElem hj) hij

namespace Graph

theorem soundLinks_of_build {tolerate : Bool} {g : Graph} (h : build records tolerate = .ok g)
    (guid : Guid) : SoundLinks records guid where
  nodup := by
    rw [nodup_linksOf_iff]
    intro i m r j n q link hr hq hrguid hqguid hbefore
    rcases link_target_of_build h hq with ⟨hother, hdeclared⟩
    exact not_faultAt_of_build h _ _ (FaultAt.duplicateRelationshipKind hq hother hdeclared hbefore
      hr (hrguid.trans hqguid.symm) rfl rfl)
  target_ne link hlink :=
    Ne.symm (ends_of_declares h (declares_iff_mem_linksOf.mpr hlink)).left
  target_declared link hlink :=
    (ends_of_declares h (declares_iff_mem_linksOf.mpr hlink)).right.right

theorem nodup_guids_of_build {g : Graph} (h : build records false = .ok g) :
    (records.map (fun r => r.guid)).Nodup := by
  rw [nodup_guids_iff]
  intro i j r q hr hq hij hguid
  rcases exists_isFirst ⟨r, List.mem_of_getElem? hr, hguid⟩ with ⟨k, first, hfirst⟩
  have hkj : k < j := Nat.lt_of_le_of_lt (hfirst.position_le hr hguid) hij
  exact not_faultAt_of_build h _ _ (FaultAt.duplicateGuid hq rfl hfirst hkj)

theorem build_isOk_iff_soundLinks {tolerate : Bool} :
    (exists g, build records tolerate = .ok g) <->
      (tolerate = false -> (records.map (fun r => r.guid)).Nodup) ∧
        forall guid, SoundLinks records guid := by
  constructor
  · intro h
    rcases h with ⟨g, hg⟩
    refine ⟨?_, soundLinks_of_build hg⟩
    intro htolerate
    rw [htolerate] at hg
    exact nodup_guids_of_build hg
  · intro h
    rw [build_isOk_iff]
    intro spot fault hfault
    have hmem : forall {i number r link}, LinkAt records i number r link ->
        link ∈ linksOf records r.guid := by
      intro i number r link hlink
      exact declares_iff_mem_linksOf.mp
        ⟨r, List.mem_of_getElem? hlink.left, rfl, List.mem_of_getElem? hlink.right⟩
    cases hfault with
    | duplicateGuid hrecord htolerate hfirst hearlier =>
        exact nodup_guids_iff.mp (h.left htolerate) _ _ _ _ hfirst.getElem?_eq hrecord hearlier
          hfirst.guid_eq
    | selfRelationship hlink hself =>
        exact (h.right _).target_ne _ (hmem hlink) hself
    | danglingReference hlink _ hunknown =>
        rcases (h.right _).target_declared _ (hmem hlink) with ⟨q, hq, hguid⟩
        exact hunknown q hq hguid
    | @duplicateRelationshipKind i number j m r q link same hlink hother hknown hearlier hsame hguid
        htarget hkind =>
        have heq : same = link := by
          cases same
          cases link
          simp_all
        rw [heq] at hsame
        exact nodup_linksOf_iff.mp (h.right r.guid).nodup j m q i number r link hsame hlink hguid
          rfl hearlier

end Graph
end FeatureModel
