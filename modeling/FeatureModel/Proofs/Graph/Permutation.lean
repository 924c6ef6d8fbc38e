import FeatureModel.Proofs.Graph.Acceptance
import FeatureModel.Proofs.Graph.TableOrder

/-!
# Records in another order

Records that repeat no guid have a graph in every order or in none.  The order shows in
the positions of the graph only: its table has the same edges, in the same order, and a
feature lists the numbers of the edges whose source is its guid.
-/

namespace FeatureModel

def Edge.unplaced (e : Edge) : Guid × Guid × RelationshipKind × Nat :=
  (e.source, e.target, e.kind, e.linkNumber)

def Feature.unplaced (f : Feature) : Attributes × List Nat :=
  (f.toAttributes, f.edges)

/-- Whether two graphs are the same up to the positions of their features. -/
structure Graph.SameUnplaced (g g' : Graph) : Prop where
  edges_eq : g.edges.toList.map Edge.unplaced = g'.edges.toList.map Edge.unplaced
  find?_eq : forall guid,
    (g.find? guid).map Feature.unplaced = (g'.find? guid).map Feature.unplaced
  kindsBetween_eq : forall a b, g.kindsBetween a b = g'.kindsBetween a b
  hasRelationship_eq : forall a b, g.hasRelationship a b = g'.hasRelationship a b

variable {records records' : List Record} {guid : Guid}

/-!
## What the order of records leaves alone
-/

theorem declares_iff_of_perm (hperm : records.Perm records') {link : Link} :
    Declares records guid link <-> Declares records' guid link := by
  unfold Declares
  simp only [hperm.mem_iff]

theorem linksOf_perm (hperm : records.Perm records') (guid : Guid) :
    (linksOf records guid).Perm (linksOf records' guid) :=
  (hperm.filter _).flatMap_right _

theorem soundLinks_iff_of_perm (hperm : records.Perm records') :
    SoundLinks records guid <-> SoundLinks records' guid := by
  have hlinks := linksOf_perm hperm guid
  simp only [soundLinks_iff, hlinks.nodup_iff, hlinks.mem_iff, hperm.mem_iff]

theorem firstOf?_eq_some_iff_mem (hnodup : (records.map (fun r => r.guid)).Nodup) {r : Record} :
    firstOf? records guid = some r <-> r ∈ records ∧ r.guid = guid := by
  constructor
  · intro hfirst
    rcases firstOf?_eq_some_iff.mp hfirst with ⟨i, hi⟩
    exact ⟨List.mem_of_getElem? hi.getElem?_eq, hi.guid_eq⟩
  · intro hr
    rcases Graph.exists_isFirst ⟨r, hr⟩ with ⟨i, q, hq⟩
    have hsame : q = r :=
      List.inj_on_of_nodup_map hnodup (List.mem_of_getElem? hq.getElem?_eq) hr.left
        (hq.guid_eq.trans hr.right.symm)
    rw [<- hsame]
    exact firstOf?_eq_some_iff.mpr ⟨i, hq⟩

theorem position_unique (hnodup : (records.map (fun r => r.guid)).Nodup) {i j : Nat}
    {r q : Record} (hr : records[i]? = some r) (hq : records[j]? = some q)
    (hguid : r.guid = q.guid) : i = j := by
  have hi : i < (records.map (fun r => r.guid)).length := by
    rw [List.length_map]
    exact (List.getElem?_eq_some_iff.mp hr).1
  apply (List.getElem?_inj hi hnodup).mp
  rw [List.getElem?_map, List.getElem?_map, hr, hq, Option.map_some, Option.map_some, hguid]

theorem firstOf?_of_perm (hperm : records.Perm records')
    (hnodup : (records.map (fun r => r.guid)).Nodup) (guid : Guid) :
    firstOf? records guid = firstOf? records' guid := by
  have hnodup' := (hperm.map (fun r => r.guid)).nodup_iff.mp hnodup
  apply Option.ext
  intro r
  rw [firstOf?_eq_some_iff_mem hnodup, firstOf?_eq_some_iff_mem hnodup', hperm.mem_iff]

namespace Graph

theorem build_isOk_iff_of_perm {tolerate : Bool} (hperm : records.Perm records') :
    (exists g, build records tolerate = .ok g) <-> exists g', build records' tolerate = .ok g' := by
  rw [build_isOk_iff_soundLinks, build_isOk_iff_soundLinks]
  simp only [soundLinks_iff_of_perm hperm, (hperm.map (fun r => r.guid)).nodup_iff]

/-!
## The table
-/

theorem mem_map_fst_byGuid {r : Record} :
    r ∈ (byGuid records).map Prod.fst <-> r ∈ records := by
  rw [((byGuid_perm records).map Prod.fst).mem_iff, List.zipIdx_map_fst]

theorem pairwise_guid_byGuid (hnodup : (records.map (fun r => r.guid)).Nodup) :
    ((byGuid records).map Prod.fst).Pairwise (fun r q => r.guid < q.guid) := by
  have hle : ((byGuid records).map Prod.fst).Pairwise (fun r q => r.guid ≤ q.guid) := by
    rw [List.pairwise_map]
    refine (pairwise_byGuid records).imp ?_
    intro a b hbefore
    rcases hbefore with hlt | ⟨heq, _⟩
    · exact Int.le_of_lt hlt
    · exact Int.le_of_eq heq
  have hne : ((byGuid records).map Prod.fst).Pairwise (fun r q => r.guid ≠ q.guid) := by
    have hperm := (byGuid_perm records).map Prod.fst
    rw [List.zipIdx_map_fst] at hperm
    rw [<- List.pairwise_map]
    exact (hperm.map (fun r => r.guid)).nodup_iff.mpr hnodup
  refine (List.pairwise_and_iff.mpr ⟨hle, hne⟩).imp ?_
  intro r q h
  exact Int.lt_iff_le_and_ne.mpr h

theorem map_fst_byGuid_of_perm (hperm : records.Perm records')
    (hnodup : (records.map (fun r => r.guid)).Nodup) :
    (byGuid records).map Prod.fst = (byGuid records').map Prod.fst := by
  have hnodup' := (hperm.map (fun r => r.guid)).nodup_iff.mp hnodup
  refine Runs.eq_of_mem_iff_of_pairwise (fun _ _ => Int.lt_asymm) (pairwise_guid_byGuid hnodup)
    (pairwise_guid_byGuid hnodup') ?_
  intro r
  rw [mem_map_fst_byGuid, mem_map_fst_byGuid, hperm.mem_iff]

def unplacedEdges (r : Record) : List (Guid × Guid × RelationshipKind × Nat) :=
  r.links.mapIdx (fun number link => (r.guid, link.target, link.kind, number))

theorem map_unplaced_tableOf (records : List Record) :
    (tableOf records).map Edge.unplaced =
      ((byGuid records).map Prod.fst).flatMap unplacedEdges := by
  unfold tableOf
  rw [List.map_flatMap, List.flatMap_map]
  apply List.flatMap_congr
  intro entry _
  apply List.ext_getElem?
  intro number
  unfold edgesIn unplacedEdges
  rw [List.getElem?_map, List.getElem?_mapIdx, List.getElem?_mapIdx, Option.map_map]
  rfl

/-!
## The edges of a feature
-/

theorem mem_findIdxs_source {table : List Edge} {n : Nat} :
    n ∈ (table.map Edge.source).findIdxs (fun source => decide (source = guid)) <->
      exists e, table[n]? = some e ∧ e.source = guid := by
  rw [List.mem_findIdxs_iff_exists_getElem_pos]
  constructor
  · intro h
    rcases h with ⟨hn, hsource⟩
    rw [List.length_map] at hn
    rw [List.getElem_map, decide_eq_true_eq] at hsource
    exact ⟨table[n], List.getElem?_eq_getElem hn, hsource⟩
  · intro h
    rcases h with ⟨e, he, hsource⟩
    rcases List.getElem?_eq_some_iff.mp he with ⟨hn, hget⟩
    refine ⟨by rwa [List.length_map], ?_⟩
    rw [List.getElem_map, hget, decide_eq_true_eq]
    exact hsource

/-- Without repeated guids a feature lists the numbers of the edges whose source is its guid. -/
theorem numbersIn_eq_findIdxs (hnodup : (records.map (fun r => r.guid)).Nodup) {i : Nat}
    {r : Record} (hr : records[i]? = some r) :
    numbersIn records i r =
      ((tableOf records).map Edge.source).findIdxs (fun source => decide (source = r.guid)) := by
  refine Runs.eq_of_mem_iff_of_pairwise (fun _ _ => Nat.lt_asymm) List.pairwise_lt_range'
    List.pairwise_findIdxs ?_
  intro n
  show n ∈ numbersIn records i r <-> _
  rw [mem_findIdxs_source]
  constructor
  · intro hn
    rcases List.mem_range'.mp hn with ⟨number, hnumber, heq⟩
    have he := getElem?_tableOf hr (List.getElem?_eq_getElem hnumber)
    rw [Nat.one_mul] at heq
    rw [<- heq] at he
    exact ⟨_, he, rfl⟩
  · intro h
    rcases h with ⟨e, he, hsource⟩
    rcases mem_tableOf.mp (List.mem_of_getElem? he) with ⟨j, q, number, link, hq, _, heq⟩
    have hguid : q.guid = r.guid := by
      rw [<- hsource, heq]
      rfl
    have hposition : e.sourcePosition = j := by
      rw [heq]
      rfl
    rw [mem_numbersIn_iff he hr, hposition]
    exact position_unique hnodup hq hr hguid

theorem map_unplaced_find? {g : Graph} (h : build records false = .ok g) (guid : Guid) :
    (g.find? guid).map Feature.unplaced =
      (firstOf? records guid).map (fun r => (r.toAttributes,
        (g.edges.toList.map Edge.source).findIdxs (fun source => decide (source = guid)))) := by
  have hholds := holds_of_build h
  have hnodup := nodup_guids_of_build h
  cases hfirst : firstOf? records guid with
  | none =>
      have hnone : g.find? guid = none := by
        rw [Option.eq_none_iff_forall_ne_some]
        intro f hf
        rcases hholds.find?_eq_some_iff.mp hf with ⟨i, r, hr, _⟩
        exact firstOf?_eq_none_iff.mp hfirst r (List.mem_of_getElem? hr.getElem?_eq) hr.guid_eq
      rw [hnone]
      rfl
  | some r =>
      rcases firstOf?_eq_some_iff.mp hfirst with ⟨i, hr⟩
      have hfound := hholds.find?_eq_some_iff.mpr ⟨i, r, hr, rfl⟩
      have hnumbers := numbersIn_eq_findIdxs hnodup hr.getElem?_eq
      rw [hfound, edges_of_build h, <- hr.guid_eq, <- hnumbers]
      rfl

theorem sameUnplaced_of_perm (hperm : records.Perm records') {g g' : Graph}
    (h : build records false = .ok g) (h' : build records' false = .ok g') :
    SameUnplaced g g' := by
  have hnodup := nodup_guids_of_build h
  have hedges : g.edges.toList.map Edge.unplaced = g'.edges.toList.map Edge.unplaced := by
    rw [edges_of_build h, edges_of_build h', map_unplaced_tableOf, map_unplaced_tableOf,
      map_fst_byGuid_of_perm hperm hnodup]
  have hsources : g.edges.toList.map Edge.source = g'.edges.toList.map Edge.source := by
    have hsame := congrArg (List.map Prod.fst) hedges
    rw [List.map_map, List.map_map] at hsame
    exact hsame
  have hkinds : forall a b, g.kindsBetween a b = g'.kindsBetween a b := by
    intro a b
    apply KindSet.ext_contains
    intro kind
    rw [Bool.eq_iff_iff, (holds_of_build h).contains_kinds, (holds_of_build h').contains_kinds,
      declares_iff_of_perm hperm]
  refine ⟨hedges, ?_, hkinds, ?_⟩
  · intro guid
    rw [map_unplaced_find? h, map_unplaced_find? h', firstOf?_of_perm hperm hnodup, hsources]
  · intro a b
    unfold hasRelationship
    rw [hkinds, hkinds]

end Graph
end FeatureModel
