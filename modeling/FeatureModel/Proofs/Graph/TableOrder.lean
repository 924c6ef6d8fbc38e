import FeatureModel.Graph.Export
import FeatureModel.Proofs.Graph.Table
import FeatureModel.Proofs.Record.ByGuid
import FeatureModel.Proofs.Runs
import Mathlib.Data.List.Basic

/-!
# The order of the edge table

Records are laid out guid by guid, and those of one guid in declaration order.  So
the table is strictly ordered, and the edges of a guid are the links that its
records declare, in declaration order.
-/

namespace FeatureModel

/-- Whether an edge belongs before another in a table: by source guid, then by the declaring
feature, then by the number of the link. -/
def Edge.Before (e f : Edge) : Prop :=
  e.source < f.source ∨
    (e.source = f.source ∧
      (e.sourcePosition < f.sourcePosition ∨
        (e.sourcePosition = f.sourcePosition ∧ e.linkNumber < f.linkNumber)))

namespace Graph

/-!
## Records in table order
-/

def EntryBefore (a b : Record × Nat) : Prop :=
  a.1.guid < b.1.guid ∨ (a.1.guid = b.1.guid ∧ a.2 < b.2)

theorem EntryBefore.asymm {a b : Record × Nat} (h : EntryBefore a b) : ¬ EntryBefore b a := by
  intro hback
  rcases h with hguid | ⟨hguid, hposition⟩ <;> rcases hback with hguid' | ⟨hguid', hposition'⟩
  · exact Int.lt_asymm hguid hguid'
  · exact Int.lt_irrefl _ (hguid' ▸ hguid)
  · exact Int.lt_irrefl _ (hguid ▸ hguid')
  · exact Nat.lt_asymm hposition hposition'

theorem pairwise_snd_zipIdx {α : Type} (xs : List α) :
    xs.zipIdx.Pairwise (fun a b => a.2 < b.2) := by
  rw [<- List.pairwise_map, List.zipIdx_map_snd]
  exact List.pairwise_lt_range'

/-- Sorting is stable, so positions increase among the records of one guid. -/
theorem pairwise_byGuid (records : List Record) : (byGuid records).Pairwise EntryBefore := by
  refine (Sorting.pairwise_sortBy (pairwise_snd_zipIdx records)).imp ?_
  intro a b h
  rcases h with hguid | ⟨hguid, hposition⟩
  · exact Or.inl (Int.compare_eq_lt.mp hguid)
  · exact Or.inr ⟨Int.compare_eq_eq.mp hguid, hposition⟩

def entriesOf (records : List Record) (guid : Guid) : List (Record × Nat) :=
  records.zipIdx.filter (fun entry => decide (entry.1.guid = guid))

def guidsOf (records : List Record) : List Guid :=
  Runs.ascending (records.map (fun r => r.guid))

theorem mem_guidsOf {records : List Record} {guid : Guid} :
    guid ∈ guidsOf records <-> exists r, r ∈ records ∧ r.guid = guid := by
  unfold guidsOf
  rw [Runs.mem_ascending, List.mem_map]

theorem mem_entriesOf {records : List Record} {guid : Guid} {r : Record} {i : Nat} :
    (r, i) ∈ entriesOf records guid <-> records[i]? = some r ∧ r.guid = guid := by
  simp [entriesOf, List.mem_zipIdx_iff_getElem?]

theorem pairwise_entriesOf (records : List Record) (guid : Guid) :
    (entriesOf records guid).Pairwise EntryBefore := by
  have hpositions := (pairwise_snd_zipIdx records).sublist
    (List.filter_sublist (p := fun entry : Record × Nat => decide (entry.1.guid = guid)))
  refine hpositions.imp_of_mem ?_
  intro a b ha hb hlt
  have haguid := (mem_entriesOf.mp ha).right
  have hbguid := (mem_entriesOf.mp hb).right
  exact Or.inr ⟨haguid.trans hbguid.symm, hlt⟩

theorem byGuid_eq_flatMap (records : List Record) :
    byGuid records = (guidsOf records).flatMap (entriesOf records) := by
  refine Runs.eq_of_mem_iff_of_pairwise (fun _ _ => EntryBefore.asymm) (pairwise_byGuid records)
    ?_ ?_
  · rw [List.pairwise_flatMap]
    refine ⟨fun guid _ => pairwise_entriesOf records guid, ?_⟩
    refine (Runs.pairwise_lt_ascending _).imp ?_
    intro low high hlt a ha b hb
    left
    rw [(mem_entriesOf.mp ha).right, (mem_entriesOf.mp hb).right]
    exact hlt
  · rintro ⟨r, i⟩
    rw [mem_byGuid, List.mem_flatMap]
    constructor
    · intro hr
      exact ⟨r.guid, mem_guidsOf.mpr ⟨r, List.mem_of_getElem? hr, rfl⟩, mem_entriesOf.mpr ⟨hr, rfl⟩⟩
    · intro h
      rcases h with ⟨guid, _, hentry⟩
      exact (mem_entriesOf.mp hentry).left

theorem byGuid_eq_zipIdx {records : List Record}
    (h : (records.map (fun r => r.guid)).Pairwise (fun a b => a < b)) :
    byGuid records = records.zipIdx := by
  have hbefore : records.zipIdx.Pairwise EntryBefore := by
    rw [<- List.zipIdx_map_fst 0 records, List.map_map, List.pairwise_map] at h
    exact h.imp Or.inl
  refine Runs.eq_of_mem_iff_of_pairwise (fun _ _ => EntryBefore.asymm) (pairwise_byGuid records)
    hbefore ?_
  intro entry
  exact (byGuid_perm records).mem_iff

/-!
## Edges in table order
-/

theorem pairwise_edgesIn (records : List Record) (entry : Record × Nat) :
    (edgesIn records entry).Pairwise Edge.Before := by
  unfold edgesIn
  rw [List.pairwise_iff_getElem]
  intro m n hm hn hmn
  rw [List.getElem_mapIdx, List.getElem_mapIdx]
  exact Or.inr ⟨rfl, Or.inr ⟨rfl, hmn⟩⟩

theorem pairwise_tableOf (records : List Record) : (tableOf records).Pairwise Edge.Before := by
  unfold tableOf
  rw [List.pairwise_flatMap]
  refine ⟨fun entry _ => pairwise_edgesIn records entry, ?_⟩
  refine (pairwise_byGuid records).imp ?_
  intro a b hab e he f hf
  rcases mem_edgesIn.mp he with ⟨_, _, _, heq⟩
  rcases mem_edgesIn.mp hf with ⟨_, _, _, hfq⟩
  rw [heq, hfq]
  rcases hab with hguid | ⟨hguid, hposition⟩
  · exact Or.inl hguid
  · exact Or.inr ⟨hguid, Or.inl hposition⟩

def exportLink (source : Guid) (link : Link) : ExportedEdge where
  source := source
  target := link.target
  kind := link.kind

theorem map_toExported_edgesIn (records : List Record) (entry : Record × Nat) :
    (edgesIn records entry).map Edge.toExported = entry.1.links.map (exportLink entry.1.guid) := by
  unfold edgesIn
  apply List.ext_getElem?
  intro number
  rw [List.getElem?_map, List.getElem?_mapIdx, List.getElem?_map, Option.map_map]
  rfl

theorem flatMap_entriesOf {α : Type} (f : Record -> List α) (records : List Record) (guid : Guid) :
    (entriesOf records guid).flatMap (fun entry => f entry.1) = (recordsOf records guid).flatMap f := by
  have hfst : (entriesOf records guid).map Prod.fst = recordsOf records guid := by
    unfold entriesOf recordsOf
    rw [<- List.zipIdx_map_fst 0 records, List.filter_map, List.zipIdx_map_fst]
    rfl
  rw [<- hfst, List.flatMap_map]

theorem map_toExported_entriesOf (records : List Record) (guid : Guid) :
    (entriesOf records guid).flatMap (fun entry => (edgesIn records entry).map Edge.toExported) =
      (linksOf records guid).map (exportLink guid) := by
  calc
    (entriesOf records guid).flatMap (fun entry => (edgesIn records entry).map Edge.toExported)
        = (entriesOf records guid).flatMap (fun entry => entry.1.links.map (exportLink guid)) := by
          apply List.flatMap_congr
          intro entry hentry
          rw [map_toExported_edgesIn, (mem_entriesOf.mp hentry).right]
    _ = (recordsOf records guid).flatMap (fun r => r.links.map (exportLink guid)) :=
          flatMap_entriesOf (fun r => r.links.map (exportLink guid)) records guid
    _ = (linksOf records guid).map (exportLink guid) := by
          rw [linksOf, List.map_flatMap]

theorem map_toExported_tableOf (records : List Record) :
    (tableOf records).map Edge.toExported =
      (guidsOf records).flatMap (fun guid => (linksOf records guid).map (exportLink guid)) := by
  unfold tableOf
  rw [List.map_flatMap, byGuid_eq_flatMap, List.flatMap_assoc]
  apply List.flatMap_congr
  intro guid _
  exact map_toExported_entriesOf records guid

/-!
## The edges of one guid
-/

theorem filter_guid_byGuid (records : List Record) (guid : Guid) :
    (byGuid records).filter (fun entry => decide (entry.1.guid = guid)) =
      entriesOf records guid := by
  refine Runs.eq_of_mem_iff_of_pairwise (fun _ _ => EntryBefore.asymm)
    ((pairwise_byGuid records).filter _) (pairwise_entriesOf records guid) ?_
  rintro ⟨r, i⟩
  rw [List.mem_filter, mem_byGuid, mem_entriesOf, decide_eq_true_eq]

theorem filter_source_edgesIn (records : List Record) (entry : Record × Nat) (guid : Guid) :
    (edgesIn records entry).filter (fun e => decide (e.source = guid)) =
      if entry.1.guid = guid then edgesIn records entry else [] := by
  have hsource : forall e, e ∈ edgesIn records entry -> e.source = entry.1.guid := by
    intro e he
    rcases mem_edgesIn.mp he with ⟨_, _, _, heq⟩
    rw [heq]
    rfl
  split
  · next hguid =>
      rw [List.filter_eq_self]
      intro e he
      exact decide_eq_true ((hsource e he).trans hguid)
  · next hguid =>
      rw [List.filter_eq_nil_iff]
      intro e he heq
      exact hguid ((hsource e he).symm.trans (of_decide_eq_true heq))

theorem filter_source_tableOf (records : List Record) (guid : Guid) :
    (tableOf records).filter (fun e => decide (e.source = guid)) =
      (entriesOf records guid).flatMap (edgesIn records) := by
  unfold tableOf
  rw [<- filter_guid_byGuid, List.filter_flatMap]
  induction byGuid records with
  | nil => rfl
  | cons entry rest ih =>
      rw [List.flatMap_cons, ih, filter_source_edgesIn, List.filter_cons]
      by_cases hguid : entry.1.guid = guid
      · simp [hguid]
      · simp [hguid]

theorem map_toExported_filter_source (records : List Record) (guid : Guid) :
    ((tableOf records).filter (fun e => decide (e.source = guid))).map Edge.toExported =
      (linksOf records guid).map (exportLink guid) := by
  rw [filter_source_tableOf, List.map_flatMap, map_toExported_entriesOf]

end Graph
end FeatureModel
