import FeatureModel.Proofs.Graph.TableOrder
import FeatureModel.Proofs.Graph.Views
import Mathlib.Logic.ExistsUnique

/-!
# What a graph says about its records

A graph built from records has a feature for each record and an edge for each
declared link, and both know their place in the records.  Read through the edges
that its features list, it gives back the records themselves.
-/

namespace FeatureModel

def Edge.link (e : Edge) : Link where
  target := e.target
  kind := e.kind

namespace Graph

/-- The record that a feature was declared by; its links are read in the edge table. -/
def recordOf (g : Graph) (f : Feature) : Record where
  toAttributes := f.toAttributes
  links := f.edges.filterMap (fun n => g.edges[n]?.map Edge.link)

def toRecords (g : Graph) : List Record :=
  g.features.toList.map g.recordOf

structure Places (records : List Record) (g : Graph) (e : Edge) : Prop where
  source_feature : exists f, g.features[e.sourcePosition]? = some f ∧ f.guid = e.source
  declared_as : exists r, LinkAt records e.sourcePosition e.linkNumber r e.link
  /-- The target position is the least one of the target's guid. -/
  target_first : exists q, IsFirst records e.target e.targetPosition q
  source_ne_target : e.source ≠ e.target

/-- Whether a graph holds records so that nothing about them is lost. -/
structure Represents (records : List Record) (g : Graph) : Prop where
  attributes_eq :
    g.features.toList.map Feature.toAttributes = records.map Record.toAttributes
  position_eq : forall (i : Nat) (f : Feature), g.features[i]? = some f -> f.position = i
  edges_ordered : g.edges.toList.Pairwise Edge.Before
  existsUnique_edge : forall i number r link, LinkAt records i number r link ->
    ∃! n : Nat, exists e : Edge,
      g.edges[n]? = some e ∧ e.sourcePosition = i ∧ e.linkNumber = number
  places : forall (n : Nat) (e : Edge), g.edges[n]? = some e -> Places records g e
  /-- The number of an edge is listed by the feature that declares it, and by no other. -/
  listed_iff : forall (n : Nat) (e : Edge), g.edges[n]? = some e ->
    forall (i : Nat) (f : Feature), g.features[i]? = some f -> (n ∈ f.edges <-> i = e.sourcePosition)
  edges_consecutive : forall (i : Nat) (f : Feature), g.features[i]? = some f ->
    exists start, f.edges = List.range' start f.edges.length
  /-- Read in the table, the edges of a feature are the links of its record. -/
  links_eq : forall (i : Nat) (f : Feature) (r : Record), g.features[i]? = some f ->
    records[i]? = some r -> f.edges.map (fun n => g.edges[n]?.map Edge.link) = r.links.map some
  toRecords_eq : g.toRecords = records

variable {records : List Record}

/-!
## Edges and the links they were declared as
-/

theorem exists_linkAt_of_getElem?_tableOf {n : Nat} {e : Edge}
    (he : (tableOf records)[n]? = some e) :
    exists r, LinkAt records e.sourcePosition e.linkNumber r e.link ∧
      e = edgeOf records (r, e.sourcePosition) e.linkNumber e.link := by
  rcases mem_tableOf.mp (List.mem_of_getElem? he) with ⟨i, r, number, link, hr, hlink, heq⟩
  refine ⟨r, ?_, ?_⟩
  · rw [heq]
    exact ⟨hr, hlink⟩
  · rw [heq]
    rfl

theorem number_unique_tableOf {m n : Nat} {e f : Edge} (he : (tableOf records)[m]? = some e)
    (hf : (tableOf records)[n]? = some f) (hposition : e.sourcePosition = f.sourcePosition)
    (hnumber : e.linkNumber = f.linkNumber) : m = n := by
  rcases exists_linkAt_of_getElem?_tableOf he with ⟨r, hr, heq⟩
  rcases exists_linkAt_of_getElem?_tableOf hf with ⟨q, hq, hfq⟩
  have hsame : some r = some q := by
    rw [<- hr.left, <- hq.left, hposition]
  have hsource : e.source = f.source := by
    rw [heq, hfq]
    show r.guid = q.guid
    rw [Option.some.inj hsame]
  have hnot : ¬ e.Before f := by
    unfold Edge.Before
    rw [hsource, hposition, hnumber]
    simp
  have hnot' : ¬ f.Before e := by
    unfold Edge.Before
    rw [hsource, hposition, hnumber]
    simp
  rcases List.getElem?_eq_some_iff.mp he with ⟨hm, hem⟩
  rcases List.getElem?_eq_some_iff.mp hf with ⟨hn, hfn⟩
  have hordered := List.pairwise_iff_getElem.mp (pairwise_tableOf records)
  rcases Nat.lt_trichotomy m n with hlt | hmn | hgt
  · exact absurd (hem ▸ hfn ▸ hordered m n hm hn hlt) hnot
  · exact hmn
  · exact absurd (hem ▸ hfn ▸ hordered n m hn hm hgt) hnot'

theorem map_link_numbersIn {i : Nat} {r : Record} (hr : records[i]? = some r) :
    (numbersIn records i r).map (fun n => (tableOf records)[n]?.map Edge.link) =
      r.links.map some := by
  have hlinks : (edgesIn records (r, i)).map Edge.link = r.links := by
    apply List.ext_getElem?
    intro number
    unfold edgesIn
    rw [List.getElem?_map, List.getElem?_mapIdx, Option.map_map]
    show r.links[number]?.map id = r.links[number]?
    exact Option.map_id_apply
  calc
    (numbersIn records i r).map (fun n => (tableOf records)[n]?.map Edge.link)
        = ((numbersIn records i r).map (fun n => (tableOf records)[n]?)).map
            (Option.map Edge.link) := by
          rw [List.map_map]
          rfl
    _ = ((edgesIn records (r, i)).map some).map (Option.map Edge.link) := by
          rw [map_getElem?_numbersIn hr]
    _ = ((edgesIn records (r, i)).map Edge.link).map some := by
          rw [List.map_map, List.map_map]
          rfl
    _ = r.links.map some := by rw [hlinks]

theorem recordOf_toFeature {i : Nat} {r : Record} (hr : records[i]? = some r) :
    (ofRecords records).recordOf (r.toFeature i (numbersIn records i r)) = r := by
  have hlinks : (numbersIn records i r).filterMap
      (fun n => (ofRecords records).edges[n]?.map Edge.link) = r.links := by
    simp only [<- Array.getElem?_toList, edges_ofRecords]
    calc
      (numbersIn records i r).filterMap (fun n => (tableOf records)[n]?.map Edge.link)
          = ((numbersIn records i r).map
              (fun n => (tableOf records)[n]?.map Edge.link)).filterMap id := by
            rw [List.filterMap_map]
            rfl
      _ = (r.links.map some).filterMap id := by rw [map_link_numbersIn hr]
      _ = r.links := by
            rw [List.filterMap_map]
            exact List.filterMap_some
  unfold recordOf
  show Record.mk r.toAttributes _ = r
  rw [show (r.toFeature i (numbersIn records i r)).edges = numbersIn records i r from rfl, hlinks]

theorem toRecords_ofRecords (records : List Record) : (ofRecords records).toRecords = records := by
  unfold toRecords
  rw [(holds_ofRecords records).features_eq]
  apply List.ext_getElem?
  intro i
  rw [List.getElem?_map, List.getElem?_mapIdx]
  cases hr : records[i]? with
  | none => rfl
  | some r =>
      rw [Option.map_some, Option.map_some, recordOf_toFeature hr]

/-!
## Graphs that are built
-/

theorem exists_record_of_feature {i : Nat} {f : Feature}
    (hf : (ofRecords records).features[i]? = some f) :
    exists r, records[i]? = some r ∧ f = r.toFeature i (numbersIn records i r) := by
  rw [getElem?_features_ofRecords] at hf
  rcases Option.map_eq_some_iff.mp hf with ⟨r, hr, heq⟩
  exact ⟨r, hr, heq.symm⟩

theorem places_of_build {tolerate : Bool} {g : Graph} (h : build records tolerate = .ok g)
    {n : Nat} {e : Edge} (he : g.edges[n]? = some e) : Places records g e := by
  rw [eq_ofRecords_of_build h] at he ⊢
  rw [<- Array.getElem?_toList, edges_ofRecords] at he
  rcases exists_linkAt_of_getElem?_tableOf he with ⟨r, hlink, heq⟩
  rcases link_target_of_build h hlink with ⟨hother, hdeclared⟩
  have hsource : e.source = r.guid := by rw [heq]; rfl
  rcases exists_isFirst hdeclared with ⟨j, q, hq⟩
  have hposition : e.targetPosition = j := by
    rw [heq]
    show (positionsIn records e.link.target).head?.getD 0 = j
    rw [head?_positionsIn_eq_some_iff.mpr ⟨q, hq⟩]
    rfl
  refine ⟨?_, ⟨r, hlink⟩, ⟨q, hposition ▸ hq⟩, ?_⟩
  · refine ⟨r.toFeature e.sourcePosition (numbersIn records e.sourcePosition r), ?_, hsource.symm⟩
    rw [getElem?_features_ofRecords, hlink.left]
    rfl
  · rw [hsource]
    exact Ne.symm hother

/-- Nothing about records is lost in their graph. -/
theorem represents_of_build {tolerate : Bool} {g : Graph} (h : build records tolerate = .ok g) :
    Represents records g where
  attributes_eq := (holds_of_build h).map_toAttributes
  position_eq i f hf := by
    rw [eq_ofRecords_of_build h] at hf
    rcases exists_record_of_feature hf with ⟨r, _, heq⟩
    rw [heq]
    rfl
  edges_ordered := by
    rw [edges_of_build h]
    exact pairwise_tableOf records
  existsUnique_edge i number r link hlink := by
    rw [eq_ofRecords_of_build h]
    simp only [<- Array.getElem?_toList, edges_ofRecords]
    refine ⟨startIn (byGuid records) i + number,
      ⟨_, getElem?_tableOf hlink.left hlink.right, rfl, rfl⟩, ?_⟩
    intro n hn
    rcases hn with ⟨e, he, hposition, hnumber⟩
    exact number_unique_tableOf he (getElem?_tableOf hlink.left hlink.right) hposition hnumber
  places n e he := places_of_build h he
  listed_iff n e he i f hf := by
    rw [eq_ofRecords_of_build h] at he hf
    rw [<- Array.getElem?_toList, edges_ofRecords] at he
    rcases exists_record_of_feature hf with ⟨r, hr, heq⟩
    rw [heq, eq_comm]
    exact mem_numbersIn_iff he hr
  edges_consecutive i f hf := by
    rw [eq_ofRecords_of_build h] at hf
    rcases exists_record_of_feature hf with ⟨r, _, heq⟩
    refine ⟨startIn (byGuid records) i, ?_⟩
    rw [heq]
    show numbersIn records i r = List.range' _ (numbersIn records i r).length
    unfold numbersIn
    rw [List.length_range']
  links_eq i f r hf hr := by
    rw [eq_ofRecords_of_build h] at hf ⊢
    simp only [<- Array.getElem?_toList, edges_ofRecords]
    rcases exists_record_of_feature hf with ⟨q, hq, heq⟩
    rw [hr] at hq
    rw [heq, Option.some.inj hq]
    rw [Option.some.inj hq] at hr
    exact map_link_numbersIn hr
  toRecords_eq := by
    rw [eq_ofRecords_of_build h]
    exact toRecords_ofRecords records

/-- Guids that fall and repeat: the edges of the last record come first in the table. -/
theorem represents_tolerated_duplicates :
    let records : List Record :=
      [{ guid := 5, name := "a",
         links := [{ target := -1, kind := .alternative }, { target := 2, kind := .complex }] },
        { guid := 2, name := "b", links := [{ target := 5, kind := .incompatible }] },
        { guid := 5, name := "c", links := [{ target := -1, kind := .incompatible }] },
        { guid := -1, name := "d", links := [{ target := 5, kind := .alternative }] }]
    let g := ofRecords records
    build records true = .ok g ∧ Represents records g ∧
      g.features.toList.map (fun f => (f.guid, f.position, f.edges)) =
        [(5, 0, [2, 3]), (2, 1, [1]), (5, 2, [4]), (-1, 3, [0])] ∧
      g.edges.toList.map (fun e => (e.source, e.sourcePosition, e.linkNumber)) =
        [(-1, 3, 0), (2, 1, 0), (5, 0, 0), (5, 0, 1), (5, 2, 0)] ∧
      g.edges.toList.map (fun e => (e.target, e.targetPosition)) =
        [(5, 0), (5, 0), (-1, 3), (2, 1), (-1, 3)] := by
  intro records g
  have hbuild : build records true = .ok g := rfl
  refine ⟨hbuild, represents_of_build hbuild, ?_⟩
  decide +kernel

end Graph
end FeatureModel
