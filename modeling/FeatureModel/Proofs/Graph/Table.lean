import FeatureModel.Proofs.Graph.Scan

/-!
# The edge table

The table is laid out record by record, in the order of the guids.  The edges of
one record stand next to each other, so each feature lists a stretch of numbers,
and the number of an edge is listed by the feature that declares it and by no
other.
-/

namespace FeatureModel
namespace Graph

def edgeOf (records : List Record) (entry : Record × Nat) (number : Nat) (link : Link) :
    Edge where
  source := entry.1.guid
  target := link.target
  kind := link.kind
  sourcePosition := entry.2
  targetPosition := (positionsIn records link.target).head?.getD 0
  linkNumber := number

def edgesIn (records : List Record) (entry : Record × Nat) : List Edge :=
  entry.1.links.mapIdx (edgeOf records entry)

def tableOf (records : List Record) : List Edge :=
  (byGuid records).flatMap (edgesIn records)

/-- The number of links in front of the record at a position. -/
def startIn : List (Record × Nat) -> Nat -> Nat
  | [], _ => 0
  | entry :: rest, position =>
      if entry.2 = position then 0 else entry.1.links.length + startIn rest position

/-- The numbers of the edges of the record at a position. -/
def numbersIn (records : List Record) (position : Nat) (r : Record) : List Nat :=
  List.range' (startIn (byGuid records) position) r.links.length

/-!
## Records by guid
-/

theorem byGuid_perm (records : List Record) : (byGuid records).Perm records.zipIdx :=
  Sorting.sortBy_perm tableOrder records.zipIdx

theorem mem_byGuid {records : List Record} {r : Record} {i : Nat} :
    (r, i) ∈ byGuid records <-> records[i]? = some r := by
  rw [(byGuid_perm records).mem_iff, List.mem_zipIdx_iff_getElem?]

theorem nodup_positions_byGuid (records : List Record) :
    ((byGuid records).map Prod.snd).Nodup := by
  have hperm := (byGuid_perm records).map Prod.snd
  rw [hperm.nodup_iff, List.zipIdx_map_snd]
  exact List.nodup_range'

theorem position_ne_of_mem {entry : Record × Nat} {rest : List (Record × Nat)} {r : Record}
    {i : Nat} (hfresh : entry.2 ∉ rest.map Prod.snd) (hmem : (r, i) ∈ rest) : entry.2 ≠ i := by
  intro hi
  rw [hi] at hfresh
  exact hfresh (List.mem_map_of_mem hmem)

/-!
## Attaching the edges of one record
-/

structure SameIndexes (g g' : Graph) : Prop where
  firsts_eq : g'.firsts = g.firsts
  positions_eq : g'.positions = g.positions
  kinds_eq : g'.kinds = g.kinds

theorem SameIndexes.trans {a b c : Graph} (hab : SameIndexes a b) (hbc : SameIndexes b c) :
    SameIndexes a c where
  firsts_eq := hbc.firsts_eq.trans hab.firsts_eq
  positions_eq := hbc.positions_eq.trans hab.positions_eq
  kinds_eq := hbc.kinds_eq.trans hab.kinds_eq

theorem sameIndexes_foldl {α : Type} {step : Graph -> α -> Graph}
    (hstep : forall g a, SameIndexes g (step g a)) (xs : List α) (g : Graph) :
    SameIndexes g (xs.foldl step g) := by
  induction xs generalizing g with
  | nil => exact ⟨rfl, rfl, rfl⟩
  | cons a rest ih => exact (hstep g a).trans (ih (step g a))

theorem sameIndexes_attachLink (entry : Record × Nat) (g : Graph) (link : Link × Nat) :
    SameIndexes g (attachLink entry g link) :=
  ⟨rfl, rfl, rfl⟩

theorem sameIndexes_attach (g : Graph) (entry : Record × Nat) : SameIndexes g (attach g entry) :=
  sameIndexes_foldl (sameIndexes_attachLink entry) entry.1.links.zipIdx g

theorem edges_foldl_attachLink {records : List Record} (entry : Record × Nat)
    (links : List (Link × Nat)) {g : Graph}
    (hfirsts : forall guid, g.firsts.lookup? guid = (positionsIn records guid).head?) :
    (links.foldl (attachLink entry) g).edges.toList =
      g.edges.toList ++ links.map (fun link => edgeOf records entry link.2 link.1) := by
  induction links generalizing g with
  | nil => simp
  | cons link rest ih =>
      have hpushed : (attachLink entry g link).edges.toList =
          g.edges.toList ++ [edgeOf records entry link.2 link.1] := by
        simp [attachLink, edgeOf, hfirsts]
      rw [List.foldl_cons, ih (g := attachLink entry g link) hfirsts, hpushed, List.map_cons,
        List.append_assoc, List.singleton_append]

theorem edges_attach {records : List Record} (entry : Record × Nat) {g : Graph}
    (hfirsts : forall guid, g.firsts.lookup? guid = (positionsIn records guid).head?) :
    (attach g entry).edges.toList = g.edges.toList ++ edgesIn records entry := by
  unfold attach edgesIn
  rw [edges_foldl_attachLink entry _ hfirsts, List.mapIdx_eq_zipIdx_map]

theorem size_edges_foldl_attachLink (entry : Record × Nat) (links : List (Link × Nat))
    (g : Graph) : (links.foldl (attachLink entry) g).edges.size = g.edges.size + links.length := by
  induction links generalizing g with
  | nil => rfl
  | cons link rest ih =>
      rw [List.foldl_cons, ih, List.length_cons]
      simp only [attachLink, Array.size_push]
      omega

theorem size_edges_attach (g : Graph) (entry : Record × Nat) :
    (attach g entry).edges.size = g.edges.size + entry.1.links.length := by
  unfold attach
  rw [size_edges_foldl_attachLink, List.length_zipIdx]

theorem getElem?_features_foldl_attachLink (entry : Record × Nat) (links : List (Link × Nat))
    (g : Graph) (i : Nat) :
    (links.foldl (attachLink entry) g).features[i]? =
      if entry.2 = i then
        g.features[i]?.map (fun f =>
          { f with edges := f.edges ++ List.range' g.edges.size links.length })
      else g.features[i]? := by
  induction links generalizing g with
  | nil =>
      split
      · simp
      · rfl
  | cons link rest ih =>
      rw [List.foldl_cons, ih]
      simp only [attachLink, Array.size_push, Array.getElem?_modify]
      split
      · rw [Option.map_map, List.length_cons, List.range'_succ]
        congr 1
        funext f
        simp
      · rfl

theorem getElem?_features_attach (g : Graph) (entry : Record × Nat) (i : Nat) :
    (attach g entry).features[i]? =
      if entry.2 = i then
        g.features[i]?.map (fun f =>
          { f with edges := f.edges ++ List.range' g.edges.size entry.1.links.length })
      else g.features[i]? := by
  unfold attach
  rw [getElem?_features_foldl_attachLink, List.length_zipIdx]

/-!
## Attaching the edges of one record after another
-/

theorem sameIndexes_foldl_attach (entries : List (Record × Nat)) (g : Graph) :
    SameIndexes g (entries.foldl attach g) :=
  sameIndexes_foldl sameIndexes_attach entries g

theorem edges_foldl_attach {records : List Record} (entries : List (Record × Nat)) {g : Graph}
    (hfirsts : forall guid, g.firsts.lookup? guid = (positionsIn records guid).head?) :
    (entries.foldl attach g).edges.toList =
      g.edges.toList ++ entries.flatMap (edgesIn records) := by
  induction entries generalizing g with
  | nil => simp
  | cons entry rest ih =>
      have hnext : forall guid, (attach g entry).firsts.lookup? guid =
          (positionsIn records guid).head? := by
        rw [(sameIndexes_attach g entry).firsts_eq]
        exact hfirsts
      rw [List.foldl_cons, ih hnext, edges_attach entry hfirsts, List.flatMap_cons,
        List.append_assoc]

theorem getElem?_features_foldl_attach_of_not_mem {i : Nat} {entries : List (Record × Nat)}
    (h : i ∉ entries.map Prod.snd) (g : Graph) :
    (entries.foldl attach g).features[i]? = g.features[i]? := by
  induction entries generalizing g with
  | nil => rfl
  | cons entry rest ih =>
      rw [List.map_cons, List.mem_cons, not_or] at h
      rw [List.foldl_cons, ih h.right, getElem?_features_attach, if_neg (Ne.symm h.left)]

theorem getElem?_features_foldl_attach_of_mem {i : Nat} {r : Record}
    {entries : List (Record × Nat)} (hnodup : (entries.map Prod.snd).Nodup)
    (hmem : (r, i) ∈ entries) (g : Graph) :
    (entries.foldl attach g).features[i]? =
      g.features[i]?.map (fun f =>
        { f with
          edges := f.edges ++ List.range' (g.edges.size + startIn entries i) r.links.length }) := by
  induction entries generalizing g with
  | nil => cases hmem
  | cons entry rest ih =>
      rw [List.map_cons, List.nodup_cons] at hnodup
      rw [List.foldl_cons]
      rcases List.mem_cons.mp hmem with heq | hrest
      · rw [<- heq] at hnodup ⊢
        rw [getElem?_features_foldl_attach_of_not_mem hnodup.left, getElem?_features_attach,
          if_pos rfl, startIn, if_pos rfl]
        rfl
      · have hne : entry.2 ≠ i := position_ne_of_mem hnodup.left hrest
        rw [ih hnodup.right hrest, getElem?_features_attach, if_neg hne, size_edges_attach,
          startIn, if_neg hne, Nat.add_assoc]

/-!
## The table of a graph
-/

theorem edges_ofRecords (records : List Record) :
    (ofRecords records).edges.toList = tableOf records := by
  unfold ofRecords tableOf
  rw [edges_foldl_attach (byGuid records) (holds_entered records).lookup_firsts, edges_entered]
  rfl

theorem getElem?_features_ofRecords (records : List Record) (i : Nat) :
    (ofRecords records).features[i]? =
      records[i]?.map (fun r => r.toFeature i (numbersIn records i r)) := by
  unfold ofRecords
  have hentered := (holds_entered records).getElem?_features i
  cases hr : records[i]? with
  | none =>
      have hnot : i ∉ (byGuid records).map Prod.snd := by
        intro h
        rcases List.mem_map.mp h with ⟨⟨r, j⟩, hmem, hj⟩
        rw [show j = i from hj, mem_byGuid, hr] at hmem
        cases hmem
      rw [getElem?_features_foldl_attach_of_not_mem hnot, hentered, hr]
      rfl
  | some r =>
      have hsize : (entered records).edges.size = 0 := by rw [edges_entered]; rfl
      rw [getElem?_features_foldl_attach_of_mem (nodup_positions_byGuid records)
        (mem_byGuid.mpr hr), hentered, hr, hsize, Nat.zero_add]
      rfl

theorem holds_ofRecords (records : List Record) :
    Holds records (numbersIn records) (ofRecords records) where
  features_eq := by
    apply List.ext_getElem?
    intro i
    rw [Array.getElem?_toList, getElem?_features_ofRecords, List.getElem?_mapIdx]
  lookup_firsts guid := by
    unfold ofRecords
    rw [(sameIndexes_foldl_attach _ _).firsts_eq]
    exact (holds_entered records).lookup_firsts guid
  lookup_positions guid := by
    unfold ofRecords
    rw [(sameIndexes_foldl_attach _ _).positions_eq]
    exact (holds_entered records).lookup_positions guid
  contains_kinds source target kind := by
    unfold ofRecords kindsBetween
    rw [(sameIndexes_foldl_attach _ _).kinds_eq]
    exact (holds_entered records).contains_kinds source target kind

/-!
## Edges and their numbers
-/

theorem mem_edgesIn {records : List Record} {entry : Record × Nat} {e : Edge} :
    e ∈ edgesIn records entry <->
      exists number link, entry.1.links[number]? = some link ∧
        e = edgeOf records entry number link := by
  unfold edgesIn
  rw [List.mem_mapIdx]
  constructor
  · intro h
    rcases h with ⟨number, hnumber, heq⟩
    exact ⟨number, entry.1.links[number], List.getElem?_eq_getElem hnumber, heq.symm⟩
  · intro h
    rcases h with ⟨number, link, hlink, heq⟩
    rcases List.getElem?_eq_some_iff.mp hlink with ⟨hnumber, hget⟩
    exact ⟨number, hnumber, by rw [hget, heq]⟩

theorem mem_tableOf {records : List Record} {e : Edge} :
    e ∈ tableOf records <->
      exists i r number link, records[i]? = some r ∧ r.links[number]? = some link ∧
        e = edgeOf records (r, i) number link := by
  unfold tableOf
  rw [List.mem_flatMap]
  constructor
  · intro h
    rcases h with ⟨⟨r, i⟩, hentry, he⟩
    rcases mem_edgesIn.mp he with ⟨number, link, hlink, heq⟩
    exact ⟨i, r, number, link, mem_byGuid.mp hentry, hlink, heq⟩
  · intro h
    rcases h with ⟨i, r, number, link, hr, hlink, heq⟩
    exact ⟨(r, i), mem_byGuid.mpr hr, mem_edgesIn.mpr ⟨number, link, hlink, heq⟩⟩

theorem getElem?_flatMap_edgesIn {records : List Record} {entries : List (Record × Nat)}
    (hnodup : (entries.map Prod.snd).Nodup) {r : Record} {i : Nat} (hmem : (r, i) ∈ entries)
    {number : Nat} (hnumber : number < r.links.length) :
    (entries.flatMap (edgesIn records))[startIn entries i + number]? =
      (edgesIn records (r, i))[number]? := by
  induction entries with
  | nil => cases hmem
  | cons entry rest ih =>
      rw [List.map_cons, List.nodup_cons] at hnodup
      rw [List.flatMap_cons]
      have hlength : forall entry : Record × Nat,
          (edgesIn records entry).length = entry.1.links.length :=
        fun entry => List.length_mapIdx
      rcases List.mem_cons.mp hmem with heq | hrest
      · rw [<- heq, startIn, if_pos rfl, Nat.zero_add, List.getElem?_append_left]
        rw [hlength]
        exact hnumber
      · have hne : entry.2 ≠ i := position_ne_of_mem hnodup.left hrest
        rw [startIn, if_neg hne, Nat.add_assoc, List.getElem?_append_right, hlength,
          Nat.add_sub_cancel_left]
        · exact ih hnodup.right hrest
        · rw [hlength]
          exact Nat.le_add_right _ _

theorem getElem?_tableOf {records : List Record} {r : Record} {i : Nat}
    (hr : records[i]? = some r) {number : Nat} {link : Link}
    (hlink : r.links[number]? = some link) :
    (tableOf records)[startIn (byGuid records) i + number]? =
      some (edgeOf records (r, i) number link) := by
  have hnumber := (List.getElem?_eq_some_iff.mp hlink).1
  unfold tableOf
  rw [getElem?_flatMap_edgesIn (nodup_positions_byGuid records) (mem_byGuid.mpr hr) hnumber]
  unfold edgesIn
  rw [List.getElem?_mapIdx, hlink]
  rfl

theorem map_getElem?_numbersIn {records : List Record} {r : Record} {i : Nat}
    (hr : records[i]? = some r) :
    (numbersIn records i r).map (fun n => (tableOf records)[n]?) =
      (edgesIn records (r, i)).map some := by
  apply List.ext_getElem?
  intro number
  unfold numbersIn edgesIn
  rw [List.getElem?_map, List.getElem?_map, List.getElem?_mapIdx]
  by_cases hnumber : number < r.links.length
  · have hlink : r.links[number]? = some r.links[number] := List.getElem?_eq_getElem hnumber
    rw [List.getElem?_range' hnumber, Nat.one_mul, Option.map_some, getElem?_tableOf hr hlink,
      hlink]
    rfl
  · have hpast : r.links.length ≤ number := Nat.le_of_not_lt hnumber
    rw [List.getElem?_eq_none hpast, List.getElem?_eq_none (by rw [List.length_range']; exact hpast)]
    rfl

theorem mem_numbersIn_of_getElem? {records : List Record} {n : Nat} {e : Edge}
    {entries : List (Record × Nat)} (hnodup : (entries.map Prod.snd).Nodup)
    (he : (entries.flatMap (edgesIn records))[n]? = some e) :
    exists r, (r, e.sourcePosition) ∈ entries ∧
      n ∈ List.range' (startIn entries e.sourcePosition) r.links.length := by
  induction entries generalizing n with
  | nil => cases he
  | cons entry rest ih =>
      rw [List.map_cons, List.nodup_cons] at hnodup
      rw [List.flatMap_cons] at he
      have hlength : (edgesIn records entry).length = entry.1.links.length := List.length_mapIdx
      by_cases hn : n < entry.1.links.length
      · rw [List.getElem?_append_left (by omega)] at he
        rcases mem_edgesIn.mp (List.mem_of_getElem? he) with ⟨number, link, _, heq⟩
        have hposition : e.sourcePosition = entry.2 := by rw [heq]; rfl
        refine ⟨entry.1, by simp [hposition], ?_⟩
        rw [startIn, hposition, if_pos rfl]
        simp [List.mem_range', hn]
      · rw [List.getElem?_append_right (by omega), hlength] at he
        rcases ih hnodup.right he with ⟨r, hmem, hrange⟩
        refine ⟨r, List.mem_cons_of_mem entry hmem, ?_⟩
        have hne : entry.2 ≠ e.sourcePosition := position_ne_of_mem hnodup.left hmem
        rw [startIn, if_neg hne]
        rw [List.mem_range'_1] at hrange ⊢
        omega

theorem mem_numbersIn_iff {records : List Record} {n i : Nat} {e : Edge} {r : Record}
    (he : (tableOf records)[n]? = some e) (hr : records[i]? = some r) :
    n ∈ numbersIn records i r <-> e.sourcePosition = i := by
  constructor
  · intro h
    rcases List.mem_range'.mp h with ⟨number, hnumber, heq⟩
    have hlink : r.links[number]? = some r.links[number] := List.getElem?_eq_getElem hnumber
    rw [heq, Nat.one_mul, getElem?_tableOf hr hlink] at he
    cases he
    rfl
  · intro h
    rcases mem_numbersIn_of_getElem? (nodup_positions_byGuid records) he with ⟨q, hq, hrange⟩
    rw [h, mem_byGuid, hr] at hq
    cases hq
    rw [h] at hrange
    exact hrange

end Graph
end FeatureModel
