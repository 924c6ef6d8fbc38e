import FeatureModel.Proofs.Graph.Outgoing

/-!
# Lookups and scans

An index of positions, a binary search in the edge table and the numbers that
features list all answer questions about a guid.  In a graph built from records
they answer as scans of all features and of the whole table do.
-/

namespace FeatureModel
namespace Graph

/-- Whether the lookups for a guid agree with scans of the features and of the edge table. -/
structure ScansAlike (g : Graph) (guid : Guid) : Prop where
  declarations_eq :
    g.declarations guid = g.features.toList.filter (fun f => decide (f.guid = guid))
  find?_eq : g.find? guid = (g.declarations guid).head?
  contains_iff : g.contains guid = true <-> g.declarations guid ≠ []
  get_eq : g.get guid = (g.declarations guid).head?.elim (.error { guid := guid }) .ok
  outgoing_eq : g.outgoing guid =
    if g.declarations guid = [] then .error { guid := guid }
    else .ok (g.edges.toList.filter (fun e => decide (e.source = guid)))
  outgoingOfKind_eq : forall kind, g.outgoingOfKind guid kind =
    if g.declarations guid = [] then .error { guid := guid }
    else .ok ((g.edges.toList.filter (fun e => decide (e.source = guid))).filter
      (fun e => decide (e.kind = kind)))
  /-- Every number that a declaration lists is in the table, and is read there. -/
  listed_eq : (g.declarations guid).flatMap (fun f => f.edges.map (fun n => g.edges[n]?)) =
    (g.edges.toList.filter (fun e => decide (e.source = guid))).map some

section Holds

variable {records : List Record} {numbers : Nat -> Record -> List Nat} {g : Graph}

theorem positionsIn_eq_map_entriesOf (records : List Record) (guid : Guid) :
    positionsIn records guid = (entriesOf records guid).map Prod.snd :=
  rfl

theorem Holds.getElem?_of_mem_entriesOf (h : Holds records numbers g) {guid : Guid}
    {entry : Record × Nat} (hentry : entry ∈ entriesOf records guid) :
    g.features[entry.2]? = some (entry.1.toFeature entry.2 (numbers entry.2 entry.1)) := by
  rw [h.getElem?_features, (mem_entriesOf.mp hentry).left]
  rfl

theorem Holds.declarations_eq (h : Holds records numbers g) (guid : Guid) :
    g.declarations guid = (entriesOf records guid).map
      (fun entry => entry.1.toFeature entry.2 (numbers entry.2 entry.1)) := by
  unfold declarations
  rw [h.positionsOf_eq, positionsIn_eq_map_entriesOf, List.filterMap_map,
    <- List.filterMap_eq_map]
  apply List.filterMap_congr
  intro entry hentry
  exact h.getElem?_of_mem_entriesOf hentry

theorem Holds.filter_guid_features (h : Holds records numbers g) (guid : Guid) :
    g.features.toList.filter (fun f => decide (f.guid = guid)) = (entriesOf records guid).map
      (fun entry => entry.1.toFeature entry.2 (numbers entry.2 entry.1)) := by
  rw [h.features_eq, List.mapIdx_eq_zipIdx_map, List.filter_map]
  rfl

theorem Holds.find?_eq_head? (h : Holds records numbers g) (guid : Guid) :
    g.find? guid = (g.declarations guid).head? := by
  unfold find?
  rw [h.lookup_firsts_eq, h.positionsOf_eq, positionsIn_eq_map_entriesOf, h.declarations_eq]
  cases hentries : entriesOf records guid with
  | nil => rfl
  | cons entry rest =>
      have hentry : entry ∈ entriesOf records guid := by simp [hentries]
      exact h.getElem?_of_mem_entriesOf hentry

theorem Holds.contains_iff_declarations_ne_nil (h : Holds records numbers g) (guid : Guid) :
    g.contains guid = true <-> g.declarations guid ≠ [] := by
  rw [h.contains_iff, h.declarations_eq, ne_eq, List.map_eq_nil_iff,
    <- List.map_eq_nil_iff (f := Prod.snd), <- positionsIn_eq_map_entriesOf,
    positionsIn_eq_nil_iff]
  simp

end Holds

variable {records : List Record} {tolerate : Bool} {g : Graph}

theorem outgoing_eq_filter (h : build records tolerate = .ok g) (guid : Guid) :
    g.outgoing guid =
      if g.declarations guid = [] then .error { guid := guid }
      else .ok (g.edges.toList.filter (fun e => decide (e.source = guid))) := by
  unfold outgoing
  rw [edgesFrom_eq_filter h]
  have hknown := (holds_of_build h).contains_iff_declarations_ne_nil guid
  by_cases hnone : g.declarations guid = []
  · rw [if_pos hnone, if_neg (fun hcontains => hknown.mp hcontains hnone)]
  · rw [if_neg hnone, if_pos (hknown.mpr hnone)]

/-- The numbers that the declarations of a guid list are those of its edges, in table order. -/
theorem flatMap_edges_declarations (h : build records tolerate = .ok g) (guid : Guid) :
    (g.declarations guid).flatMap (fun f => f.edges.map (fun n => g.edges[n]?)) =
      (g.edges.toList.filter (fun e => decide (e.source = guid))).map some := by
  have hread : forall entry, entry ∈ entriesOf records guid ->
      (numbersIn records entry.2 entry.1).map (fun n => g.edges[n]?) =
        (edgesIn records entry).map some := by
    intro entry hentry
    simp only [<- Array.getElem?_toList, edges_of_build h]
    exact map_getElem?_numbersIn (mem_entriesOf.mp hentry).left
  rw [(holds_of_build h).declarations_eq, edges_of_build h, filter_source_tableOf, List.flatMap_map,
    List.map_flatMap]
  exact List.flatMap_congr hread

/-- Whatever the guid, lookups in a built graph agree with scans. -/
theorem scansAlike_of_build (h : build records tolerate = .ok g) (guid : Guid) :
    ScansAlike g guid where
  declarations_eq := by
    rw [(holds_of_build h).declarations_eq, (holds_of_build h).filter_guid_features]
  find?_eq := (holds_of_build h).find?_eq_head? guid
  contains_iff := (holds_of_build h).contains_iff_declarations_ne_nil guid
  get_eq := by
    unfold get
    rw [(holds_of_build h).find?_eq_head?]
    cases (g.declarations guid).head? <;> rfl
  outgoing_eq := outgoing_eq_filter h guid
  outgoingOfKind_eq kind := by
    unfold outgoingOfKind
    rw [outgoing_eq_filter h]
    split <;> rfl
  listed_eq := flatMap_edges_declarations h guid

/-- Guids next to each other and at both ends of the range: one declared twice, one without edges,
one that is not declared. -/
theorem scansAlike_neighbouring_guids :
    let records : List Record :=
      [{ guid := 9223372036854775807, name := "a",
         links := [{ target := 6, kind := .complex },
           { target := -9223372036854775808, kind := .alternative }] },
        { guid := 5, name := "b" },
        { guid := 4, name := "c", links := [{ target := 6, kind := .incompatible }] },
        { guid := -9223372036854775808, name := "d", links := [{ target := 5, kind := .complex }] },
        { guid := 6, name := "e", links := [{ target := 4, kind := .incompatible }] },
        { guid := 4, name := "f", links := [{ target := 6, kind := .complex }] }]
    let g := ofRecords records
    build records true = .ok g ∧
      ScansAlike g 4 ∧ ScansAlike g 5 ∧ ScansAlike g 7 ∧ ScansAlike g 9223372036854775807 ∧
      (g.declarations 4).map (fun f => (f.name, f.edges)) = [("c", [1]), ("f", [2])] ∧
      (g.find? 4).map (fun f => f.position) = some 2 ∧
      (g.outgoing 4).map (List.map Edge.sourcePosition) = .ok [2, 5] ∧
      g.outgoing 5 = .ok [] ∧ g.outgoing 7 = .error { guid := 7 } ∧ g.contains 7 = false ∧
      (g.outgoing 9223372036854775807).map (List.map Edge.target) =
        .ok [6, -9223372036854775808] ∧
      (g.outgoingOfKind 4 .complex).map (List.map Edge.sourcePosition) = .ok [5] := by
  intro records g
  have hbuild : build records true = .ok g := rfl
  refine ⟨hbuild, scansAlike_of_build hbuild 4, scansAlike_of_build hbuild 5,
    scansAlike_of_build hbuild 7, scansAlike_of_build hbuild 9223372036854775807, ?_⟩
  decide +kernel

end Graph
end FeatureModel
