import FeatureModel.Proofs.Graph.Acceptance
import FeatureModel.Proofs.Graph.TableOrder
import Mathlib.Algebra.BigOperators.Group.Finset.Sigma

/-!
# Kinds between guids and the edge table

The kinds declared from one guid toward another are noted while the records are
scanned; the edge table is laid out afterwards, in another order.  Both tell of the
same links: an edge stands in the table for each kind, and only one.
-/

namespace FeatureModel

def Edge.ends (e : Edge) : Guid × Guid :=
  (e.source, e.target)

namespace Graph

def edgesBetween (g : Graph) (source target : Guid) : List Edge :=
  g.edges.toList.filter (fun e => decide (e.ends = (source, target)))

/-- Whether the kinds between guids and the edge table tell of the links of the same records. -/
structure KindsMatchEdges (records : List Record) (g : Graph) : Prop where
  /-- No source, target and kind stand twice in the table. -/
  nodup_exported : (g.edges.toList.map Edge.toExported).Nodup
  contains_iff_edge : forall source target kind,
    (g.kindsBetween source target).contains kind = true <->
      exists e, e ∈ g.edges.toList ∧ e.source = source ∧ e.target = target ∧ e.kind = kind
  contains_iff_declares : forall source target kind,
    (g.kindsBetween source target).contains kind = true <->
      Declares records source { target := target, kind := kind }
  size_eq : forall source target,
    (g.kindsBetween source target).size = (g.edgesBetween source target).length
  /-- Over all pairs of guids the sizes add up to that of the table; pairs with a guid that is not
  declared add nothing. -/
  sum_size : forall guids : Finset Guid, (forall r, r ∈ records -> r.guid ∈ guids) ->
    ∑ source ∈ guids, ∑ target ∈ guids, (g.kindsBetween source target).size = g.edges.size
  kindsBetween_self : forall guid, g.kindsBetween guid guid = KindSet.empty
  kindsBetween_unknown : forall source target,
    ((forall r, r ∈ records -> r.guid ≠ source) ∨ (forall r, r ∈ records -> r.guid ≠ target)) ->
      g.kindsBetween source target = KindSet.empty
  hasRelationship_iff : forall a b, g.hasRelationship a b = true <->
    exists e, e ∈ g.edges.toList ∧
      ((e.source = a ∧ e.target = b) ∨ (e.source = b ∧ e.target = a))

variable {records : List Record} {tolerate : Bool} {g : Graph} {source target : Guid}
  {kind : RelationshipKind}

/-!
## One edge for each kind
-/

theorem exists_edge_iff_declares (h : build records tolerate = .ok g) :
    (exists e, e ∈ g.edges.toList ∧ e.source = source ∧ e.target = target ∧ e.kind = kind) <->
      Declares records source { target := target, kind := kind } := by
  rw [edges_of_build h]
  constructor
  · intro hedge
    rcases hedge with ⟨e, he, hsource, htarget, hkind⟩
    rcases mem_tableOf.mp he with ⟨i, r, number, link, hr, hlink, heq⟩
    rw [heq] at hsource htarget hkind
    rw [<- htarget, <- hkind]
    exact ⟨r, List.mem_of_getElem? hr, hsource, List.mem_of_getElem? hlink⟩
  · intro hdeclares
    rcases hdeclares with ⟨r, hr, hguid, hlink⟩
    rcases List.mem_iff_getElem?.mp hr with ⟨i, hi⟩
    rcases List.mem_iff_getElem?.mp hlink with ⟨number, hnumber⟩
    exact ⟨_, mem_tableOf.mpr ⟨i, r, number, _, hi, hnumber, rfl⟩, hguid, rfl, rfl⟩

theorem contains_kindsBetween_iff (h : build records tolerate = .ok g) :
    (g.kindsBetween source target).contains kind = true <->
      exists e, e ∈ g.edges.toList ∧ e.source = source ∧ e.target = target ∧ e.kind = kind := by
  rw [(holds_of_build h).contains_kinds, exists_edge_iff_declares h]

theorem nodup_exported_of_build (h : build records tolerate = .ok g) :
    (g.edges.toList.map Edge.toExported).Nodup := by
  rw [edges_of_build h, map_toExported_tableOf, List.Nodup, List.pairwise_flatMap]
  constructor
  · intro guid _
    refine (soundLinks_of_build h guid).nodup.map ?_
    intro link link' heq
    cases link
    cases link'
    cases heq
    rfl
  · refine (Runs.pairwise_lt_ascending _).imp ?_
    intro low high hlt e he f hf heq
    rcases List.mem_map.mp he with ⟨link, _, hlow⟩
    rcases List.mem_map.mp hf with ⟨link', _, hhigh⟩
    have hsource : low = high := by
      rw [<- hlow, <- hhigh] at heq
      exact congrArg ExportedEdge.source heq
    exact Int.ne_of_lt hlt hsource

theorem mem_edgesBetween {e : Edge} :
    e ∈ g.edgesBetween source target <->
      e ∈ g.edges.toList ∧ e.source = source ∧ e.target = target := by
  unfold edgesBetween Edge.ends
  rw [List.mem_filter, decide_eq_true_eq, Prod.mk.injEq]

theorem nodup_kind_edgesBetween (h : build records tolerate = .ok g) :
    ((g.edgesBetween source target).map Edge.kind).Nodup := by
  have hexported : (g.edgesBetween source target).map Edge.toExported =
      ((g.edgesBetween source target).map Edge.kind).map (ExportedEdge.mk source target) := by
    rw [List.map_map]
    apply List.map_congr_left
    intro e he
    rcases mem_edgesBetween.mp he with ⟨_, hsource, htarget⟩
    show ExportedEdge.mk e.source e.target e.kind = ExportedEdge.mk source target e.kind
    rw [hsource, htarget]
  have hnodup : ((g.edgesBetween source target).map Edge.toExported).Nodup :=
    (nodup_exported_of_build h).sublist (List.filter_sublist.map Edge.toExported)
  rw [hexported] at hnodup
  exact hnodup.of_map

theorem kinds_perm_edgesBetween (h : build records tolerate = .ok g) (source target : Guid) :
    (g.kindsBetween source target).toList.Perm ((g.edgesBetween source target).map Edge.kind) := by
  have hnodup : (g.kindsBetween source target).toList.Nodup :=
    RelationshipKind.nodup_all.filter _
  rw [List.perm_ext_iff_of_nodup hnodup (nodup_kind_edgesBetween h)]
  intro k
  rw [KindSet.mem_toList, contains_kindsBetween_iff h, List.mem_map]
  simp only [mem_edgesBetween, and_assoc]

theorem size_kindsBetween (h : build records tolerate = .ok g) (source target : Guid) :
    (g.kindsBetween source target).size = (g.edgesBetween source target).length := by
  have hlength := (kinds_perm_edgesBetween h source target).length_eq
  rw [List.length_map] at hlength
  rw [KindSet.size_eq_length_toList]
  exact hlength

/-!
## All pairs of guids
-/

/-- The ends of all edges, as often as there are edges between them. -/
def allEnds (g : Graph) : Multiset (Guid × Guid) :=
  Multiset.map Edge.ends g.edges.toList

theorem length_edgesBetween (g : Graph) (source target : Guid) :
    (g.edgesBetween source target).length = g.allEnds.count (source, target) := by
  unfold edgesBetween allEnds
  rw [Multiset.count_map, Multiset.filter_coe, Multiset.coe_card]
  simp only [eq_comm]

theorem sum_length_edgesBetween {guids : Finset Guid}
    (hguids : forall e, e ∈ g.edges.toList -> e.source ∈ guids ∧ e.target ∈ guids) :
    ∑ source ∈ guids, ∑ target ∈ guids, (g.edgesBetween source target).length = g.edges.size := by
  have hinside : forall ends, ends ∈ g.allEnds -> ends ∈ guids ×ˢ guids := by
    intro ends hends
    rcases Multiset.mem_map.mp hends with ⟨e, he, heq⟩
    rw [<- heq]
    exact Finset.mem_product.mpr (hguids e (Multiset.mem_coe.mp he))
  simp only [length_edgesBetween]
  calc
    ∑ source ∈ guids, ∑ target ∈ guids, g.allEnds.count (source, target)
        = ∑ ends ∈ guids ×ˢ guids, g.allEnds.count ends := by
          rw [Finset.sum_product]
    _ = Multiset.card g.allEnds := Multiset.sum_count_eq_card hinside
    _ = g.edges.size := by
          unfold allEnds
          rw [Multiset.card_map, Multiset.coe_card, Array.length_toList]

theorem ends_mem_of_declared (h : build records tolerate = .ok g) {guids : Finset Guid}
    (hguids : forall r, r ∈ records -> r.guid ∈ guids) :
    forall e, e ∈ g.edges.toList -> e.source ∈ guids ∧ e.target ∈ guids := by
  intro e he
  have hdeclares := (exists_edge_iff_declares h).mp ⟨e, he, rfl, rfl, rfl⟩
  rcases ends_of_declares h hdeclares with ⟨_, ⟨q, hq, hsource⟩, p, hp, htarget⟩
  constructor
  · rw [<- hsource]
    exact hguids q hq
  · rw [<- show p.guid = e.target from htarget]
    exact hguids p hp

/-!
## Guids without edges between them
-/

theorem kindsBetween_eq_empty (h : build records tolerate = .ok g)
    (hnone : forall kind, ¬ Declares records source { target := target, kind := kind }) :
    g.kindsBetween source target = KindSet.empty := by
  apply KindSet.ext_contains
  intro kind
  rw [KindSet.contains_empty, <- Bool.not_eq_true, (holds_of_build h).contains_kinds]
  exact hnone kind

theorem isEmpty_kindsBetween_iff (h : build records tolerate = .ok g) :
    (g.kindsBetween source target).isEmpty = false <->
      exists e, e ∈ g.edges.toList ∧ e.source = source ∧ e.target = target := by
  rw [<- Bool.not_eq_true, KindSet.isEmpty_iff, not_forall]
  simp only [Bool.not_eq_false, contains_kindsBetween_iff h]
  constructor
  · intro hedge
    rcases hedge with ⟨_, e, he, hsource, htarget, _⟩
    exact ⟨e, he, hsource, htarget⟩
  · intro hedge
    rcases hedge with ⟨e, he, hsource, htarget⟩
    exact ⟨e.kind, e, he, hsource, htarget, rfl⟩

theorem hasRelationship_iff_exists_edge (h : build records tolerate = .ok g) (a b : Guid) :
    g.hasRelationship a b = true <->
      exists e, e ∈ g.edges.toList ∧
        ((e.source = a ∧ e.target = b) ∨ (e.source = b ∧ e.target = a)) := by
  unfold hasRelationship
  rw [Bool.or_eq_true, Bool.not_eq_true', Bool.not_eq_true', isEmpty_kindsBetween_iff h,
    isEmpty_kindsBetween_iff h]
  simp only [and_or_left, exists_or]

/-- The kinds noted in the scan and the table laid out after it match. -/
theorem kindsMatchEdges_of_build (h : build records tolerate = .ok g) :
    KindsMatchEdges records g where
  nodup_exported := nodup_exported_of_build h
  contains_iff_edge _ _ _ := contains_kindsBetween_iff h
  contains_iff_declares := (holds_of_build h).contains_kinds
  size_eq := size_kindsBetween h
  sum_size guids hguids := by
    simp only [size_kindsBetween h]
    exact sum_length_edgesBetween (ends_mem_of_declared h hguids)
  kindsBetween_self guid := by
    apply kindsBetween_eq_empty h
    intro kind hdeclares
    exact (ends_of_declares h hdeclares).left rfl
  kindsBetween_unknown source target hunknown := by
    apply kindsBetween_eq_empty h
    intro kind hdeclares
    rcases ends_of_declares h hdeclares with ⟨_, ⟨q, hq, hsource⟩, p, hp, htarget⟩
    rcases hunknown with hnone | hnone
    · exact hnone q hq hsource
    · exact hnone p hp htarget
  hasRelationship_iff := hasRelationship_iff_exists_edge h

/-- Two records of one guid that declare different kinds toward another guid, and one kind back. -/
theorem kindsMatchEdges_of_shared_pair :
    let records : List Record :=
      [{ guid := 8, name := "a", links := [{ target := 3, kind := .complex },
          { target := -5, kind := .alternative }] },
        { guid := 3, name := "b", links := [{ target := 8, kind := .complex }] },
        { guid := 8, name := "c", links := [{ target := 3, kind := .incompatible }] },
        { guid := -5, name := "d" }]
    let g := ofRecords records
    build records true = .ok g ∧ KindsMatchEdges records g ∧
      g.edges.toList.map Edge.toExported =
        [{ source := 3, target := 8, kind := .complex },
          { source := 8, target := 3, kind := .complex },
          { source := 8, target := -5, kind := .alternative },
          { source := 8, target := 3, kind := .incompatible }] ∧
      (g.kindsBetween 8 3).toList = [.incompatible, .complex] ∧
      (g.kindsBetween 3 8).toList = [.complex] ∧ (g.kindsBetween (-5) 8).toList = [] ∧
      (g.kindsBetween 8 3).size = 2 ∧ (g.kindsBetween 3 8).size = 1 ∧
      (g.kindsBetween 8 (-5)).size = 1 ∧ g.edges.size = 4 ∧
      g.hasRelationship (-5) 8 = true ∧ g.hasRelationship 3 (-5) = false := by
  intro records g
  have hbuild : build records true = .ok g := rfl
  refine ⟨hbuild, kindsMatchEdges_of_build hbuild, ?_⟩
  decide +kernel

end Graph
end FeatureModel
