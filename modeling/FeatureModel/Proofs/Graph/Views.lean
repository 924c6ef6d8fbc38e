import FeatureModel.Proofs.Graph.FirstDefect
import FeatureModel.Proofs.Graph.Table
import FeatureModel.Rule.Basic

/-!
# Views of edges

An edge of a graph is seen together with the feature that lists its number and
with the first feature of its target.  In a graph built from records every edge
has such a view, and an edge rule is evaluated on exactly that.
-/

namespace FeatureModel
namespace Graph

/-- The feature that lists the number of an edge. -/
def declarer? (g : Graph) (number : Nat) : Option Feature :=
  g.features.toList.find? (fun f => decide (number ∈ f.edges))

def viewAt? (g : Graph) (number : Nat) : Option EdgeView := do
  let edge <- g.edges[number]?
  let source <- g.declarer? number
  let target <- g.find? edge.target
  return { graph := g, edge := edge, source := source, target := target }

def views (g : Graph) : List EdgeView :=
  (List.range g.edges.size).filterMap g.viewAt?

variable {records : List Record} {tolerate : Bool} {g : Graph}

/-!
## Links of built graphs
-/

theorem eq_ofRecords_of_build (h : build records tolerate = .ok g) : g = ofRecords records :=
  (build_eq_ok_iff.mp h).right

theorem holds_of_build (h : build records tolerate = .ok g) :
    Holds records (numbersIn records) g := by
  rw [eq_ofRecords_of_build h]
  exact holds_ofRecords records

theorem edges_of_build (h : build records tolerate = .ok g) :
    g.edges.toList = tableOf records := by
  rw [eq_ofRecords_of_build h, edges_ofRecords]

theorem not_faultAt_of_build (h : build records tolerate = .ok g) (spot : Spot) (fault : Fault) :
    ¬ FaultAt records tolerate spot fault :=
  build_isOk_iff.mp ⟨g, h⟩ spot fault

theorem link_target_of_build (h : build records tolerate = .ok g) {i number : Nat} {r : Record}
    {link : Link}
    (hlink : LinkAt records i number r link) :
    link.target ≠ r.guid ∧ exists q, q ∈ records ∧ q.guid = link.target := by
  have hother : link.target ≠ r.guid := by
    intro hself
    exact not_faultAt_of_build h _ _ (FaultAt.selfRelationship hlink hself)
  refine ⟨hother, ?_⟩
  rw [<- Decidable.not_not (p := exists q, q ∈ records ∧ q.guid = link.target)]
  intro hnone
  have hunknown : forall q, q ∈ records -> q.guid ≠ link.target :=
    fun q hq hguid => hnone ⟨q, hq, hguid⟩
  exact not_faultAt_of_build h _ _ (FaultAt.danglingReference hlink hother hunknown)

theorem exists_isFirst {guid : Guid} (h : exists q, q ∈ records ∧ q.guid = guid) :
    exists i r, IsFirst records guid i r := by
  cases hpositions : positionsIn records guid with
  | nil =>
      rcases h with ⟨q, hq, hguid⟩
      exact absurd hguid (positionsIn_eq_nil_iff.mp hpositions q hq)
  | cons i rest =>
      have hhead : (positionsIn records guid).head? = some i := by rw [hpositions]; rfl
      exact ⟨i, head?_positionsIn_eq_some_iff.mp hhead⟩

/-!
## The view of an edge of a built graph
-/

theorem find?_eq_some_of_unique {α : Type} {p : α -> Bool} {xs : List α} {i : Nat} {x : α}
    (hx : xs[i]? = some x) (hpx : p x = true)
    (hunique : forall j y, xs[j]? = some y -> p y = true -> j = i) :
    xs.find? p = some x := by
  cases hfound : xs.find? p with
  | none =>
      have hnot := List.find?_eq_none.mp hfound x (List.mem_of_getElem? hx)
      exact absurd hpx hnot
  | some y =>
      rcases List.mem_iff_getElem?.mp (List.mem_of_find?_eq_some hfound) with ⟨j, hj⟩
      have hji := hunique j y hj (List.find?_some hfound)
      rw [hji, hx] at hj
      exact hj.symm

/-- The view of the edge of a link: the feature of its record, and the one of the first record
of its target. -/
def viewOf (records : List Record) (entry : Record × Nat) (number : Nat) (link : Link)
    (target : Record × Nat) : EdgeView where
  graph := ofRecords records
  edge := edgeOf records entry number link
  source := entry.1.toFeature entry.2 (numbersIn records entry.2 entry.1)
  target := target.1.toFeature target.2 (numbersIn records target.2 target.1)

theorem declarer?_ofRecords {n : Nat} {e : Edge} (he : (tableOf records)[n]? = some e)
    {r : Record} (hr : records[e.sourcePosition]? = some r) :
    (ofRecords records).declarer? n =
      some (r.toFeature e.sourcePosition (numbersIn records e.sourcePosition r)) := by
  have hfeatures := (holds_ofRecords records).getElem?_features
  apply find?_eq_some_of_unique (i := e.sourcePosition)
  · rw [Array.getElem?_toList, hfeatures, hr]
    rfl
  · exact decide_eq_true ((mem_numbersIn_iff he hr).mpr rfl)
  · intro j f hf hn
    rw [Array.getElem?_toList, hfeatures] at hf
    rcases Option.map_eq_some_iff.mp hf with ⟨q, hq, heq⟩
    rw [<- heq] at hn
    exact ((mem_numbersIn_iff he hq).mp (of_decide_eq_true hn)).symm

theorem find?_ofRecords {guid : Guid} {j : Nat} {q : Record} (hq : IsFirst records guid j q) :
    (ofRecords records).find? guid = some (q.toFeature j (numbersIn records j q)) :=
  (holds_ofRecords records).find?_eq_some_iff.mpr ⟨j, q, hq, rfl⟩

theorem viewAt?_ofRecords {n i number j : Nat} {r q : Record} {link : Link}
    (hr : records[i]? = some r) (hq : IsFirst records link.target j q)
    (he : (tableOf records)[n]? = some (edgeOf records (r, i) number link)) :
    (ofRecords records).viewAt? n = some (viewOf records (r, i) number link (q, j)) := by
  have hedge : (ofRecords records).edges[n]? = some (edgeOf records (r, i) number link) := by
    rw [<- Array.getElem?_toList, edges_ofRecords]
    exact he
  have hsource := declarer?_ofRecords he hr
  have htarget := find?_ofRecords hq
  unfold viewAt?
  rw [hedge, Option.bind_eq_bind, Option.bind_some, hsource, Option.bind_eq_bind,
    Option.bind_some]
  show ((ofRecords records).find? link.target).bind _ = _
  rw [htarget]
  rfl

theorem view_ofRecords {i number j : Nat} {r q : Record} {link : Link}
    (hr : records[i]? = some r) (hq : IsFirst records link.target j q) :
    (ofRecords records).view (edgeOf records (r, i) number link) =
      .ok (viewOf records (r, i) number link (q, j)) := by
  have hfeatures := (holds_ofRecords records).getElem?_features
  have hposition : (edgeOf records (r, i) number link).targetPosition = j := by
    show (positionsIn records link.target).head?.getD 0 = j
    rw [head?_positionsIn_eq_some_iff.mpr ⟨q, hq⟩]
    rfl
  have hsource : (ofRecords records).features[(edgeOf records (r, i) number link).sourcePosition]? =
      some (r.toFeature i (numbersIn records i r)) := by
    rw [hfeatures]
    show records[i]?.map _ = _
    rw [hr]
    rfl
  have htarget : (ofRecords records).features[(edgeOf records (r, i) number link).targetPosition]? =
      some (q.toFeature j (numbersIn records j q)) := by
    rw [hposition, hfeatures, hq.getElem?_eq]
    rfl
  unfold view endAt
  rw [hsource, htarget]
  rfl

theorem exists_view_of_build (h : build records tolerate = .ok g) {n : Nat} {e : Edge}
    (he : g.edges[n]? = some e) :
    exists view : EdgeView, g.viewAt? n = some view ∧ g.view e = .ok view ∧ view.edge = e := by
  rw [eq_ofRecords_of_build h] at he ⊢
  rw [<- Array.getElem?_toList, edges_ofRecords] at he
  rcases mem_tableOf.mp (List.mem_of_getElem? he) with ⟨i, r, number, link, hr, hlink, heq⟩
  rcases exists_isFirst (link_target_of_build h ⟨hr, hlink⟩).right with ⟨j, q, hq⟩
  rw [heq] at he ⊢
  exact ⟨_, viewAt?_ofRecords hr hq he, view_ofRecords hr hq, rfl⟩

theorem map_eq_map_some_filterMap {α β : Type} {f : α -> Option β} {xs : List α}
    (h : forall x, x ∈ xs -> exists y, f x = some y) :
    xs.map f = (xs.filterMap f).map some := by
  induction xs with
  | nil => rfl
  | cons x rest ih =>
      rcases h x (by simp) with ⟨y, hy⟩
      rw [List.map_cons, ih (fun z hz => h z (List.mem_cons_of_mem x hz)),
        List.filterMap_cons_some hy, hy]
      rfl

theorem map_view_edges (h : build records tolerate = .ok g) :
    g.edges.toList.map g.view = g.views.map .ok := by
  have hall : forall n, n ∈ List.range g.edges.size -> exists view, g.viewAt? n = some view := by
    intro n hn
    have hsize : n < g.edges.size := List.mem_range.mp hn
    have he : g.edges[n]? = some g.edges[n] := Array.getElem?_eq_getElem hsize
    rcases exists_view_of_build h he with ⟨view, hview, _⟩
    exact ⟨view, hview⟩
  have hviews : (List.range g.edges.size).map g.viewAt? = g.views.map some :=
    map_eq_map_some_filterMap hall
  apply List.ext_getElem?
  intro n
  have hat := congrArg (fun xs => xs[n]?) hviews
  simp only [List.getElem?_map] at hat
  rw [List.getElem?_map, List.getElem?_map, Array.getElem?_toList]
  cases he : g.edges[n]? with
  | none =>
      rw [List.getElem?_eq_none (by simpa using he)] at hat
      rw [Option.map_eq_none_iff.mp hat.symm]
      rfl
  | some e =>
      rcases exists_view_of_build h he with ⟨view, hview, hof, _⟩
      have hn : n < g.edges.size := (Array.getElem?_eq_some_iff.mp he).1
      rw [List.getElem?_range hn, Option.map_some, hview] at hat
      rcases Option.map_eq_some_iff.mp hat.symm with ⟨same, hsame, heq⟩
      rw [hsame, Option.some.inj heq, Option.map_some, Option.map_some, hof]

theorem map_edge_views (h : build records tolerate = .ok g) :
    g.views.map EdgeView.edge = g.edges.toList := by
  have hseen : forall e, e ∈ g.edges.toList -> (g.view e).map EdgeView.edge = .ok e := by
    intro e he
    rcases List.mem_iff_getElem?.mp he with ⟨n, hn⟩
    rw [Array.getElem?_toList] at hn
    rcases exists_view_of_build h hn with ⟨view, _, hof, hedge⟩
    rw [hof, <- hedge]
    rfl
  apply (List.map_inj_right (f := Except.ok (ε := RuleFailure)) (fun _ _ => Except.ok.inj)).mp
  calc
    (g.views.map EdgeView.edge).map .ok
        = (g.views.map .ok).map (Except.map EdgeView.edge) := by
          rw [List.map_map, List.map_map]
          rfl
    _ = (g.edges.toList.map g.view).map (Except.map EdgeView.edge) := by
          rw [map_view_edges h]
    _ = g.edges.toList.map (fun e => (g.view e).map EdgeView.edge) := by
          rw [List.map_map, Function.comp_def]
    _ = g.edges.toList.map .ok := List.map_congr_left hseen

theorem view_edge_of_mem_views (h : build records tolerate = .ok g) {view : EdgeView}
    (hview : view ∈ g.views) :
    g.view view.edge = .ok view := by
  have hsame := map_view_edges h
  rw [<- map_edge_views h, List.map_map] at hsame
  exact List.map_inj_left.mp hsame view hview

/-!
## Views are the declared links
-/

theorem eq_viewOf_of_mem_views (h : build records tolerate = .ok g) {view : EdgeView}
    (hview : view ∈ g.views) :
    exists i number r link j q, LinkAt records i number r link ∧
      IsFirst records link.target j q ∧ view = viewOf records (r, i) number link (q, j) := by
  have hof := view_edge_of_mem_views h hview
  have he : view.edge ∈ g.edges.toList := by
    rw [<- map_edge_views h]
    exact List.mem_map_of_mem hview
  rw [eq_ofRecords_of_build h] at he hof
  rw [edges_ofRecords] at he
  rcases mem_tableOf.mp he with ⟨i, r, number, link, hr, hlink, heq⟩
  rcases exists_isFirst (link_target_of_build h ⟨hr, hlink⟩).right with ⟨j, q, hq⟩
  refine ⟨i, number, r, link, j, q, ⟨hr, hlink⟩, hq, ?_⟩
  rw [heq, view_ofRecords hr hq] at hof
  exact (Except.ok.inj hof).symm

theorem graph_eq_of_mem_views (h : build records tolerate = .ok g) {view : EdgeView}
    (hview : view ∈ g.views) :
    view.graph = g := by
  rcases eq_viewOf_of_mem_views h hview with ⟨i, number, r, link, j, q, _, _, heq⟩
  rw [heq, eq_ofRecords_of_build h]
  rfl

theorem ends_of_mem_views (h : build records tolerate = .ok g) {view : EdgeView}
    (hview : view ∈ g.views) :
    view.source.guid = view.edge.source ∧ view.target.guid = view.edge.target := by
  rcases eq_viewOf_of_mem_views h hview with ⟨i, number, r, link, j, q, _, hq, heq⟩
  rw [heq]
  exact ⟨rfl, hq.guid_eq⟩

theorem declares_of_mem_views (h : build records tolerate = .ok g) {view : EdgeView}
    (hview : view ∈ g.views) :
    Declares records view.source.guid { target := view.target.guid, kind := view.edge.kind } := by
  rcases eq_viewOf_of_mem_views h hview with ⟨i, number, r, link, j, q, hlink, hq, heq⟩
  have hsame : Link.mk view.target.guid view.edge.kind = link := by
    rw [heq]
    show Link.mk q.guid link.kind = link
    rw [hq.guid_eq]
  refine ⟨r, List.mem_of_getElem? hlink.left, ?_, ?_⟩
  · rw [heq]
    rfl
  · rw [hsame]
    exact List.mem_of_getElem? hlink.right

theorem exists_view_of_declares (h : build records tolerate = .ok g) {source : Guid} {link : Link}
    (hdeclares : Declares records source link) :
    exists view, view ∈ g.views ∧ view.source.guid = source ∧ view.target.guid = link.target ∧
      view.edge.kind = link.kind := by
  rcases hdeclares with ⟨r, hr, hguid, hlink⟩
  rcases List.mem_iff_getElem?.mp hr with ⟨i, hi⟩
  rcases List.mem_iff_getElem?.mp hlink with ⟨number, hnumber⟩
  have he : edgeOf records (r, i) number link ∈ g.views.map EdgeView.edge := by
    rw [map_edge_views h, edges_of_build h]
    exact mem_tableOf.mpr ⟨i, r, number, link, hi, hnumber, rfl⟩
  rcases List.mem_map.mp he with ⟨view, hview, hedge⟩
  rcases ends_of_mem_views h hview with ⟨hsource, htarget⟩
  refine ⟨view, hview, ?_, ?_, ?_⟩
  · rw [hsource, hedge, <- hguid]
    rfl
  · rw [htarget, hedge]
    rfl
  · rw [hedge]
    rfl

theorem ends_of_declares (h : build records tolerate = .ok g) {source : Guid} {link : Link}
    (hdeclares : Declares records source link) :
    source ≠ link.target ∧ (exists q, q ∈ records ∧ q.guid = source) ∧
      exists q, q ∈ records ∧ q.guid = link.target := by
  rcases hdeclares with ⟨r, hr, hguid, hlink⟩
  rcases List.mem_iff_getElem?.mp hr with ⟨i, hi⟩
  rcases List.mem_iff_getElem?.mp hlink with ⟨number, hnumber⟩
  rcases link_target_of_build h ⟨hi, hnumber⟩ with ⟨hother, hdeclared⟩
  rw [hguid] at hother
  exact ⟨Ne.symm hother, ⟨r, hr, hguid⟩, hdeclared⟩

end Graph
end FeatureModel
