import FeatureModel.Graph.Build
import Mathlib.Data.List.Induction

/-!
# Entering records without checks

The scan of a list of records leaves the same graph as entering the records one
by one without looking for defects.  After some records are entered, the graph
holds a feature for each of them, the first position and all positions of each
guid, and the kinds of all links declared so far.
-/

namespace FeatureModel

def Declares (records : List Record) (source : Guid) (link : Link) : Prop :=
  exists r, r ∈ records ∧ r.guid = source ∧ link ∈ r.links

def positionsIn (records : List Record) (guid : Guid) : List Nat :=
  (records.zipIdx.filter (fun entry => decide (entry.1.guid = guid))).map Prod.snd

structure IsFirst (records : List Record) (guid : Guid) (position : Nat) (r : Record) : Prop where
  getElem?_eq : records[position]? = some r
  guid_eq : r.guid = guid
  guid_ne : forall i q, i < position -> records[i]? = some q -> q.guid ≠ guid

def Record.toFeature (record : Record) (position : Nat) (edges : List Nat) : Feature where
  toAttributes := record.toAttributes
  position := position
  edges := edges

theorem declares_append {records : List Record} {r : Record} {source : Guid} {link : Link} :
    Declares (records ++ [r]) source link <->
      Declares records source link ∨ (r.guid = source ∧ link ∈ r.links) := by
  constructor
  · intro h
    rcases h with ⟨q, hq, hguid, hlink⟩
    rcases List.mem_append.mp hq with hold | hnew
    · exact Or.inl ⟨q, hold, hguid, hlink⟩
    · rw [List.mem_singleton] at hnew
      rw [hnew] at hguid hlink
      exact Or.inr ⟨hguid, hlink⟩
  · intro h
    rcases h with ⟨q, hq, hguid, hlink⟩ | ⟨hguid, hlink⟩
    · exact ⟨q, List.mem_append_left [r] hq, hguid, hlink⟩
    · exact ⟨r, by simp, hguid, hlink⟩

theorem positionsIn_append (records : List Record) (r : Record) (guid : Guid) :
    positionsIn (records ++ [r]) guid =
      positionsIn records guid ++ (if r.guid = guid then [records.length] else []) := by
  unfold positionsIn
  rw [List.zipIdx_append, List.filter_append, List.map_append]
  by_cases hguid : r.guid = guid <;> simp [hguid]

theorem mem_positionsIn {records : List Record} {guid : Guid} {i : Nat} :
    i ∈ positionsIn records guid <-> exists r, records[i]? = some r ∧ r.guid = guid := by
  simp [positionsIn, List.mem_zipIdx_iff_getElem?]

theorem positionsIn_eq_nil_iff {records : List Record} {guid : Guid} :
    positionsIn records guid = [] <-> forall r, r ∈ records -> r.guid ≠ guid := by
  rw [List.eq_nil_iff_forall_not_mem]
  constructor
  · intro h r hr hguid
    rcases List.mem_iff_getElem?.mp hr with ⟨i, hi⟩
    exact h i (mem_positionsIn.mpr ⟨r, hi, hguid⟩)
  · intro h i hi
    rcases mem_positionsIn.mp hi with ⟨r, hr, hguid⟩
    exact h r (List.mem_of_getElem? hr) hguid

theorem pairwise_lt_positionsIn (records : List Record) (guid : Guid) :
    (positionsIn records guid).Pairwise (fun i j => i < j) := by
  have hall : (records.zipIdx.map Prod.snd).Pairwise (fun i j => i < j) := by
    rw [List.zipIdx_map_snd]
    exact List.pairwise_lt_range'
  exact hall.sublist ((List.filter_sublist (l := records.zipIdx)).map Prod.snd)

theorem head?_positionsIn_eq_some_iff {records : List Record} {guid : Guid} {i : Nat} :
    (positionsIn records guid).head? = some i <-> exists r, IsFirst records guid i r := by
  have hsorted := pairwise_lt_positionsIn records guid
  constructor
  · intro h
    rcases List.head?_eq_some_iff.mp h with ⟨rest, hrest⟩
    rw [hrest] at hsorted
    have hi : i ∈ positionsIn records guid := by simp [hrest]
    rcases mem_positionsIn.mp hi with ⟨r, hr, hguid⟩
    refine ⟨r, hr, hguid, ?_⟩
    intro j q hji hq hqguid
    have hj : j ∈ i :: rest := by
      rw [<- hrest]
      exact mem_positionsIn.mpr ⟨q, hq, hqguid⟩
    rcases List.mem_cons.mp hj with heq | hlater
    · omega
    · have hij : i < j := (List.pairwise_cons.mp hsorted).left j hlater
      omega
  · intro h
    rcases h with ⟨r, hr, hguid, hfirst⟩
    have hi : i ∈ positionsIn records guid := mem_positionsIn.mpr ⟨r, hr, hguid⟩
    cases hpositions : positionsIn records guid with
    | nil =>
        rw [hpositions] at hi
        cases hi
    | cons j rest =>
        rw [hpositions] at hi hsorted
        rcases List.mem_cons.mp hi with heq | hlater
        · rw [heq]
          rfl
        · have hji : j < i := (List.pairwise_cons.mp hsorted).left i hlater
          have hj : j ∈ positionsIn records guid := by simp [hpositions]
          rcases mem_positionsIn.mp hj with ⟨q, hq, hqguid⟩
          exact absurd hqguid (hfirst j q hji hq)

namespace Graph

def noteLink (source : Guid) (kinds : Index (Guid × Guid) KindSet) (link : Link) :
    Index (Guid × Guid) KindSet :=
  kinds.put (source, link.target)
    (((kinds.lookup? (source, link.target)).getD KindSet.empty).insert link.kind).2

def enter (g : Graph) (record : Record) : Graph :=
  addFeature { g with kinds := record.links.foldl (noteLink record.guid) g.kinds }
    record.toAttributes

def entered (records : List Record) : Graph :=
  records.foldl enter empty

/-- Whether a graph holds a list of records, edges apart; each feature lists the numbers of its
edges as told. -/
structure Holds (records : List Record) (numbers : Nat -> Record -> List Nat) (g : Graph) :
    Prop where
  features_eq : g.features.toList = records.mapIdx (fun i r => r.toFeature i (numbers i r))
  lookup_firsts : forall guid, g.firsts.lookup? guid = (positionsIn records guid).head?
  lookup_positions : forall guid, g.positions.lookup? guid =
    if positionsIn records guid = [] then none else some (positionsIn records guid)
  contains_kinds : forall source target kind,
    (g.kindsBetween source target).contains kind = true <->
      Declares records source { target := target, kind := kind }

/-!
## Noting links
-/

def notedKinds (kinds : Index (Guid × Guid) KindSet) (source target : Guid) : KindSet :=
  (kinds.lookup? (source, target)).getD KindSet.empty

theorem contains_noteLink (source : Guid) (kinds : Index (Guid × Guid) KindSet) (link : Link)
    (s t : Guid) (k : RelationshipKind) :
    (notedKinds (noteLink source kinds link) s t).contains k = true <->
      (notedKinds kinds s t).contains k = true ∨
        (source = s ∧ link = { target := t, kind := k }) := by
  cases link with
  | mk target kind =>
      unfold notedKinds noteLink
      rw [Index.lookup?_put]
      by_cases hpair : (s, t) = (source, target)
      · rw [if_pos hpair, hpair]
        cases hpair
        simp [or_comm]
      · rw [if_neg hpair]
        constructor
        · intro hold
          exact Or.inl hold
        · intro h
          rcases h with hold | ⟨hsource, hlink⟩
          · exact hold
          · cases hlink
            exact absurd (by rw [hsource]) hpair

theorem contains_foldl_noteLink (source : Guid) (links : List Link)
    (kinds : Index (Guid × Guid) KindSet) (s t : Guid) (k : RelationshipKind) :
    (notedKinds (links.foldl (noteLink source) kinds) s t).contains k = true <->
      (notedKinds kinds s t).contains k = true ∨
        (source = s ∧ { target := t, kind := k } ∈ links) := by
  induction links generalizing kinds with
  | nil => simp
  | cons link rest ih =>
      rw [List.foldl_cons, ih, contains_noteLink, List.mem_cons]
      constructor
      · intro h
        rcases h with (hold | hnew) | hrest
        · exact Or.inl hold
        · exact Or.inr ⟨hnew.left, Or.inl hnew.right.symm⟩
        · exact Or.inr ⟨hrest.left, Or.inr hrest.right⟩
      · intro h
        rcases h with hold | ⟨hsource, hnew | hrest⟩
        · exact Or.inl (Or.inl hold)
        · exact Or.inl (Or.inr ⟨hsource, hnew.symm⟩)
        · exact Or.inr ⟨hsource, hrest⟩

/-!
## Looking up what is held
-/

section Holds

variable {records : List Record} {numbers : Nat -> Record -> List Nat} {g : Graph}

theorem Holds.positionsOf_eq (h : Holds records numbers g) (guid : Guid) :
    g.positionsOf guid = positionsIn records guid := by
  unfold positionsOf
  rw [h.lookup_positions]
  split
  · next hnil => exact hnil.symm
  · rfl

/-- The two indexes by guid are in step. -/
theorem Holds.lookup_firsts_eq (h : Holds records numbers g) (guid : Guid) :
    g.firsts.lookup? guid = (g.positionsOf guid).head? := by
  rw [h.lookup_firsts, h.positionsOf_eq]

theorem Holds.size_features (h : Holds records numbers g) :
    g.features.size = records.length := by
  rw [<- Array.length_toList, h.features_eq, List.length_mapIdx]

theorem Holds.getElem?_features (h : Holds records numbers g) (i : Nat) :
    g.features[i]? = records[i]?.map (fun r => r.toFeature i (numbers i r)) := by
  rw [<- Array.getElem?_toList, h.features_eq, List.getElem?_mapIdx]

theorem Holds.map_toAttributes (h : Holds records numbers g) :
    g.features.toList.map Feature.toAttributes = records.map Record.toAttributes := by
  rw [h.features_eq]
  apply List.ext_getElem?
  intro i
  rw [List.getElem?_map, List.getElem?_mapIdx, List.getElem?_map, Option.map_map]
  rfl

theorem Holds.find?_eq_some_iff (h : Holds records numbers g) {guid : Guid} {f : Feature} :
    g.find? guid = some f <->
      exists i r, IsFirst records guid i r ∧ f = r.toFeature i (numbers i r) := by
  unfold find?
  rw [h.lookup_firsts]
  constructor
  · intro hfound
    rcases Option.bind_eq_some_iff.mp hfound with ⟨i, hi, hf⟩
    rcases head?_positionsIn_eq_some_iff.mp hi with ⟨r, hr⟩
    rw [h.getElem?_features, hr.getElem?_eq] at hf
    exact ⟨i, r, hr, (Option.some.inj hf).symm⟩
  · intro hfirst
    rcases hfirst with ⟨i, r, hr, hf⟩
    apply Option.bind_eq_some_iff.mpr
    refine ⟨i, head?_positionsIn_eq_some_iff.mpr ⟨r, hr⟩, ?_⟩
    rw [h.getElem?_features, hr.getElem?_eq, hf]
    rfl

end Holds

/-!
## Entering records
-/

theorem holds_empty : Holds [] (fun _ _ => []) empty where
  features_eq := rfl
  lookup_firsts _ := rfl
  lookup_positions _ := rfl
  contains_kinds source target kind := by
    simp [Declares, kindsBetween, empty]

theorem Holds.enter {records : List Record} {g : Graph} (h : Holds records (fun _ _ => []) g)
    (r : Record) : Holds (records ++ [r]) (fun _ _ => []) (g.enter r) where
  features_eq := by
    have hsize := h.size_features
    simp [Graph.enter, addFeature, h.features_eq, hsize, List.mapIdx_append, Record.toFeature]
  lookup_firsts guid := by
    rw [positionsIn_append, List.head?_append, <- h.lookup_firsts]
    simp only [Graph.enter, addFeature, Index.lookup?_emplace, h.size_features]
    by_cases hguid : guid = r.guid
    · simp [hguid]
    · simp [hguid, Ne.symm hguid]
  lookup_positions guid := by
    have hsize := h.size_features
    have hsame : { g with kinds := r.links.foldl (noteLink r.guid) g.kinds }.positionsOf r.guid =
        positionsIn records r.guid := h.positionsOf_eq r.guid
    rw [positionsIn_append]
    simp only [Graph.enter, addFeature, Index.lookup?_put, hsame, hsize]
    by_cases hguid : guid = r.guid
    · simp [hguid]
    · simp [hguid, Ne.symm hguid, h.lookup_positions]
  contains_kinds source target kind := by
    rw [declares_append, <- h.contains_kinds]
    exact contains_foldl_noteLink r.guid r.links g.kinds source target kind

theorem entered_append (records : List Record) (r : Record) :
    entered (records ++ [r]) = (entered records).enter r := by
  simp [entered]

theorem holds_entered (records : List Record) :
    Holds records (fun _ _ => []) (entered records) := by
  induction records using List.reverseRecOn with
  | nil => exact holds_empty
  | append_singleton records r ih =>
      rw [entered_append]
      exact ih.enter r

theorem edges_entered (records : List Record) : (entered records).edges = #[] := by
  induction records using List.reverseRecOn with
  | nil => rfl
  | append_singleton records r ih =>
      rw [entered_append]
      exact ih

end Graph
end FeatureModel
