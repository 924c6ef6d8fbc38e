import FeatureModel.Proofs.Graph.Acceptance
import FeatureModel.Proofs.Rule.Guids

/-!
# Repeated guids, refused or found

Whether a guid may be declared again is asked twice: building a graph refuses it
unless it is tolerated, and then a rule finds it.  The two agree on which records
repeat a guid, and without such records tolerance makes no difference.
-/

namespace FeatureModel

/-- Whether a record, at a position, is the first that repeats the guid of an earlier one. -/
structure FirstRepeat (records : List Record) (position : Nat) (r : Record) : Prop where
  getElem?_eq : records[position]? = some r
  repeats : exists i q, i < position ∧ records[i]? = some q ∧ q.guid = r.guid
  earliest : forall j s, j < position -> records[j]? = some s ->
    forall i q, i < j -> records[i]? = some q -> q.guid ≠ s.guid

variable {records : List Record}

theorem two_le_length_recordsOf {i j : Nat} {q r : Record} (hq : records[i]? = some q)
    (hr : records[j]? = some r) (hij : i < j) (hguid : q.guid = r.guid) :
    2 ≤ (recordsOf records r.guid).length := by
  have hfront : q ∈ recordsOf (records.take j) r.guid := by
    refine mem_recordsOf.mpr ⟨List.mem_of_getElem? (i := i) ?_, hguid⟩
    rw [List.getElem?_take, if_pos hij]
    exact hq
  have hrest : r ∈ recordsOf (records.drop j) r.guid := by
    refine mem_recordsOf.mpr ⟨List.mem_of_getElem? (i := 0) ?_, rfl⟩
    rw [List.getElem?_drop]
    exact hr
  have hsplit : recordsOf records r.guid =
      recordsOf (records.take j) r.guid ++ recordsOf (records.drop j) r.guid := by
    unfold recordsOf
    rw [<- List.filter_append, List.take_append_drop]
  rw [hsplit, List.length_append]
  exact Nat.add_le_add (List.length_pos_of_mem hfront) (List.length_pos_of_mem hrest)

namespace Graph

variable {g : Graph}

theorem build_eq_of_isOk {tolerate tolerate' : Bool} (h : build records tolerate = .ok g)
    (hok : exists g', build records tolerate' = .ok g') : build records tolerate' = .ok g := by
  rcases hok with ⟨g', hg'⟩
  rw [hg', eq_ofRecords_of_build hg', eq_ofRecords_of_build h]

theorem build_tolerantly (h : build records false = .ok g) : build records true = .ok g := by
  refine build_eq_of_isOk h (build_isOk_iff_soundLinks.mpr ⟨?_, soundLinks_of_build h⟩)
  intro htolerate
  cases htolerate

theorem build_of_nodup {tolerate tolerate' : Bool} (h : build records tolerate = .ok g)
    (hnodup : (records.map (fun r => r.guid)).Nodup) : build records tolerate' = .ok g :=
  build_eq_of_isOk h
    (build_isOk_iff_soundLinks.mpr ⟨fun _ => hnodup, soundLinks_of_build h⟩)

theorem build_strictly_isOk_iff (h : build records true = .ok g) :
    (exists g', build records false = .ok g') <-> (records.map (fun r => r.guid)).Nodup := by
  rw [build_isOk_iff_soundLinks]
  constructor
  · intro hstrict
    exact hstrict.left rfl
  · intro hnodup
    exact ⟨fun _ => hnodup, soundLinks_of_build h⟩

/-- Records that are accepted when repeated guids are tolerated are refused for a repeated guid
only. -/
theorem exists_firstRepeat_of_build (h : build records true = .ok g) {e : StructuralError}
    (he : build records false = .error e) :
    exists i r, FirstRepeat records i r ∧ e.defect = .duplicateGuid ∧ e.guids = [r.guid] := by
  rcases build_eq_error_iff.mp he with ⟨spot, hspot, hbefore⟩
  have hclear := not_faultAt_of_build h
  have hfault := faultAt_of_errorAt? hspot
  generalize htold : e.fault = fault at hfault
  cases hfault with
  | @duplicateGuid i j r first hrecord _ hfirst hearlier =>
      refine ⟨i, r, ⟨hrecord, ⟨j, first, hearlier, hfirst.getElem?_eq, hfirst.guid_eq⟩, ?_⟩,
        congrArg Fault.defect htold, congrArg Fault.guids htold⟩
      intro k s hk hs l q hl hq hguid
      rcases exists_isFirst ⟨q, List.mem_of_getElem? hq, hguid⟩ with ⟨m, p, hp⟩
      have hmk : m < k := Nat.lt_of_le_of_lt (hp.position_le hq hguid) hl
      exact errorAt?_eq_none_iff_not_faultAt.mp (hbefore (.guid k) hk) _
        (FaultAt.duplicateGuid hs rfl hp hmk)
  | selfRelationship hlink hself =>
      exact absurd (FaultAt.selfRelationship hlink hself) (hclear _ _)
  | danglingReference hlink hother hunknown =>
      exact absurd (FaultAt.danglingReference hlink hother hunknown) (hclear _ _)
  | duplicateRelationshipKind hlink hother hknown hearlier hsame hguid htarget hkind =>
      exact absurd (FaultAt.duplicateRelationshipKind hlink hother hknown hearlier hsame hguid
        htarget hkind) (hclear _ _)

end Graph

/-- Records that are accepted without tolerance have the same graph with it.  If they have a graph
with it, they are accepted without it exactly when the rule about repeated guids finds nothing, and
otherwise refused for the first record that repeats a guid, which the rule finds too.  The rule
has one finding for each guid that is declared more than once, with the number of its records and
their names. -/
theorem repeated_guids_refused_or_found (records : List Record) :
    (forall g, Graph.build records false = .ok g -> Graph.build records true = .ok g) ∧
      forall g, Graph.build records true = .ok g ->
        exists found, Builtin.noDuplicateGuid.evaluate g = .ok found ∧
          ((exists g', Graph.build records false = .ok g') <-> found = []) ∧
          (forall e, Graph.build records false = .error e ->
            exists i r, FirstRepeat records i r ∧ e.defect = .duplicateGuid ∧
              e.guids = [r.guid] ∧ exists v, v ∈ found ∧ v.guids = [r.guid]) ∧
          exists guids : List Guid, guids.Pairwise (fun a b => a < b) ∧
            (forall guid, guid ∈ guids <-> 2 ≤ (recordsOf records guid).length) ∧
            found = guids.map (sharedFinding records) := by
  refine ⟨fun _ => Graph.build_tolerantly, ?_⟩
  intro g h
  have hfound := Builtin.evaluate_noDuplicateGuid (Graph.holds_of_build h)
  refine ⟨_, hfound, ?_, ?_, sharedGuids records, pairwise_lt_sharedGuids records,
    fun _ => mem_sharedGuids, rfl⟩
  · rw [Graph.build_strictly_isOk_iff h, List.map_eq_nil_iff, sharedGuids_eq_nil_iff]
  · intro e he
    rcases Graph.exists_firstRepeat_of_build h he with ⟨i, r, hrepeat, hdefect, hguids⟩
    rcases hrepeat.repeats with ⟨j, q, hji, hq, hguid⟩
    have hshared : r.guid ∈ sharedGuids records :=
      mem_sharedGuids.mpr (two_le_length_recordsOf hq hrepeat.getElem?_eq hji hguid)
    exact ⟨i, r, hrepeat, hdefect, hguids, _, List.mem_map_of_mem hshared, rfl⟩

/-- Two guids are repeated.  The record at which the first repetition is seen is refused, and the
rule finds both guids, the lower one first. -/
theorem repeated_guids_refused_or_found_both :
    let records : List Record :=
      [{ guid := 7, name := "a" }, { guid := -3, name := "b" }, { guid := 7, name := "c" },
        { guid := -3, name := "d" }, { guid := 7, name := "e" }]
    exists g found e, Graph.build records true = .ok g ∧
      Graph.build records false = .error e ∧ e.defect = .duplicateGuid ∧ e.guids = [7] ∧
        Builtin.noDuplicateGuid.evaluate g = .ok found ∧
          (exists v, v ∈ found ∧ v.guids = e.guids) ∧
          found.map (fun v => v.message) =
            ["2 features share guid -3: 'b', 'd'", "3 features share guid 7: 'a', 'c', 'e'"] := by
  intro records
  have hbuild : Graph.build records true = .ok (Graph.ofRecords records) := rfl
  have hrefused : Graph.build records false = .error (.duplicateGuid 7 "a" "c") := rfl
  rcases (repeated_guids_refused_or_found records).right _ hbuild with
    ⟨found, hfound, _, hrefusal, _⟩
  rcases hrefusal _ hrefused with ⟨i, r, _, hdefect, hguids, v, hv, hvguids⟩
  have hmessages : (Builtin.noDuplicateGuid.evaluate (Graph.ofRecords records)).map
      (fun vs => vs.map (fun v => v.message)) =
      .ok ["2 features share guid -3: 'b', 'd'", "3 features share guid 7: 'a', 'c', 'e'"] := by
    decide +kernel
  rw [hfound] at hmessages
  exact ⟨_, found, _, hbuild, hrefused, hdefect, rfl, hfound, ⟨v, hv, hvguids.trans hguids.symm⟩,
    Except.ok.inj hmessages⟩

end FeatureModel
