import FeatureModel.Proofs.Graph.TableOrder
import FeatureModel.Rule.Builtin
import Mathlib.Data.List.Nodup

/-!
# What the rules about guids find

On a graph built from records the rules about guids find what the records say: for
each guid that several of them declare how many they are and under which names, and
for each record whose guid is not greater than the one before it those two records.
-/

namespace FeatureModel

def namesOf (records : List Record) (guid : Guid) : List String :=
  (recordsOf records guid).map (fun r => r.name)

def sharedGuids (records : List Record) : List Guid :=
  (Graph.guidsOf records).filter (fun guid => decide (2 ≤ (namesOf records guid).length))

def sharedFinding (records : List Record) (guid : Guid) : Violation where
  ruleId := "no-duplicate-guid"
  severity := .error
  guids := [guid]
  message := Text.natDecimal (namesOf records guid).length ++ " features share guid " ++
    Text.decimal guid ++ ": " ++
      ", ".intercalate ((namesOf records guid).map (fun name => "'" ++ name ++ "'"))

/-- Neighbours in a list of records of which the second has no greater guid than the first. -/
def setbacksIn (records : List Record) : List (Record × Record) :=
  (records.zip records.tail).filter (fun pair => decide (pair.2.guid ≤ pair.1.guid))

def setbackFindingIn (pair : Record × Record) : Violation where
  ruleId := "monotonic-guid"
  severity := .warning
  guids := [pair.2.guid]
  message := "Feature " ++ pair.2.label ++ " is declared after " ++ pair.1.label ++
    " but its guid is not greater"

variable {records : List Record} {guid : Guid}

theorem length_namesOf (records : List Record) (guid : Guid) :
    (namesOf records guid).length = (records.map (fun r => r.guid)).count guid := by
  unfold namesOf recordsOf
  rw [List.length_map, <- List.countP_eq_length_filter, List.count, List.countP_map]
  rfl

theorem mem_sharedGuids :
    guid ∈ sharedGuids records <-> 2 ≤ (recordsOf records guid).length := by
  unfold sharedGuids namesOf
  rw [List.mem_filter, decide_eq_true_eq, List.length_map, Graph.mem_guidsOf]
  refine and_iff_right_of_imp ?_
  intro hshared
  have hne : recordsOf records guid ≠ [] := by
    intro hnil
    rw [hnil] at hshared
    exact absurd hshared (by decide)
  rcases List.exists_mem_of_ne_nil _ hne with ⟨r, hr⟩
  exact ⟨r, mem_recordsOf.mp hr⟩

theorem pairwise_lt_sharedGuids (records : List Record) :
    (sharedGuids records).Pairwise (fun a b => a < b) :=
  (Runs.pairwise_lt_ascending _).filter _

theorem sharedGuids_eq_nil_iff :
    sharedGuids records = [] <-> (records.map (fun r => r.guid)).Nodup := by
  rw [List.eq_nil_iff_forall_not_mem, List.nodup_iff_count_le_one]
  simp only [<- length_namesOf, mem_sharedGuids, namesOf, List.length_map, Nat.not_le]
  simp only [Nat.lt_succ_iff]

theorem setbacksIn_eq_nil_iff (records : List Record) :
    setbacksIn records = [] <-> (records.map (fun r => r.guid)).Pairwise (fun a b => a < b) := by
  rw [<- List.isChain_iff_pairwise]
  induction records with
  | nil => simp [setbacksIn]
  | cons r rest ih =>
      cases rest with
      | nil => simp [setbacksIn]
      | cons next more =>
          have hrest : setbacksIn (r :: next :: more) = [] <->
              r.guid < next.guid ∧ setbacksIn (next :: more) = [] := by
            unfold setbacksIn
            rw [List.tail_cons, List.zip_cons_cons, List.filter_cons]
            by_cases hback : next.guid ≤ r.guid
            · simp [hback, Int.not_lt.mpr hback]
            · simp [hback, Int.not_le.mp hback]
          rw [hrest, ih]
          exact List.isChain_cons_cons.symm

namespace Builtin

section Holds

variable {numbers : Nat -> Record -> List Nat} {g : Graph}

theorem map_guid_features (h : Graph.Holds records numbers g) :
    g.features.toList.map (fun f => f.guid) = records.map (fun r => r.guid) := by
  have hguids := congrArg (List.map Attributes.guid) h.map_toAttributes
  rw [List.map_map, List.map_map] at hguids
  exact hguids

theorem map_name_sharers (h : Graph.Holds records numbers g) (guid : Guid) :
    (sharers g guid).map (fun f => f.name) = namesOf records guid := by
  have hsame := congrArg
    (fun attributes : List Attributes =>
      (attributes.filter (fun a => decide (a.guid = guid))).map (fun a => a.name))
    h.map_toAttributes
  simp only [List.filter_map, List.map_map] at hsame
  exact hsame

theorem sharedGuid?_eq (h : Graph.Holds records numbers g) (guid : Guid) :
    sharedGuid? g guid =
      if 2 ≤ (namesOf records guid).length then some (sharedFinding records guid) else none := by
  have hnames := map_name_sharers h guid
  have hlength : (sharers g guid).length = (namesOf records guid).length := by
    rw [<- hnames, List.length_map]
  have hquoted : (sharers g guid).map (fun f => "'" ++ f.name ++ "'") =
      (namesOf records guid).map (fun name => "'" ++ name ++ "'") := by
    rw [<- hnames, List.map_map]
    rfl
  unfold sharedGuid?
  simp only [hlength, hquoted]
  by_cases hshared : 2 ≤ (namesOf records guid).length
  · rw [if_neg (Nat.not_lt.mpr hshared), if_pos hshared]
    rfl
  · rw [if_pos (Nat.lt_of_not_le hshared), if_neg hshared]

theorem filterMap_ite_some {α β : Type} {p : α -> Prop} [DecidablePred p] (f : α -> β)
    (xs : List α) :
    xs.filterMap (fun x => if p x then some (f x) else none) =
      (xs.filter (fun x => decide (p x))).map f := by
  induction xs with
  | nil => rfl
  | cons x rest ih =>
      by_cases hx : p x <;> simp [hx, ih]

theorem evaluate_noDuplicateGuid (h : Graph.Holds records numbers g) :
    noDuplicateGuid.evaluate g = .ok ((sharedGuids records).map (sharedFinding records)) := by
  show Except.ok ((Runs.ascending (g.features.toList.map (fun f => f.guid))).filterMap
    (sharedGuid? g)) = _
  rw [map_guid_features h, funext (sharedGuid?_eq h), filterMap_ite_some]
  rfl

theorem evaluate_monotonicGuid (h : Graph.Holds records numbers g) :
    monotonicGuid.evaluate g = .ok ((setbacksIn records).map setbackFindingIn) := by
  have hsame := congrArg
    (fun attributes : List Attributes =>
      ((attributes.zip attributes.tail).filter (fun pair => decide (pair.2.guid ≤ pair.1.guid))).map
        (fun pair => monotonicGuidInfo.finding [pair.2.guid]
          ("Feature " ++ pair.2.label ++ " is declared after " ++ pair.1.label ++
            " but its guid is not greater")))
    h.map_toAttributes
  simp only [<- List.map_tail, List.zip_map, List.filter_map, List.map_map] at hsame
  exact congrArg Except.ok hsame

theorem noDuplicateGuid_clear_iff (h : Graph.Holds records numbers g) :
    noDuplicateGuid.evaluate g = .ok [] <-> (records.map (fun r => r.guid)).Nodup := by
  rw [evaluate_noDuplicateGuid h, Except.ok.injEq, List.map_eq_nil_iff, sharedGuids_eq_nil_iff]

theorem monotonicGuid_clear_iff (h : Graph.Holds records numbers g) :
    monotonicGuid.evaluate g = .ok [] <->
      (records.map (fun r => r.guid)).Pairwise (fun a b => a < b) := by
  rw [evaluate_monotonicGuid h, Except.ok.injEq, List.map_eq_nil_iff, setbacksIn_eq_nil_iff]

end Holds
end Builtin
end FeatureModel
