import FeatureModel.Proofs.Evaluation.Alike

/-!
# What the built-in rules overlook

The built-in rules look at the guids, names and mandatory flags of the records, in order,
and at which guids are joined as alternative or as incompatible.  They overlook in which
direction an edge is declared and how often, by which record of a guid, the links of other
kinds, and everything else that is written down about a feature.
-/

namespace FeatureModel

def Record.bare (r : Record) : Record where
  guid := r.guid
  name := r.name
  mandatory := r.mandatory

/-!
## Bare records
-/

section Bare

theorem namesOf_map_bare (records : List Record) (guid : Guid) :
    namesOf (records.map Record.bare) guid = namesOf records guid := by
  unfold namesOf recordsOf
  rw [List.filter_map, List.map_map]
  rfl

theorem sharedGuids_map_bare (records : List Record) :
    sharedGuids (records.map Record.bare) = sharedGuids records := by
  unfold sharedGuids Graph.guidsOf
  simp only [namesOf_map_bare, List.map_map]
  rfl

theorem sharedFinding_map_bare (records : List Record) :
    sharedFinding (records.map Record.bare) = sharedFinding records := by
  funext guid
  unfold sharedFinding
  rw [namesOf_map_bare]

theorem setbackFindings_map_bare (records : List Record) :
    (setbacksIn (records.map Record.bare)).map setbackFindingIn =
      (setbacksIn records).map setbackFindingIn := by
  unfold setbacksIn
  rw [<- List.map_tail, List.zip_map, List.filter_map, List.map_map]
  rfl

theorem labelIn_map_bare (records : List Record) (guid : Guid) :
    labelIn (records.map Record.bare) guid = labelIn records guid := by
  unfold labelIn firstOf?
  rw [List.find?_map, Option.map_map]
  rfl

theorem mandatory_map_bare_iff (records : List Record) (guid : Guid) :
    Mandatory (records.map Record.bare) guid <-> Mandatory records guid := by
  unfold Mandatory
  simp only [List.mem_map, exists_exists_and_eq_and]
  rfl

end Bare

/-!
## Reports told by bare records and joins
-/

section Built

variable {records records' : List Record} {tolerate : Bool} {g g' : Graph}

theorem evaluate_noDuplicateGuid_of_bare (h : Graph.build records tolerate = .ok g) :
    Builtin.noDuplicateGuid.evaluate g =
      .ok ((sharedGuids (records.map Record.bare)).map
        (sharedFinding (records.map Record.bare))) := by
  rw [Builtin.evaluate_noDuplicateGuid (Graph.holds_of_build h), sharedGuids_map_bare,
    sharedFinding_map_bare]

theorem evaluate_monotonicGuid_of_bare (h : Graph.build records tolerate = .ok g) :
    Builtin.monotonicGuid.evaluate g =
      .ok ((setbacksIn (records.map Record.bare)).map setbackFindingIn) := by
  rw [Builtin.evaluate_monotonicGuid (Graph.holds_of_build h), setbackFindings_map_bare]

theorem findsAlike_of_bare (h : Graph.build records tolerate = .ok g)
    (h' : Graph.build records' tolerate = .ok g')
    (hbare : records.map Record.bare = records'.map Record.bare)
    (hends : EndsAlike records records') :
    forall rule, rule ∈ Builtin.all -> Evaluation.FindsAlike g g' rule := by
  rw [Builtin.forall_mem_all]
  refine ⟨?_, ?_, ?_, ?_⟩
  · apply Evaluation.findsAlike_of_evaluate_eq (evaluate_noDuplicateGuid_of_bare h)
    rw [evaluate_noDuplicateGuid_of_bare h', hbare]
  · exact Evaluation.findsAlike_mandatoryIncompatible h h' hends
  · apply Evaluation.findsAlike_of_evaluate_eq (evaluate_monotonicGuid_of_bare h)
    rw [evaluate_monotonicGuid_of_bare h', hbare]
  · exact Evaluation.findsAlike_conflictingRelationshipKinds h h' hends

/-- Records of the same guids, names and mandatory flags, in the same order, whose guids are joined
as alternative and as incompatible alike have one report under the built-in rules. -/
theorem compileRecords_builtin_overlooks (h : Graph.build records tolerate = .ok g)
    (h' : Graph.build records' tolerate = .ok g')
    (hbare : records.map Record.bare = records'.map Record.bare)
    (hjoined : forall a b kind, a ≠ b -> kind = .alternative ∨ kind = .incompatible ->
      (Joined records a b kind <-> Joined records' a b kind))
    (executor : Executor) (mode : Mode) :
    exists report,
      compileRecords executor records tolerate Registry.builtin mode = .ok report ∧
        compileRecords executor records' tolerate Registry.builtin mode = .ok report := by
  have hends : EndsAlike records records' := by
    refine ⟨?_, ?_, ?_⟩
    · intro guid
      rw [<- labelIn_map_bare records', <- hbare, labelIn_map_bare]
    · intro guid
      rw [<- mandatory_map_bare_iff records', <- hbare, mandatory_map_bare_iff]
    -- No guid is joined to itself in a graph.
    · intro a b kind hkind
      by_cases hab : a = b
      · exact iff_of_false (fun hself => Builtin.ne_of_joined h' hself hab)
          (fun hself => Builtin.ne_of_joined h hself hab)
      · exact (hjoined a b kind hab hkind).symm
  rcases Evaluation.exists_report_of_findsAlike h h' Registry.reached_builtin
    (findsAlike_of_bare h h' hbare hends) executor mode with ⟨report, hone, hother⟩
  exact ⟨report, Evaluation.compileRecords_of_compile h hone,
    Evaluation.compileRecords_of_compile h' hother⟩

end Built

/-- Edges are turned around, declared twice, by another record of the guid, among others that are
complex; the report stays the same. -/
theorem compileRecords_builtin_overlooks_mirrored :
    let records : List Record :=
      [{ guid := 7, name := "left", mandatory := true,
          links := [{ target := -3, kind := .incompatible }, { target := -3, kind := .alternative }] },
        { guid := 7, name := "left again" },
        { guid := -3, name := "right", mandatory := true }]
    let records' : List Record :=
      [{ guid := 7, name := "left", mandatory := true, rationale := "kept", bindingTime := .runtime,
          links := [{ target := -3, kind := .complex }] },
        { guid := 7, name := "left again", links := [{ target := -3, kind := .alternative }] },
        { guid := -3, name := "right", mandatory := true,
          links := [{ target := 7, kind := .incompatible }, { target := 7, kind := .alternative }] }]
    exists report,
      compileRecords (.pool 3) records true Registry.builtin .strict = .ok report ∧
        compileRecords (.pool 3) records' true Registry.builtin .strict = .ok report ∧
          report.violations.map (fun v => (v.ruleId, v.guids)) =
            [("conflicting-relationship-kinds", [-3, 7]), ("mandatory-incompatible", [-3, 7]),
              ("no-duplicate-guid", [7]), ("monotonic-guid", [-3]), ("monotonic-guid", [7])] := by
  intro records records'
  have hbuild : Graph.build records true = .ok (Graph.ofRecords records) := rfl
  have hbuild' : Graph.build records' true = .ok (Graph.ofRecords records') := rfl
  have hjoined : forall a b kind, a ≠ b -> kind = .alternative ∨ kind = .incompatible ->
      (Joined records a b kind <-> Joined records' a b kind) := by
    intro a b kind _ hkind
    rcases hkind with heq | heq <;> rw [heq] <;> simp [Joined, Declares, records, records'] <;> tauto
  rcases compileRecords_builtin_overlooks hbuild hbuild' rfl hjoined (.pool 3) .strict with
    ⟨report, hone, hother⟩
  refine ⟨report, hone, hother, ?_⟩
  have hfound : (compileRecords (.pool 3) records true Registry.builtin .strict).map
      (fun r => r.violations.map (fun v => (v.ruleId, v.guids))) =
      .ok [("conflicting-relationship-kinds", [-3, 7]), ("mandatory-incompatible", [-3, 7]),
        ("no-duplicate-guid", [7]), ("monotonic-guid", [-3]), ("monotonic-guid", [7])] := by
    decide +kernel
  rw [hone] at hfound
  exact Except.ok.inj hfound

end FeatureModel
