import FeatureModel.Proofs.Evaluation.Findings
import FeatureModel.Proofs.Rule.Builtin
import FeatureModel.Proofs.Rule.RepeatedGuids

/-!
# Guids that do not increase

A rule compares the guid of each record with that of the record before it only.  When
it finds nothing, all guids increase, so that none is repeated and the edge table
keeps the order of declaration.  It is the only built-in rule that warns, and without
repeated guids a report keeps each of its warnings.
-/

namespace FeatureModel

/-- Whether the record that follows a position has no greater guid than the one at it. -/
structure FallsBack (records : List Record) (position : Nat) (previous current : Record) :
    Prop where
  previous_eq : records[position]? = some previous
  current_eq : records[position + 1]? = some current
  guid_le : current.guid ≤ previous.guid

/-- Whether findings are those about the records that fall back, one for each in declaration
order. -/
def OnePerSetback (records : List Record) (found : List Violation) : Prop :=
  exists positions : List Nat, positions.Pairwise (fun i j => i < j) ∧
    (forall i, i ∈ positions <-> exists p q, FallsBack records i p q) ∧
    List.Forall₂ (fun i v => exists p q, FallsBack records i p q ∧ v = setbackFindingIn (p, q))
      positions found

variable {records : List Record}

/-!
## Neighbours and their positions
-/

theorem getElem?_zip_tail_eq_some {α : Type} {xs : List α} {i : Nat} {x y : α} :
    (xs.zip xs.tail)[i]? = some (x, y) <-> xs[i]? = some x ∧ xs[i + 1]? = some y := by
  rw [List.getElem?_zip_eq_some, List.getElem?_tail]

/-- The setbacks in a list of records, each with the position of its first record. -/
def setbackEntries (records : List Record) : List ((Record × Record) × Nat) :=
  (records.zip records.tail).zipIdx.filter (fun entry => decide (entry.1.2.guid ≤ entry.1.1.guid))

theorem mem_setbackEntries {p q : Record} {i : Nat} :
    ((p, q), i) ∈ setbackEntries records <-> FallsBack records i p q := by
  unfold setbackEntries
  rw [List.mem_filter, decide_eq_true_eq, List.mem_zipIdx_iff_getElem?, getElem?_zip_tail_eq_some]
  constructor
  · intro h
    exact ⟨h.left.left, h.left.right, h.right⟩
  · intro h
    exact ⟨⟨h.previous_eq, h.current_eq⟩, h.guid_le⟩

theorem map_fst_setbackEntries (records : List Record) :
    (setbackEntries records).map Prod.fst = setbacksIn records := by
  unfold setbackEntries setbacksIn
  rw [<- List.zipIdx_map_fst 0 (records.zip records.tail), List.filter_map, List.zipIdx_map_fst]
  rfl

theorem pairwise_positions_setbackEntries (records : List Record) :
    ((setbackEntries records).map Prod.snd).Pairwise (fun i j => i < j) :=
  List.pairwise_map.mpr ((Graph.pairwise_snd_zipIdx _).sublist List.filter_sublist)

theorem onePerSetback_setbacksIn (records : List Record) :
    OnePerSetback records ((setbacksIn records).map setbackFindingIn) := by
  refine ⟨(setbackEntries records).map Prod.snd, pairwise_positions_setbackEntries records,
    ?_, ?_⟩
  · intro i
    rw [List.mem_map]
    constructor
    · intro h
      rcases h with ⟨⟨⟨p, q⟩, j⟩, hentry, heq⟩
      rw [show j = i from heq] at hentry
      exact ⟨p, q, mem_setbackEntries.mp hentry⟩
    · intro h
      rcases h with ⟨p, q, hback⟩
      exact ⟨((p, q), i), mem_setbackEntries.mpr hback, rfl⟩
  · rw [<- map_fst_setbackEntries, List.map_map, List.forall₂_map_left_iff,
      List.forall₂_map_right_iff, List.forall₂_same]
    rintro ⟨⟨p, q⟩, i⟩ hentry
    exact ⟨p, q, mem_setbackEntries.mp hentry, rfl⟩

theorem nodup_setbackFindings (h : (records.map (fun r => r.guid)).Nodup) :
    ((setbacksIn records).map setbackFindingIn).Nodup := by
  have hzip : (records.zip records.tail).map Prod.snd = records.tail :=
    List.map_snd_zip (by simp)
  have hsecond : ((setbacksIn records).map Prod.snd).Sublist records := by
    refine (List.filter_sublist.map Prod.snd).trans ?_
    rw [hzip]
    exact records.tail_sublist
  have hguids := h.sublist (hsecond.map (fun r => r.guid))
  rw [List.map_map, List.Nodup, List.pairwise_map] at hguids
  rw [List.Nodup, List.pairwise_map]
  refine hguids.imp ?_
  intro a b hne heq
  exact hne (List.singleton_injective (congrArg Violation.guids heq))

/-!
## Graphs of records that do not fall back
-/

section Built

variable {tolerate : Bool} {g : Graph}

theorem Graph.edges_of_ascending (h : build records tolerate = .ok g)
    (hascending : (records.map (fun r => r.guid)).Pairwise (fun a b => a < b)) :
    g.edges.toList = records.zipIdx.flatMap (edgesIn records) := by
  rw [eq_ofRecords_of_build h, edges_ofRecords, tableOf, byGuid_eq_zipIdx hascending]

namespace Evaluation

/-!
## Warnings of a report
-/

theorem severity_eq_warning_iff_builtin {v : Violation}
    (hv : v ∈ Report.arrange ((sequence g Builtin.all).flatMap signed)) :
    v.severity = .warning <-> v.ruleId = Builtin.monotonicGuid.id := by
  have hwarns : forall rule, rule ∈ Builtin.all ->
      (rule.info.severity = .warning <-> rule.id = Builtin.monotonicGuid.id) := by
    rw [Builtin.forall_mem_all]
    decide
  rcases exists_rule_of_mem_arrange hv with ⟨rule, hrule, hid, hseverity⟩
  rw [hid, hseverity]
  exact hwarns rule hrule

theorem filter_monotonicGuid_arrange (g : Graph) :
    (Report.arrange ((sequence g Builtin.all).flatMap signed)).filter
        (fun v => decide (v.ruleId = Builtin.monotonicGuid.id)) =
      Report.arrange (foundBy g (.graph Builtin.monotonicGuid)) :=
  filter_arrange_sequence Registry.reached_builtin.nodup_ids
    (show Rule.graph Builtin.monotonicGuid ∈ Builtin.all by simp [Builtin.all])

theorem warningCount_builtin (g : Graph) (mode : Mode) :
    (Report.render ((sequence g Builtin.all).flatMap signed) mode).warningCount =
      (Report.arrange (foundBy g (.graph Builtin.monotonicGuid))).length := by
  show Report.countOf .warning (Report.arrange _) = _
  rw [Report.countOf_eq_length_filter, <- filter_monotonicGuid_arrange]
  refine congrArg List.length (List.filter_congr ?_)
  intro v hv
  exact decide_eq_decide.mpr (severity_eq_warning_iff_builtin hv)

theorem foundBy_monotonicGuid (h : Graph.build records tolerate = .ok g) :
    foundBy g (.graph Builtin.monotonicGuid) = (setbacksIn records).map setbackFindingIn := by
  rw [foundBy_graph (Builtin.evaluate_monotonicGuid (Graph.holds_of_build h)), List.map_map]
  rfl

theorem arrange_foundBy_monotonicGuid_perm (h : Graph.build records false = .ok g) :
    (Report.arrange (foundBy g (.graph Builtin.monotonicGuid))).Perm
      ((setbacksIn records).map setbackFindingIn) := by
  have hof : forall w, w ∈ (setbacksIn records).map setbackFindingIn ->
      w.IsNormal ∧ w.severity = .warning := by
    intro w hw
    rcases List.mem_map.mp hw with ⟨pair, _, heq⟩
    rw [<- heq]
    exact ⟨List.pairwise_singleton _ _, rfl⟩
  rw [foundBy_monotonicGuid h]
  refine (List.perm_ext_iff_of_nodup (Report.nodup_key_arrange _).of_map
    (nodup_setbackFindings (Graph.nodup_guids_of_build h))).mpr ?_
  intro v
  exact Report.mem_arrange_iff_mem (fun w hw => (hof w hw).left) (fun w hw => (hof w hw).right)

end Evaluation

/-- On records that have a graph the rule about increasing guids has one finding for each record
whose guid is not greater than the one before it, in declaration order.  When it has none, no guid
is repeated, records are accepted with the same graph when repeated guids are not tolerated, and
the edges stand in the order in which their links are declared.  When repeated guids are not
tolerated, the report under the built-in rules has just these findings in the name of the rule,
and counts no other warnings. -/
theorem setbacks_found_and_reported (hbuild : Graph.build records tolerate = .ok g) :
    exists found, Builtin.monotonicGuid.evaluate g = .ok found ∧ OnePerSetback records found ∧
      (found = [] ->
        (records.map (fun r => r.guid)).Nodup ∧ Builtin.noDuplicateGuid.evaluate g = .ok [] ∧
          Graph.build records false = .ok g ∧
          g.edges.toList = records.zipIdx.flatMap (Graph.edgesIn records)) ∧
      (tolerate = false -> forall executor mode, exists report,
        compileRecords executor records tolerate Registry.builtin mode = .ok report ∧
          (report.violations.filter (fun v => decide (v.ruleId = "monotonic-guid"))).Perm found ∧
          report.warningCount = found.length) := by
  have hholds := Graph.holds_of_build hbuild
  refine ⟨(setbacksIn records).map setbackFindingIn, Builtin.evaluate_monotonicGuid hholds,
    onePerSetback_setbacksIn records, ?_, ?_⟩
  · intro hnone
    have hascending := (setbacksIn_eq_nil_iff records).mp (List.map_eq_nil_iff.mp hnone)
    have hnodup : (records.map (fun r => r.guid)).Nodup := hascending.imp Int.ne_of_lt
    exact ⟨hnodup, (Builtin.noDuplicateGuid_clear_iff hholds).mpr hnodup,
      Graph.build_of_nodup hbuild hnodup, Graph.edges_of_ascending hbuild hascending⟩
  · intro hstrict executor mode
    rw [hstrict] at hbuild ⊢
    have hperm := Evaluation.arrange_foundBy_monotonicGuid_perm hbuild
    refine ⟨Report.render ((Evaluation.sequence g Builtin.all).flatMap Evaluation.signed) mode,
      ?_, ?_, ?_⟩
    · exact Evaluation.compileRecords_of_compile hbuild
        (Evaluation.compile_builtin_eq hbuild executor mode)
    · exact (Evaluation.filter_monotonicGuid_arrange g).symm ▸ hperm
    · rw [Evaluation.warningCount_builtin]
      exact hperm.length_eq

end Built

/-- Two steps fall back.  The report has the later one first, whose guid is lower, and so does not
keep the order of the findings. -/
theorem setbacks_found_and_reported_twice :
    let records : List Record :=
      [{ guid := 7, name := "a" }, { guid := -3, name := "b" }, { guid := 0, name := "c" },
        { guid := -5, name := "d" }]
    exists g found report, Graph.build records false = .ok g ∧
      Builtin.monotonicGuid.evaluate g = .ok found ∧ OnePerSetback records found ∧
        found.map (fun v => v.guids) = [[-3], [-5]] ∧
        compileRecords (.pool 2) records false Registry.builtin .lenient = .ok report ∧
        (report.violations.filter (fun v => decide (v.ruleId = "monotonic-guid"))).Perm found ∧
        report.warningCount = 2 ∧
        report.violations.map (fun v => v.message) =
          ["Feature 'd'/-5 is declared after 'c'/0 but its guid is not greater",
            "Feature 'b'/-3 is declared after 'a'/7 but its guid is not greater"] := by
  intro records
  have hbuild : Graph.build records false = .ok (Graph.ofRecords records) := rfl
  rcases setbacks_found_and_reported hbuild with ⟨found, hfound, honce, _, hreports⟩
  rcases hreports rfl (.pool 2) .lenient with ⟨report, hreport, hperm, hcount⟩
  have hguids : (Builtin.monotonicGuid.evaluate (Graph.ofRecords records)).map
      (fun vs => vs.map (fun v => v.guids)) = .ok [[-3], [-5]] := by
    decide +kernel
  have hmessages : (compileRecords (.pool 2) records false Registry.builtin .lenient).map
      (fun r => r.violations.map (fun v => v.message)) =
      .ok ["Feature 'd'/-5 is declared after 'c'/0 but its guid is not greater",
        "Feature 'b'/-3 is declared after 'a'/7 but its guid is not greater"] := by
    decide +kernel
  rw [hfound] at hguids
  rw [hreport] at hmessages
  have hlength : found.length = 2 := by
    simpa using congrArg List.length (Except.ok.inj hguids)
  exact ⟨_, found, report, hbuild, hfound, honce, Except.ok.inj hguids, hreport, hperm,
    hcount.trans hlength, Except.ok.inj hmessages⟩

end FeatureModel
