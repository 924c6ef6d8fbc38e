import FeatureModel.Proofs.Evaluation.Alike
import FeatureModel.Proofs.Graph.Acceptance
import FeatureModel.Proofs.Graph.Outgoing
import FeatureModel.Proofs.Record.Merging

/-!
# Records of one guid act as one

Records that share guids, where that is tolerated, have a graph exactly when the
merged records have one.  The two graphs answer alike about links, and the rules
about the ends of edges say the same of both.
-/

namespace FeatureModel

/-- Whether two graphs answer alike about links, by guid. -/
structure Graph.Agree (g g' : Graph) : Prop where
  edges_eq : g.toExported.edges = g'.toExported.edges
  kindsBetween_eq : forall a b, g.kindsBetween a b = g'.kindsBetween a b
  hasRelationship_eq : forall a b, g.hasRelationship a b = g'.hasRelationship a b
  outgoing_eq : forall guid, (g.outgoing guid).map (List.map Edge.toExported) =
    (g'.outgoing guid).map (List.map Edge.toExported)

variable {records : List Record}

/-!
## What merging keeps
-/

theorem mandatory_iff_any {guid : Guid} :
    Mandatory records guid <-> (recordsOf records guid).any (fun q => q.mandatory) = true := by
  unfold Mandatory
  simp only [List.any_eq_true, mem_recordsOf, and_assoc]

theorem mandatory_mergeRecords_iff {guid : Guid} :
    Mandatory (mergeRecords records) guid <-> Mandatory records guid := by
  rw [mandatory_iff_any, mandatory_iff_any, recordsOf_mergeRecords]
  cases hfirst : firstOf? records guid with
  | none =>
      rw [recordsOf_eq_nil_of_firstOf?_eq_none hfirst]
      rfl
  | some r =>
      rw [<- guid_eq_of_firstOf? hfirst]
      simp [mergedInto]

theorem joined_mergeRecords_iff {a b : Guid} {kind : RelationshipKind} :
    Joined (mergeRecords records) a b kind <-> Joined records a b kind := by
  unfold Joined
  rw [declares_mergeRecords_iff, declares_mergeRecords_iff]

theorem labelIn_mergeRecords (guid : Guid) :
    labelIn (mergeRecords records) guid = labelIn records guid := by
  unfold labelIn
  rw [firstOf?_mergeRecords, Option.map_map]
  rfl

theorem endsAlike_mergeRecords : EndsAlike records (mergeRecords records) where
  labelIn_eq := labelIn_mergeRecords
  mandatory_iff _ := mandatory_mergeRecords_iff
  joined_iff _ _ _ _ := joined_mergeRecords_iff

theorem excluding_mergeRecords_iff {a b : Guid} :
    Excluding (mergeRecords records) a b <-> Excluding records a b :=
  endsAlike_mergeRecords.excluding_iff

theorem conflicting_mergeRecords_iff {a b : Guid} :
    Conflicting (mergeRecords records) a b <-> Conflicting records a b :=
  endsAlike_mergeRecords.conflicting_iff

theorem pairFinding_mergeRecords (info : RuleInfo) (before after : String) :
    pairFinding info before after (mergeRecords records) =
      pairFinding info before after records :=
  endsAlike_mergeRecords.pairFinding_eq info before after

theorem soundLinks_mergeRecords_iff {guid : Guid} :
    SoundLinks (mergeRecords records) guid <-> SoundLinks records guid := by
  simp only [soundLinks_iff, linksOf_mergeRecords, exists_mergeRecords_iff]

namespace Graph

theorem guidsOf_mergeRecords (records : List Record) :
    guidsOf (mergeRecords records) = guidsOf records := by
  refine Runs.eq_of_mem_iff_of_pairwise (fun _ _ => Int.lt_asymm) (Runs.pairwise_lt_ascending _)
    (Runs.pairwise_lt_ascending _) ?_
  intro guid
  show guid ∈ guidsOf (mergeRecords records) <-> guid ∈ guidsOf records
  rw [mem_guidsOf, mem_guidsOf]
  exact exists_mergeRecords_iff

theorem exported_tableOf_mergeRecords (records : List Record) :
    (tableOf (mergeRecords records)).map Edge.toExported =
      (tableOf records).map Edge.toExported := by
  rw [map_toExported_tableOf, map_toExported_tableOf, guidsOf_mergeRecords]
  simp only [linksOf_mergeRecords]

theorem build_isOk_iff_mergeRecords :
    (exists g, build records true = .ok g) <-> exists g, build (mergeRecords records) false = .ok g := by
  rw [build_isOk_iff_soundLinks, build_isOk_iff_soundLinks]
  simp only [soundLinks_mergeRecords_iff, nodup_guids_mergeRecords, implies_true, true_and,
    reduceCtorEq, false_implies]

theorem agree_mergeRecords {tolerate tolerate' : Bool} {g g' : Graph}
    (h : build records tolerate = .ok g) (h' : build (mergeRecords records) tolerate' = .ok g') :
    Agree g g' := by
  have hholds := holds_of_build h
  have hholds' := holds_of_build h'
  have hedges : g.toExported.edges = g'.toExported.edges := by
    show g.edges.toList.map Edge.toExported = g'.edges.toList.map Edge.toExported
    rw [edges_of_build h, edges_of_build h', exported_tableOf_mergeRecords]
  have hkinds : forall a b, g.kindsBetween a b = g'.kindsBetween a b := by
    intro a b
    apply KindSet.ext_contains
    intro kind
    rw [Bool.eq_iff_iff, hholds.contains_kinds, hholds'.contains_kinds, declares_mergeRecords_iff]
  have hcontains : forall guid, g.contains guid = g'.contains guid := by
    intro guid
    rw [Bool.eq_iff_iff, hholds.contains_iff, hholds'.contains_iff, exists_mergeRecords_iff]
  refine ⟨hedges, hkinds, ?_, ?_⟩
  · intro a b
    unfold hasRelationship
    rw [hkinds, hkinds]
  · intro guid
    rw [map_toExported_outgoing h, map_toExported_outgoing h', hedges, hcontains]

end Graph

/-- Records whose repeated guids are tolerated act as the merged records do: both have a graph or
none, the graphs answer alike about links, and the rules about the ends of edges give one report
for both. -/
theorem mergeRecords_acts_alike (records : List Record) :
    ((exists g, Graph.build records true = .ok g) <->
        exists g, Graph.build (mergeRecords records) false = .ok g) ∧
      forall g g', Graph.build records true = .ok g ->
        Graph.build (mergeRecords records) false = .ok g' ->
          g.Agree g' ∧
            forall rules registry, Registry.Reached rules registry ->
              (forall rule, rule ∈ rules -> rule = .edge Builtin.mandatoryIncompatible ∨
                rule = .edge Builtin.conflictingRelationshipKinds) ->
              forall executor mode, exists report,
                compile executor g registry mode = .ok report ∧
                  compile executor g' registry mode = .ok report := by
  refine ⟨Graph.build_isOk_iff_mergeRecords, ?_⟩
  intro g g' h h'
  refine ⟨Graph.agree_mergeRecords h h', ?_⟩
  intro rules registry hreached hrules executor mode
  apply Evaluation.exists_report_of_findsAlike h h' hreached
  intro rule hrule
  rcases hrules rule hrule with heq | heq
  · rw [heq]
    apply Evaluation.findsAlike_of_findsPairs (Builtin.findsPairs_mandatoryIncompatible h)
      (Builtin.findsPairs_mandatoryIncompatible h') (pairFinding_mergeRecords _ _ _)
    exact excluding_mergeRecords_iff
  · rw [heq]
    apply Evaluation.findsAlike_of_findsPairs (Builtin.findsPairs_conflictingRelationshipKinds h)
      (Builtin.findsPairs_conflictingRelationshipKinds h') (pairFinding_mergeRecords _ _ _)
    exact conflicting_mergeRecords_iff

/-- A guid is declared twice, mandatory the second time only, with links of both records; merged, it
is excluded by another guid as before. -/
theorem mergeRecords_acts_alike_on_interleaved :
    let records : List Record :=
      [{ guid := 7, name := "first", links := [{ target := -3, kind := .incompatible }] },
        { guid := -3, name := "other", mandatory := true },
        { guid := 7, name := "second", mandatory := true,
          links := [{ target := -3, kind := .alternative }] }]
    let registry := (Registry.empty.add (.edge Builtin.conflictingRelationshipKinds)).add
      (.edge Builtin.mandatoryIncompatible)
    mergeRecords records =
        [{ guid := 7, name := "first", mandatory := true,
            links := [{ target := -3, kind := .incompatible },
              { target := -3, kind := .alternative }] },
          { guid := -3, name := "other", mandatory := true }] ∧
      exists g g' report, Graph.build records true = .ok g ∧
        Graph.build (mergeRecords records) false = .ok g' ∧ g ≠ g' ∧ g.Agree g' ∧
          compile (.pool 2) g registry .strict = .ok report ∧
          compile (.pool 2) g' registry .strict = .ok report ∧
          report.violations.map (fun v => (v.ruleId, v.guids)) =
            [("conflicting-relationship-kinds", [-3, 7]), ("mandatory-incompatible", [-3, 7])] := by
  intro records registry
  have hbuild : Graph.build records true = .ok (Graph.ofRecords records) := rfl
  have hmerged : Graph.build (mergeRecords records) false =
      .ok (Graph.ofRecords (mergeRecords records)) := by
    decide +kernel
  have hreached : Registry.Reached
      [.edge Builtin.conflictingRelationshipKinds, .edge Builtin.mandatoryIncompatible] registry :=
    (Registry.Reached.empty.put (.edge Builtin.conflictingRelationshipKinds) rfl rfl).put
      (.edge Builtin.mandatoryIncompatible) rfl rfl
  rcases (mergeRecords_acts_alike records).right _ _ hbuild hmerged with ⟨hagree, hreports⟩
  rcases hreports _ registry hreached (by simp) (.pool 2) .strict with ⟨report, hone, hother⟩
  have hfound : (compile (.pool 2) (Graph.ofRecords records) registry .strict).map
      (fun r => r.violations.map (fun v => (v.ruleId, v.guids))) =
      .ok [("conflicting-relationship-kinds", [-3, 7]), ("mandatory-incompatible", [-3, 7])] := by
    decide +kernel
  rw [hone] at hfound
  exact ⟨rfl, _, _, report, hbuild, hmerged, by decide +kernel, hagree, hone, hother,
    Except.ok.inj hfound⟩

end FeatureModel
