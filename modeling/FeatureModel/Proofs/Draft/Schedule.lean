import FeatureModel.Proofs.InTurn
import FeatureModel.Proofs.Workspace.Action
import Mathlib.Data.List.FinRange
import Mathlib.Data.List.Induction

/-!
# Drafting records call by call

Records are drafted by calls that add their features, in order, and by calls that add
their links.  A link finds its record from the back of the draft, by guid alone; so a
link must come before the feature of a later record of the same guid, and that is
enough.  Links whose source has not been drafted are refused and leave no trace.
-/

namespace FeatureModel
namespace Draft

inductive Call where
  | feature (attributes : Attributes)
  | link (source : Guid) (link : Link)
deriving DecidableEq, Repr

def serve (d : Draft) : Call -> Except UnknownFeature Nat × Draft
  | .feature attributes =>
      (.ok (d.addFeature attributes).records.length, d.addFeature attributes)
  | .link source link =>
      match (addLink source link).on d with
      | (.ok _, next) => (.ok next.records.length, next)
      | (.error e, next) => (.error e, next)

/-- What is done toward a list of records: the feature of a record is drafted, or one of its links,
or a link of no record. -/
inductive Step (records : List Record) where
  | feature (i : Fin records.length)
  | link (i : Fin records.length) (link : Link)
  | stray (source : Guid) (link : Link)

namespace Step

variable {records : List Record}

def call : Step records -> Call
  | feature i => .feature records[i].toAttributes
  | link i l => .link records[i].guid l
  | stray source l => .link source l

def feature? : Step records -> Option (Fin records.length)
  | feature i => some i
  | link _ _ | stray _ _ => none

/-- The link, if it is drafted for the given record. -/
def linkOf? (i : Fin records.length) : Step records -> Option Link
  | link j l => if j = i then some l else none
  | feature _ | stray _ _ => none

def isStray : Step records -> Bool
  | stray _ _ => true
  | feature _ | link _ _ => false

def MayPrecede : Step records -> Step records -> Prop
  -- The links of a record come after its feature,
  | link i _, feature j => i ≠ j
  -- but before the feature of a later record of its guid.
  | feature j, link i _ => i < j -> records[j].guid ≠ records[i].guid
  -- No feature of its source comes before a stray link.
  | feature j, stray source _ => records[j].guid ≠ source
  | feature _, feature _ | link _ _, link _ _ | link _ _, stray _ _ | stray _ _, _ => True

instance instDecidableMayPrecede : (s t : Step records) -> Decidable (s.MayPrecede t)
  | link i _, feature j => inferInstanceAs (Decidable (i ≠ j))
  | feature j, link i _ =>
      inferInstanceAs (Decidable (i < j -> records[j].guid ≠ records[i].guid))
  | feature j, stray source _ => inferInstanceAs (Decidable (records[j].guid ≠ source))
  | feature _, feature _ | link _ _, link _ _ | link _ _, stray _ _ => isTrue trivial
  | stray _ _, feature _ | stray _ _, link _ _ | stray _ _, stray _ _ => isTrue trivial

end Step

/-- Whether steps draft a list of records: the features in order, the links of each record in
order, and no step too early or too late. -/
structure Schedule (records : List Record) (steps : List (Step records)) : Prop where
  features_eq : steps.filterMap Step.feature? = List.finRange records.length
  links_eq : forall i : Fin records.length, steps.filterMap (Step.linkOf? i) = records[i].links
  mayPrecede : steps.Pairwise Step.MayPrecede

/-- What some steps have drafted of a record. -/
def drafted {records : List Record} (steps : List (Step records)) (i : Fin records.length) :
    Record :=
  { records[i] with links := steps.filterMap (Step.linkOf? i) }

def after {records : List Record} (tolerate : Bool) (steps : List (Step records)) : Draft :=
  (inTurn serve { tolerate := tolerate } (steps.map Step.call)).2

/-!
## One step
-/

theorem serve_link_eq (d : Draft) (source : Guid) (link : Link) :
    d.serve (.link source link) =
      match (addLink source link).on d with
      | (.ok _, next) => (.ok next.records.length, next)
      | (.error e, next) => (.error e, next) :=
  rfl

theorem linkLast?_append_cons {before after : List Record} {record : Record} {source : Guid}
    (hguid : record.guid = source) (hafter : forall r, r ∈ after -> r.guid ≠ source) (link : Link) :
    linkLast? source link (before ++ record :: after) =
      some (before ++ { record with links := record.links ++ [link] } :: after) := by
  induction before with
  | nil =>
      show linkLast? source link (record :: after) = _
      rw [linkLast?, linkLast?_eq_none_iff.mpr hafter]
      exact if_pos hguid
  | cons r rest ih => rw [List.cons_append, linkLast?, ih, List.cons_append]

section Steps

variable {records : List Record} {tolerate : Bool} {done rest : List (Step records)}

def progress (tolerate : Bool) (done : List (Step records)) : Draft where
  tolerate := tolerate
  records := (done.filterMap Step.feature?).map (drafted done)

theorem drafted_concat {step : Step records} {i : Fin records.length}
    (h : step.linkOf? i = none) : drafted (done ++ [step]) i = drafted done i := by
  unfold drafted
  rw [List.filterMap_append, List.filterMap_cons_none h, List.filterMap_nil, List.append_nil]

theorem drafted_concat_eq {step : Step records} (h : forall i, step.linkOf? i = none) :
    drafted (done ++ [step]) = drafted done :=
  funext (fun i => drafted_concat (h i))

theorem features_concat {step : Step records} (h : step.feature? = none) :
    (done ++ [step]).filterMap Step.feature? = done.filterMap Step.feature? := by
  rw [List.filterMap_append, List.filterMap_cons_none h, List.filterMap_nil, List.append_nil]

theorem drafted_concat_link (done : List (Step records)) (i : Fin records.length) (l : Link) :
    drafted (done ++ [.link i l]) i =
      { drafted done i with links := (drafted done i).links ++ [l] } := by
  have hlink : (Step.link i l).linkOf? i = some l := if_pos rfl
  unfold drafted
  rw [List.filterMap_append, List.filterMap_cons_some hlink, List.filterMap_nil]

theorem mem_filterMap_feature? {steps : List (Step records)} {i : Fin records.length} :
    i ∈ steps.filterMap Step.feature? <-> .feature i ∈ steps := by
  rw [List.mem_filterMap]
  constructor
  · intro h
    rcases h with ⟨step, hstep, hi⟩
    cases step with
    | feature j =>
        cases hi
        exact hstep
    | link j l => cases hi
    | stray source l => cases hi
  · intro h
    exact ⟨_, h, rfl⟩

theorem drafted_eq_of_feature {i : Fin records.length}
    (h : Schedule records (done ++ .feature i :: rest)) :
    drafted done i = { toAttributes := records[i].toAttributes } := by
  have hlinks : done.filterMap (Step.linkOf? i) = [] := by
    rw [List.filterMap_eq_nil_iff]
    intro step hstep
    have hmay := (List.pairwise_append.mp h.mayPrecede).right.right step hstep _ List.mem_cons_self
    cases step with
    | feature j => rfl
    | link j l => exact if_neg hmay
    | stray source l => rfl
  unfold drafted
  rw [hlinks]

theorem serve_feature {i : Fin records.length}
    (h : Schedule records (done ++ .feature i :: rest)) :
    serve (progress tolerate done) (Step.feature i).call =
      (.ok (progress tolerate (done ++ [.feature i])).records.length,
        progress tolerate (done ++ [.feature i])) := by
  have hnext : (progress tolerate done).addFeature records[i].toAttributes =
      progress tolerate (done ++ [.feature i]) := by
    unfold progress addFeature addRecord
    rw [List.filterMap_append, List.map_append, drafted_concat_eq (fun _ => rfl),
      <- drafted_eq_of_feature h]
    rfl
  show (_, _) = _
  rw [hnext]

/-- When a link is drafted, its record is the last one of its guid. -/
theorem exists_split_of_link {i : Fin records.length} {l : Link}
    (h : Schedule records (done ++ .link i l :: rest)) :
    exists front back, done.filterMap Step.feature? = front ++ i :: back ∧
      i ∉ front ∧ i ∉ back ∧ forall j, j ∈ back -> records[j].guid ≠ records[i].guid := by
  have hpair := List.pairwise_append.mp h.mayPrecede
  have hfeatures := h.features_eq
  rw [List.filterMap_append, List.filterMap_cons_none (f := Step.feature?) rfl] at hfeatures
  have hlt := List.pairwise_lt_finRange records.length
  rw [<- hfeatures, List.pairwise_append] at hlt
  have hin : i ∈ done.filterMap Step.feature? := by
    have hall : i ∈ List.finRange records.length := List.mem_finRange i
    rw [<- hfeatures] at hall
    rcases List.mem_append.mp hall with hdone | hrest
    · exact hdone
    · have hlate := mem_filterMap_feature?.mp hrest
      exact absurd rfl ((List.pairwise_cons.mp hpair.right.left).left _ hlate)
  rcases List.append_of_mem hin with ⟨front, back, hsplit⟩
  have hordered := List.pairwise_append.mp (hsplit ▸ hlt.left)
  refine ⟨front, back, hsplit, ?_, ?_, ?_⟩
  · intro hi
    exact absurd (hordered.right.right i hi i List.mem_cons_self) (lt_irrefl i)
  · intro hi
    exact absurd ((List.pairwise_cons.mp hordered.right.left).left i hi) (lt_irrefl i)
  · intro j hj
    have hij : i < j := (List.pairwise_cons.mp hordered.right.left).left j hj
    have hdrafted : .feature j ∈ done := by
      apply mem_filterMap_feature?.mp
      rw [hsplit]
      exact List.mem_append_right front (List.mem_cons_of_mem i hj)
    exact hpair.right.right _ hdrafted _ List.mem_cons_self hij

theorem serve_link {i : Fin records.length} {l : Link}
    (h : Schedule records (done ++ .link i l :: rest)) :
    serve (progress tolerate done) (Step.link i l).call =
      (.ok (progress tolerate (done ++ [.link i l])).records.length,
        progress tolerate (done ++ [.link i l])) := by
  rcases exists_split_of_link h with ⟨front, back, hsplit, hfront, hback, hguids⟩
  have hother : forall {places : List (Fin records.length)}, i ∉ places ->
      places.map (drafted (done ++ [.link i l])) = places.map (drafted done) := by
    intro places hi
    apply List.map_congr_left
    intro j hj
    have hij : i ≠ j := fun heq => hi (heq ▸ hj)
    exact drafted_concat (if_neg hij)
  have hbefore : (progress tolerate done).records =
      front.map (drafted done) ++ drafted done i :: back.map (drafted done) := by
    unfold progress
    rw [hsplit, List.map_append, List.map_cons]
  have hafter : (progress tolerate (done ++ [.link i l])).records =
      front.map (drafted done) ++
        { drafted done i with links := (drafted done i).links ++ [l] } ::
          back.map (drafted done) := by
    unfold progress
    rw [features_concat rfl, hsplit, List.map_append, List.map_cons, hother hfront, hother hback,
      drafted_concat_link]
  have hlinked : linkLast? records[i].guid l (progress tolerate done).records =
      some (progress tolerate (done ++ [.link i l])).records := by
    have hguid : (drafted done i).guid = records[i].guid := rfl
    rw [hbefore, hafter]
    apply linkLast?_append_cons hguid
    intro r hr
    rcases List.mem_map.mp hr with ⟨j, hj, heq⟩
    rw [<- heq]
    exact hguids j hj
  show serve _ (.link records[i].guid l) = _
  rw [serve_link_eq, on_addLink_of_linked hlinked]
  rfl

theorem progress_concat_stray (tolerate : Bool) (done : List (Step records)) (source : Guid)
    (l : Link) : progress tolerate (done ++ [.stray source l]) = progress tolerate done := by
  unfold progress
  rw [drafted_concat_eq (fun _ => rfl), features_concat rfl]

theorem serve_stray {source : Guid} {l : Link}
    (h : Schedule records (done ++ .stray source l :: rest)) :
    serve (progress tolerate done) (.link source l) =
      (.error { guid := source }, progress tolerate done) := by
  have hunknown : forall r, r ∈ (progress tolerate done).records -> r.guid ≠ source := by
    intro r hr
    rcases List.mem_map.mp hr with ⟨j, hj, heq⟩
    rw [<- heq]
    exact (List.pairwise_append.mp h.mayPrecede).right.right _ (mem_filterMap_feature?.mp hj) _
      List.mem_cons_self
  rw [serve_link_eq, on_addLink_of_unknown hunknown]

theorem serve_step {step : Step records} (h : Schedule records (done ++ step :: rest)) :
    (serve (progress tolerate done) step.call).2 = progress tolerate (done ++ [step]) := by
  cases step with
  | feature i => rw [serve_feature h]
  | link i l => rw [serve_link h]
  | stray source l =>
      show (serve (progress tolerate done) (.link source l)).2 = _
      rw [serve_stray h, progress_concat_stray]

/-!
## Whole schedules
-/

variable {steps : List (Step records)}

theorem after_eq_progress (h : Schedule records steps) (tolerate : Bool)
    {done rest : List (Step records)} (hsteps : steps = done ++ rest) :
    after tolerate done = progress tolerate done := by
  induction done using List.reverseRecOn generalizing rest with
  | nil => rfl
  | append_singleton done step ih =>
      have hsplit : steps = done ++ step :: rest := by
        rw [hsteps, List.append_assoc]
        rfl
      have hdone : after tolerate done = progress tolerate done := ih hsplit
      unfold after at hdone ⊢
      rw [List.map_append, List.map_singleton, inTurn_concat]
      show (serve _ _).2 = _
      rw [hdone, serve_step (hsplit ▸ h)]

theorem after_eq (h : Schedule records steps) (tolerate : Bool) :
    after tolerate steps = { tolerate := tolerate, records := records } := by
  have hlinks : forall i : Fin records.length, drafted steps i = records[i] := by
    intro i
    unfold drafted
    rw [h.links_eq i]
  rw [after_eq_progress h tolerate (List.append_nil steps).symm]
  unfold progress
  rw [h.features_eq, List.map_congr_left (fun i _ => hlinks i)]
  exact congrArg (Draft.mk tolerate) (List.map_getElem_finRange records)

theorem Schedule.own (h : Schedule records steps) :
    Schedule records (steps.filter (fun step => !step.isStray)) where
  features_eq := by
    rw [List.filterMap_filter, <- h.features_eq]
    apply List.filterMap_congr
    intro step _
    cases step <;> rfl
  links_eq i := by
    rw [List.filterMap_filter, <- h.links_eq i]
    apply List.filterMap_congr
    intro step _
    cases step <;> rfl
  mayPrecede := h.mayPrecede.filter _

end Steps

/-- Whether steps make a draft of a list of records, besides refusals. -/
structure Drafts (records : List Record) (tolerate : Bool) (steps : List (Step records)) :
    Prop where
  accepted : forall done step rest, steps = done ++ step :: rest -> step.isStray = false ->
    exists count, (serve (after tolerate done) step.call).1 = .ok count
  /-- A stray link is refused and leaves the draft as it was. -/
  refused : forall done source link rest, steps = done ++ .stray source link :: rest ->
    serve (after tolerate done) (.link source link) =
      (.error { guid := source }, after tolerate done)
  records_eq : (after tolerate steps).records = records
  build_eq : (after tolerate steps).build = Graph.build records tolerate
  after_own : after tolerate (steps.filter (fun step => !step.isStray)) = after tolerate steps

theorem Schedule.drafts {records : List Record} {steps : List (Step records)}
    (h : Schedule records steps) (tolerate : Bool) : Drafts records tolerate steps where
  accepted done step rest hsteps hown := by
    rw [after_eq_progress h tolerate hsteps]
    cases step with
    | feature i => exact ⟨_, congrArg Prod.fst (serve_feature (hsteps ▸ h))⟩
    | link i l => exact ⟨_, congrArg Prod.fst (serve_link (hsteps ▸ h))⟩
    | stray source l => cases hown
  refused done source link rest hsteps := by
    rw [after_eq_progress h tolerate hsteps, serve_stray (hsteps ▸ h)]
  records_eq := by rw [after_eq h]
  build_eq := by rw [after_eq h, build]
  after_own := by rw [after_eq h, after_eq h.own]

/-!
## Calls as commands
-/

def Call.command (draft : Nat) : Call -> Workspace.Command
  | feature attributes => .addFeature draft attributes
  | link source l => .addLink draft source l

def told (answer : Except UnknownFeature Nat) : Except Workspace.Failure Workspace.Answer :=
  (answer.map Workspace.Answer.count).mapError Workspace.Failure.unknownFeature

theorem on_command {w : Workspace} {number : Nat} {d : Draft}
    (hd : w.drafts[number]? = some d) (call : Call) :
    (Workspace.step (call.command number)).on w =
      (told (d.serve call).1, w.withDraft number (d.serve call).2) := by
  cases call with
  | feature attributes =>
      show (Workspace.step (.addFeature number attributes)).on w = _
      rw [Workspace.on_addFeature hd]
      rfl
  | link source l =>
      show (Workspace.step (.addLink number source l)).on w = _
      rw [Workspace.on_addLink hd, serve_link_eq]
      rcases (addLink source l).on d with ⟨_ | _, next⟩ <;> rfl

theorem run_build {w : Workspace} {number : Nat} {d : Draft} (hd : w.drafts[number]? = some d)
    (rest : List Workspace.Command) :
    w.run (.build number :: rest) = w.run (.buildRecords d.records d.tolerate :: rest) :=
  Workspace.run_cons_congr (Workspace.on_build hd) rest

/-- Every schedule of a list of records drafts that list, whatever its interleaving.  A workspace
that makes a draft, carries out the schedule and builds a graph goes on as if it had built the
graph from the records. -/
theorem schedule_drafts_records {records : List Record} {steps : List (Step records)}
    (h : Schedule records steps) (tolerate : Bool) :
    Drafts records tolerate steps ∧
      forall (w : Workspace) (rest : List Workspace.Command),
        w.run (.newDraft tolerate ::
            ((steps.map Step.call).map (Call.command w.drafts.size) ++
              .build w.drafts.size :: rest)) =
          .ok (.draft { tolerate := tolerate }) ::
            ((inTurn serve { tolerate := tolerate } (steps.map Step.call)).1.map told ++
              { w with drafts := w.drafts.push { tolerate := tolerate, records := records } }.run
                (.buildRecords records tolerate :: rest)) := by
  refine ⟨h.drafts tolerate, ?_⟩
  intro w rest
  let start : Draft := { tolerate := tolerate }
  let drafted : Draft := { tolerate := tolerate, records := records }
  have hstart : { w with drafts := w.drafts.push start }.drafts[w.drafts.size]? = some start :=
    Array.getElem?_push_size
  have hdrafted : { w with drafts := w.drafts.push drafted }.drafts[w.drafts.size]? =
      some drafted := Array.getElem?_push_size
  have hafter : (inTurn serve start (steps.map Step.call)).2 = drafted := after_eq h tolerate
  rw [Workspace.run_cons (Workspace.on_newDraft tolerate),
    Workspace.run_calls (Workspace.draftAt w.drafts.size) on_command hstart, hafter]
  show _ :: (_ ++ ({ w with drafts := w.drafts.push start }.withDraft w.drafts.size drafted).run _) =
    _
  rw [Workspace.withDraft_push, run_build hdrafted]

/-- Two records of one guid, whose links come around the features of others and between links that
are refused. -/
theorem schedule_drafts_records_of_one_guid :
    let near : Link := { target := 2, kind := .complex }
    let far : Link := { target := 2, kind := .alternative }
    let records : List Record :=
      [{ guid := 1, name := "a", links := [near, far] }, { guid := 2, links := [{ target := 1 }] },
        { guid := 1, name := "b", links := [{ near with kind := .incompatible }] }]
    let steps : List (Step records) :=
      [.stray 1 near, .feature (0 : Fin 3), .link (0 : Fin 3) near, .stray 2 far,
        .feature (1 : Fin 3), .link (0 : Fin 3) far, .feature (2 : Fin 3), .stray 7 near,
        .link (2 : Fin 3) { near with kind := .incompatible }, .link (1 : Fin 3) { target := 1 }]
    Schedule records steps ∧ Drafts records true steps ∧
      (inTurn serve { tolerate := true } (steps.map Step.call)).1 =
        [.error { guid := 1 }, .ok 1, .ok 1, .error { guid := 2 }, .ok 2, .ok 2, .ok 3,
          .error { guid := 7 }, .ok 3, .ok 3] ∧
      (after true (steps.take 6)).records =
        [{ guid := 1, name := "a", links := [near, far] }, { guid := 2 }] ∧
      (after true steps).records = records := by
  intro near far records steps
  have h : Schedule records steps := ⟨by decide, by decide, by decide⟩
  have hdrafts := (schedule_drafts_records h true).left
  exact ⟨h, hdrafts, by decide, by decide, hdrafts.records_eq⟩

end Draft
end FeatureModel
