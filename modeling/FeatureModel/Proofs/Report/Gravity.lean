import FeatureModel.Proofs.Report.Members

/-!
# How grave a defect is

The gist of a finding is its defect and its severity, however its guids are spelled.
A list of findings gives each defect the greatest severity at which it was found, or
none.  A report holds every defect at that severity and takes nothing else from the
list, in whatever way the findings are sorted.
-/

namespace FeatureModel

/-- What a finding says, however its guids are spelled. -/
def Violation.gist (v : Violation) : DefectKey × Severity :=
  (v.key, v.severity)

/-- A list brought into the order of a comparison in some way: elements that compare as equal may
come in any order. -/
def Sorting.Sorts {α : Type} (cmp : α -> α -> Ordering) (xs ys : List α) : Prop :=
  ys.Perm xs ∧ Ascending cmp ys

theorem Sorting.Sorts.eq_sortBy {α : Type} {cmp : α -> α -> Ordering} [Std.TransCmp cmp]
    [Std.LawfulEqCmp cmp] {xs ys : List α} (h : Sorts cmp xs ys) : ys = sortBy cmp xs :=
  eq_of_perm_of_ascending h.right (ascending_sortBy cmp xs)
    (h.left.trans (sortBy_perm cmp xs).symm)

theorem Sorting.sorts_sortBy {α : Type} (cmp : α -> α -> Ordering) [Std.TransCmp cmp]
    (xs : List α) : Sorts cmp xs (sortBy cmp xs) :=
  ⟨sortBy_perm cmp xs, ascending_sortBy cmp xs⟩

namespace Report

open Violation

/-- The greatest severity at which a defect was found, if it was found at all. -/
def gravest (findings : List Violation) (k : DefectKey) : Option Severity :=
  if (k, .error) ∈ findings.map gist then
    some .error
  else if (k, .warning) ∈ findings.map gist then
    some .warning
  else
    none

/-- Whether some way of sorting the findings, by defect and then for the report, leads to a
report. -/
def Reaches (findings : List Violation) (mode : Mode) (r : Report) : Prop :=
  exists grouped arranged,
    Sorting.Sorts defectOrder (findings.map normalize) grouped ∧
      Sorting.Sorts reportOrder (Runs.heads sameDefect grouped) arranged ∧
        r = { isValid := verdict mode (countOf .error arranged) (countOf .warning arranged)
              mode := mode
              violations := arranged
              errorCount := countOf .error arranged
              warningCount := countOf .warning arranged }

/-- Sorting leaves no choice, since both orders tell different findings apart. -/
theorem reaches_iff_eq_render {findings : List Violation} {mode : Mode} {r : Report} :
    Reaches findings mode r <-> r = render findings mode := by
  constructor
  · intro h
    rcases h with ⟨grouped, arranged, hgrouped, harranged, hr⟩
    rw [hgrouped.eq_sortBy] at harranged
    rw [hr, harranged.eq_sortBy]
    rfl
  · intro h
    exact ⟨_, _, Sorting.sorts_sortBy _ _, Sorting.sorts_sortBy _ _, h⟩

/-!
## The gravity of a defect
-/

theorem mem_gists_iff {findings : List Violation} {k : DefectKey} {s : Severity} :
    (k, s) ∈ findings.map gist <->
      exists w, w ∈ findings ∧ w.key = k ∧ w.severity = s := by
  simp only [List.mem_map, gist, Prod.mk.injEq]

theorem gravest_eq_some_iff {findings : List Violation} {k : DefectKey} {s : Severity} :
    gravest findings k = some s <->
      (exists w, w ∈ findings ∧ w.key = k ∧ w.severity = s) ∧
        forall w, w ∈ findings -> w.key = k -> s.rank ≤ w.severity.rank := by
  unfold gravest
  by_cases herror : (k, .error) ∈ findings.map gist
  · rw [if_pos herror]
    rcases mem_gists_iff.mp herror with ⟨w, hw, hkey, hseverity⟩
    constructor
    · intro h
      cases h
      exact ⟨⟨w, hw, hkey, hseverity⟩, fun _ _ _ => Nat.zero_le _⟩
    · intro h
      have hle := h.right w hw hkey
      rw [hseverity] at hle
      rw [Severity.rank_injective (Nat.le_zero.mp hle) (s := s) (t := .error)]
  · rw [if_neg herror]
    have hwarning : forall w, w ∈ findings -> w.key = k -> w.severity = .warning := by
      intro w hw hkey
      cases hseverity : w.severity with
      | warning => rfl
      | error => exact absurd (mem_gists_iff.mpr ⟨w, hw, hkey, hseverity⟩) herror
    by_cases hfound : (k, .warning) ∈ findings.map gist
    · rw [if_pos hfound]
      constructor
      · intro h
        cases h
        refine ⟨mem_gists_iff.mp hfound, ?_⟩
        intro w hw hkey
        rw [hwarning w hw hkey]
      · intro h
        rcases h.left with ⟨w, hw, hkey, hseverity⟩
        rw [<- hseverity, hwarning w hw hkey]
    · rw [if_neg hfound]
      constructor
      · intro h
        cases h
      · intro h
        rcases h.left with ⟨w, hw, hkey, _⟩
        exact absurd (mem_gists_iff.mpr ⟨w, hw, hkey, hwarning w hw hkey⟩) hfound

theorem gravest_congr {xs ys : List Violation}
    (h : forall s, s ∈ xs.map gist <-> s ∈ ys.map gist) (k : DefectKey) :
    gravest xs k = gravest ys k := by
  unfold gravest
  simp only [h]

theorem gravest_insert_warning {before after : List Violation} {w : Violation}
    (hwarning : w.severity = .warning) (herror : (w.key, .error) ∈ (before ++ after).map gist)
    (k : DefectKey) :
    gravest (before ++ w :: after) k = gravest (before ++ after) k := by
  have hmem : forall s, s ∈ (before ++ w :: after).map gist <->
      s = (w.key, .warning) ∨ s ∈ (before ++ after).map gist := by
    intro s
    rw [<- hwarning]
    simp only [List.map_append, List.map_cons, List.mem_append, List.mem_cons]
    exact or_left_comm
  unfold gravest
  by_cases hk : k = w.key
  · rw [hk, if_pos ((hmem _).mpr (Or.inr herror)), if_pos herror]
  · have hother : forall s, (k, s) ∈ (before ++ w :: after).map gist <->
        (k, s) ∈ (before ++ after).map gist := by
      intro s
      rw [hmem]
      exact or_iff_right (fun h => hk (congrArg Prod.fst h))
    simp only [hother]

/-!
## Reports tell gravity and nothing else
-/

theorem mem_arrange_iff_gravest {findings : List Violation} {v : Violation} :
    v ∈ arrange findings <-> v.IsNormal ∧ gravest findings v.key = some v.severity := by
  rw [mem_arrange_iff, gravest_eq_some_iff]

theorem gravest_arrange (findings : List Violation) (k : DefectKey) :
    gravest (arrange findings) k = gravest findings k := by
  apply Option.ext
  intro s
  constructor
  · intro h
    rcases (gravest_eq_some_iff.mp h).left with ⟨v, hv, hkey, hseverity⟩
    rw [<- hkey, <- hseverity]
    exact (mem_arrange_iff_gravest.mp hv).right
  · intro h
    rcases (gravest_eq_some_iff.mp h).left with ⟨w, _, hkey, hseverity⟩
    have hw : w.normalize ∈ arrange findings := by
      refine mem_arrange_iff_gravest.mpr ⟨isNormal_normalize w, ?_⟩
      rw [key_normalize, severity_normalize, hkey, hseverity]
      exact h
    refine gravest_eq_some_iff.mpr ⟨⟨w.normalize, hw, ?_, hseverity⟩, ?_⟩
    · rw [key_normalize]
      exact hkey
    · intro u hu hukey
      have huw : u = w.normalize := by
        apply eq_of_mem_arrange_of_key_eq hu hw
        rw [hukey, key_normalize, hkey]
      rw [huw, severity_normalize, hseverity]

theorem arrange_eq_iff {xs ys : List Violation} :
    arrange xs = arrange ys <-> forall k, gravest xs k = gravest ys k := by
  constructor
  · intro h k
    rw [<- gravest_arrange xs, h, gravest_arrange]
  · intro h
    refine arrange_eq_of_mem_iff ?_ (pairwise_precedes_arrange ys)
    intro v
    rw [mem_arrange_iff_gravest, mem_arrange_iff_gravest, h]

theorem render_eq_iff {xs ys : List Violation} {mode : Mode} :
    render xs mode = render ys mode <-> forall k, gravest xs k = gravest ys k := by
  rw [<- arrange_eq_iff]
  constructor
  · intro h
    exact congrArg Report.violations h
  · intro h
    unfold render
    rw [h]

/-- A report depends only on the gists of the findings, not on their order, repetitions and
spelling nor on the way of sorting; a warning of what was found as an error makes no difference.
Reports are equal exactly when they are of findings that give each defect the same severity. -/
theorem render_depends_on_gists (mode : Mode) :
    (forall xs ys, (forall s, s ∈ xs.map gist <-> s ∈ ys.map gist) ->
      render xs mode = render ys mode ∧ forall r, Reaches xs mode r <-> r = render ys mode) ∧
    (forall before w after, w.severity = .warning ->
      (w.key, .error) ∈ (before ++ after).map gist ->
        render (before ++ w :: after) mode = render (before ++ after) mode) ∧
    forall xs ys, render xs mode = render ys mode <-> forall k, gravest xs k = gravest ys k := by
  refine ⟨?_, ?_, fun _ _ => render_eq_iff⟩
  · intro xs ys h
    have hsame : render xs mode = render ys mode := render_eq_iff.mpr (gravest_congr h)
    exact ⟨hsame, fun r => hsame ▸ reaches_iff_eq_render⟩
  · intro before w after hwarning herror
    exact render_eq_iff.mpr (gravest_insert_warning hwarning herror)

/-- Two lists that spell and repeat their findings differently, and a warning between two errors
of one defect. -/
theorem render_depends_on_gists_respelled :
    let lone : Violation := { ruleId := "a", severity := .warning, guids := [-5], message := "m" }
    let error : Violation := { ruleId := "a", guids := [2, -1, 2], message := "m" }
    let respelled : Violation := { error with guids := [-1, 2] }
    let warning : Violation := { error with severity := .warning, guids := [2, -1] }
    ((forall s, s ∈ [error, lone].map gist <-> s ∈ [lone, respelled, error, lone].map gist) ∧
        render [error, lone] .strict = render [lone, respelled, error, lone] .strict) ∧
      (warning.severity = .warning ∧ (warning.key, .error) ∈ ([error] ++ [lone]).map gist ∧
        render [error, warning, lone] .strict = render [error, lone] .strict) := by
  intro lone error respelled warning
  have hgists : forall s,
      s ∈ [error, lone].map gist <-> s ∈ [lone, respelled, error, lone].map gist := by
    have hrespelled : respelled.gist = error.gist := by decide
    intro s
    simp only [List.map_cons, List.map_nil, List.mem_cons, hrespelled, List.not_mem_nil]
    tauto
  have herror : (warning.key, .error) ∈ ([error] ++ [lone]).map gist := by
    have hguids : ([2, -1] : List Guid).toFinset = [2, -1, 2].toFinset := by decide
    have hdefect : warning.key = error.key := congrArg (DefectKey.mk "a" · "m") hguids
    rw [hdefect]
    exact List.mem_cons_self
  rcases render_depends_on_gists .strict with ⟨hsame, hwarning, _⟩
  exact ⟨⟨hgists, (hsame _ _ hgists).left⟩, rfl, herror, hwarning [error] warning [lone] rfl herror⟩

end Report
end FeatureModel
