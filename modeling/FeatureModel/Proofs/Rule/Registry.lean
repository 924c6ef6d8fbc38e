import FeatureModel.Rule.Registry
import Mathlib.Data.List.Nodup

/-!
# Registries that are reached

A registry is reached from the empty one by offers, of which some are accepted
and the others leave it as it was.  Its lists then hold the accepted rules in the
order of their offers, all of them together and each scope for itself.
-/

namespace FeatureModel
namespace Registry

/-!
## One registration
-/

def accept (r : Registry) : Option Candidate -> Except RegistryError Rule
  | none => .error .nullRule
  | some candidate =>
      if candidate.id.isEmpty then
        .error .emptyId
      else if r.contains candidate.id then
        .error (.duplicateId candidate.id)
      else
        match candidate.rule? with
        | some rule => .ok rule
        | none => .error (.scopeNotServed candidate.id)

def add (r : Registry) (rule : Rule) : Registry where
  rules := r.rules ++ [rule]
  graphRules := r.graphRules ++ rule.graph?.toList
  edgeRules := r.edgeRules ++ rule.edge?.toList
  places := r.places.emplace rule.id r.rules.length

@[simp] theorem contains_add (r : Registry) (rule : Rule) (id : String) :
    (r.add rule).contains id = (decide (id = rule.id) || r.contains id) := by
  by_cases h : id = rule.id <;> simp [contains, add, Index.lookup?_emplace, h]

theorem add_eq (r : Registry) (rule : Rule) :
    r.add rule =
      { r.addToScope rule with
        rules := r.rules ++ [rule]
        places := r.places.emplace rule.id r.rules.length } := by
  cases rule <;> simp [add, addToScope, Rule.graph?, Rule.edge?]

/-- An offer is decided on before anything is changed, so a refused one changes nothing. -/
theorem on_register (r : Registry) (offer : Option Candidate) :
    (register offer).on r =
      match r.accept offer with
      | .ok rule => (.ok rule, r.add rule)
      | .error e => (.error e, r) := by
  have hget : (get : Action Registry RegistryError Registry).on r = (.ok r, r) := rfl
  unfold register accept
  rw [Action.on_bind_of_ok hget]
  cases offer with
  | none => rfl
  | some candidate =>
      dsimp only
      split
      · rfl
      · split
        · rfl
        · cases candidate.rule? with
          | none => rfl
          | some rule =>
              show _ = (Except.ok rule, r.add rule)
              rw [add_eq]
              cases rule <;> rfl

theorem on_register_of_accept {r : Registry} {offer : Option Candidate} {rule : Rule}
    (h : r.accept offer = .ok rule) : (register offer).on r = (.ok rule, r.add rule) := by
  rw [on_register, h]

theorem on_register_of_refuse {r : Registry} {offer : Option Candidate} {e : RegistryError}
    (h : r.accept offer = .error e) : (register offer).on r = (.error e, r) := by
  rw [on_register, h]

theorem accept_of_register {r next : Registry} {offer : Option Candidate} {rule : Rule}
    (h : (register offer).on r = (.ok rule, next)) :
    r.accept offer = .ok rule ∧ next = r.add rule := by
  rw [on_register] at h
  cases haccept : r.accept offer with
  | error e =>
      rw [haccept] at h
      cases h
  | ok accepted =>
      rw [haccept] at h
      cases h
      exact ⟨rfl, rfl⟩

theorem eq_of_register_error {r next : Registry} {offer : Option Candidate} {e : RegistryError}
    (h : (register offer).on r = (.error e, next)) : next = r := by
  rw [on_register] at h
  cases haccept : r.accept offer with
  | error e' =>
      rw [haccept] at h
      cases h
      rfl
  | ok accepted =>
      rw [haccept] at h
      cases h

/-!
## Reached registries
-/

/-- A registry reached by offers, with the rules that were accepted, in order. -/
inductive Reached : List Rule -> Registry -> Prop where
  | empty : Reached [] empty
  | accepted {rules : List Rule} {r next : Registry} {offer : Option Candidate} {rule : Rule} :
      Reached rules r -> (register offer).on r = (.ok rule, next) ->
        Reached (rules ++ [rule]) next
  | refused {rules : List Rule} {r next : Registry} {offer : Option Candidate}
      {e : RegistryError} :
      Reached rules r -> (register offer).on r = (.error e, next) -> Reached rules next

structure Lists (rules : List Rule) (r : Registry) : Prop where
  rules_eq : r.rules = rules
  graphRules_eq : r.graphRules = rules.filterMap Rule.graph?
  edgeRules_eq : r.edgeRules = rules.filterMap Rule.edge?

theorem lists_empty : Lists [] empty where
  rules_eq := rfl
  graphRules_eq := rfl
  edgeRules_eq := rfl

theorem Lists.add {rules : List Rule} {r : Registry} (h : Lists rules r) (rule : Rule) :
    Lists (rules ++ [rule]) (r.add rule) where
  rules_eq := by
    show r.rules ++ [rule] = _
    rw [h.rules_eq]
  graphRules_eq := by
    show r.graphRules ++ rule.graph?.toList = _
    rw [h.graphRules_eq, List.filterMap_append]
    cases rule <;> rfl
  edgeRules_eq := by
    show r.edgeRules ++ rule.edge?.toList = _
    rw [h.edgeRules_eq, List.filterMap_append]
    cases rule <;> rfl

theorem Reached.lists {rules : List Rule} {r : Registry} (h : Reached rules r) :
    Lists rules r := by
  induction h with
  | empty => exact lists_empty
  | accepted _ hregister ih =>
      rw [(accept_of_register hregister).right]
      exact ih.add _
  | refused _ hregister ih =>
      rw [eq_of_register_error hregister]
      exact ih

theorem register_toCandidate {r : Registry} {rule : Rule} (hid : rule.id.isEmpty = false)
    (hnew : r.contains rule.id = false) :
    (register (some rule.toCandidate)).on r = (.ok rule, r.add rule) := by
  have hsame : rule.toCandidate.id = rule.id := by cases rule <;> rfl
  apply on_register_of_accept
  simp [accept, hsame, hid, hnew]

theorem Reached.put {rules : List Rule} {r : Registry} (h : Reached rules r) (rule : Rule)
    (hid : rule.id.isEmpty = false) (hnew : r.contains rule.id = false) :
    Reached (rules ++ [rule]) (r.add rule) :=
  h.accepted (register_toCandidate hid hnew)

theorem reached_builtin : Reached Builtin.all builtin :=
  (((Reached.empty.put (.graph Builtin.noDuplicateGuid) rfl rfl).put
    (.edge Builtin.mandatoryIncompatible) rfl rfl).put
    (.graph Builtin.monotonicGuid) rfl rfl).put
    (.edge Builtin.conflictingRelationshipKinds) rfl rfl

/-!
## Identifiers of accepted rules
-/

theorem id_of_rule? {c : Candidate} {rule : Rule} (h : c.rule? = some rule) : rule.id = c.id := by
  unfold Candidate.rule? at h
  split at h
  · cases h
    rfl
  · cases h
    rfl
  · cases h

theorem id_of_register {r next : Registry} {offer : Option Candidate} {rule : Rule}
    (h : (register offer).on r = (.ok rule, next)) :
    rule.id.isEmpty = false ∧ r.contains rule.id = false := by
  have haccept := (accept_of_register h).left
  unfold accept at haccept
  split at haccept
  · cases haccept
  · next candidate =>
      split at haccept
      · cases haccept
      · next hid =>
          split at haccept
          · cases haccept
          · next hnew =>
              split at haccept
              · next found hfound =>
                  cases haccept
                  rw [id_of_rule? hfound]
                  exact ⟨Bool.eq_false_iff.mpr hid, Bool.eq_false_iff.mpr hnew⟩
              · cases haccept

theorem Reached.contains_iff {rules : List Rule} {r : Registry} (h : Reached rules r)
    (id : String) : r.contains id = true <-> id ∈ rules.map Rule.id := by
  induction h with
  | empty => simp
  | accepted _ hregister ih =>
      rw [(accept_of_register hregister).right, contains_add, Bool.or_eq_true, ih,
        decide_eq_true_eq, List.map_append, List.mem_append, List.map_singleton,
        List.mem_singleton, or_comm]
  | refused _ hregister ih =>
      rw [eq_of_register_error hregister]
      exact ih

theorem Reached.nodup_ids {rules : List Rule} {r : Registry} (h : Reached rules r) :
    (rules.map Rule.id).Nodup := by
  induction h with
  | empty => exact List.nodup_nil
  | @accepted rules r next offer rule hreached hregister ih =>
      have hnew : rule.id ∉ rules.map Rule.id := by
        rw [<- hreached.contains_iff, (id_of_register hregister).right]
        exact Bool.false_ne_true
      rw [List.map_append, List.nodup_append]
      refine ⟨ih, List.pairwise_singleton _ _, ?_⟩
      intro a ha b hb hab
      rw [List.map_singleton, List.mem_singleton] at hb
      rw [hab, hb] at ha
      exact hnew ha
  | refused _ _ ih => exact ih

theorem Reached.isEmpty_id {rules : List Rule} {r : Registry} (h : Reached rules r) {rule : Rule}
    (hrule : rule ∈ rules) : rule.id.isEmpty = false := by
  induction h with
  | empty => cases hrule
  | accepted _ hregister ih =>
      rcases List.mem_append.mp hrule with hold | hnew
      · exact ih hold
      · rw [List.mem_singleton.mp hnew]
        exact (id_of_register hregister).left
  | refused _ _ ih => exact ih hrule

/-!
## Rules by identifier
-/

theorem Reached.lookup_places {rules : List Rule} {r : Registry} (h : Reached rules r)
    (id : String) : r.places.lookup? id = rules.findIdx? (fun rule => decide (rule.id = id)) := by
  induction h with
  | empty => rfl
  | @accepted rules r next offer rule hreached hregister ih =>
      rw [(accept_of_register hregister).right, List.findIdx?_append]
      show (r.places.emplace rule.id r.rules.length).lookup? id = _
      rw [Index.lookup?_emplace, hreached.lists.rules_eq, ih]
      by_cases hid : id = rule.id
      · -- The identifier was not taken, so no earlier rule has it.
        have hnone : rules.findIdx? (fun rule => decide (rule.id = id)) = none := by
          rw [List.findIdx?_eq_none_iff]
          intro earlier hearlier
          have hfresh : rule.id ∉ rules.map Rule.id := by
            rw [<- hreached.contains_iff, (id_of_register hregister).right]
            exact Bool.false_ne_true
          apply decide_eq_false
          intro heq
          rw [hid] at heq
          exact hfresh (heq ▸ List.mem_map_of_mem hearlier)
        rw [hid] at ih hnone
        rw [if_pos hid, ih, hid, hnone]
        simp
      · simp [hid, Ne.symm hid]
  | refused _ hregister ih =>
      rw [eq_of_register_error hregister]
      exact ih

theorem Reached.find?_eq {rules : List Rule} {r : Registry} (h : Reached rules r) (id : String) :
    r.find? id = rules.find? (fun rule => decide (rule.id = id)) := by
  rw [List.find?_eq_bind_findIdx?_getElem?, <- h.lookup_places, <- h.lists.rules_eq]
  rfl

theorem Reached.find?_eq_some_iff {rules : List Rule} {r : Registry} (h : Reached rules r)
    {id : String} {rule : Rule} : r.find? id = some rule <-> rule ∈ rules ∧ rule.id = id := by
  rw [h.find?_eq]
  constructor
  · intro hfound
    have hid : rule.id = id := by simpa using List.find?_some hfound
    exact ⟨List.mem_of_find?_eq_some hfound, hid⟩
  · intro hrule
    cases hfound : rules.find? (fun rule => decide (rule.id = id)) with
    | none =>
        have hnot := List.find?_eq_none.mp hfound rule hrule.left
        exact absurd (decide_eq_true hrule.right) hnot
    | some found =>
        have hid : found.id = id := by simpa using List.find?_some hfound
        have hsame : found = rule := List.inj_on_of_nodup_map h.nodup_ids
          (List.mem_of_find?_eq_some hfound) hrule.left (hid.trans hrule.right.symm)
        rw [hsame]

theorem Reached.find?_eq_none_iff {rules : List Rule} {r : Registry} (h : Reached rules r)
    {id : String} : r.find? id = none <-> forall rule, rule ∈ rules -> rule.id ≠ id := by
  rw [h.find?_eq, List.find?_eq_none]
  simp

def only (rule : Rule) : Registry :=
  (empty.registerAll [some rule.toCandidate]).1

theorem Reached.only {rules : List Rule} {r : Registry} (h : Reached rules r) {rule : Rule}
    (hrule : rule ∈ rules) : Reached [rule] (Registry.only rule) := by
  have hregister := register_toCandidate (h.isEmpty_id hrule) (contains_empty rule.id)
  unfold Registry.only
  rw [registerAll_cons_ok hregister]
  exact Reached.empty.accepted hregister

end Registry
end FeatureModel
