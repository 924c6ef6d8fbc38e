import FeatureModel.Proofs.Rule.Registry
import FeatureModel.Proofs.Workspace.Action

/-!
# Offers in turn

Offers are made to a registry one after another.  Each is accepted, or refused for the
first reason there is; a refused one leaves the registry as it was.  So the lists of the
registry and its index stay in step with the rules that were accepted.
-/

namespace FeatureModel

def Evaluator.scope : Evaluator -> Scope
  | graph _ => .graph
  | edge _ => .edge

/-- Whether a candidate can evaluate what its scope promises. -/
def Candidate.Serves (c : Candidate) : Prop :=
  c.evaluator.map Evaluator.scope = some c.scope

namespace Registry

/-- Why an offer is refused while rules are registered: the first of the reasons that apply. -/
inductive Refusal (rules : List Rule) : Option Candidate -> RegistryError -> Prop where
  | nullRule : Refusal rules none .nullRule
  | emptyId {c : Candidate} : c.id = "" -> Refusal rules (some c) .emptyId
  | duplicateId {c : Candidate} {rule : Rule} : c.id ≠ "" -> rule ∈ rules -> rule.id = c.id ->
      Refusal rules (some c) (.duplicateId c.id)
  | scopeNotServed {c : Candidate} : c.id ≠ "" -> (forall rule, rule ∈ rules -> rule.id ≠ c.id) ->
      ¬ c.Serves -> Refusal rules (some c) (.scopeNotServed c.id)

def serve (r : Registry) (offer : Option Candidate) : Except RegistryError Rule × Registry :=
  (register offer).on r

def serveAll (r : Registry) : List (Option Candidate) ->
    List (Except RegistryError Rule) × Registry
  | [] => ([], r)
  | offer :: rest =>
      let later := (r.serve offer).2.serveAll rest
      ((r.serve offer).1 :: later.1, later.2)

def acceptedIn (answers : List (Except RegistryError Rule)) : List Rule :=
  answers.filterMap Except.toOption

structure InStep (rules : List Rule) (r : Registry) : Prop where
  rules_eq : r.rules = rules
  nodup_ids : (rules.map Rule.id).Nodup
  id_ne_empty : forall rule, rule ∈ rules -> rule.id ≠ ""
  graphRules_eq :
    r.graphRules.map Rule.graph = rules.filter (fun rule => decide (rule.scope = .graph))
  edgeRules_eq :
    r.edgeRules.map Rule.edge = rules.filter (fun rule => decide (rule.scope = .edge))
  size_eq : r.size = rules.length
  lengths_add : r.graphRules.length + r.edgeRules.length = r.size
  /-- Only one rule has an identifier, and it is found under it. -/
  find?_eq_some_iff : forall id rule, r.find? id = some rule <-> rule ∈ rules ∧ rule.id = id
  find?_eq_none_iff : forall id, r.find? id = none <-> forall rule, rule ∈ rules -> rule.id ≠ id
  contains_eq : forall id, r.contains id = (r.find? id).isSome

/-- Whether the answer to an offer, and what it leaves, are as the registered rules ask for. -/
structure Decides (rules : List Rule) (r : Registry) (offer : Option Candidate) : Prop where
  refused_iff : forall e, (r.serve offer).1 = .error e <-> Refusal rules offer e
  accepted_iff : forall rule, (r.serve offer).1 = .ok rule <->
    (forall e, ¬ Refusal rules offer e) ∧ offer = some rule.toCandidate
  refused_leaves : forall e, (r.serve offer).1 = .error e -> (r.serve offer).2 = r

/-!
## One offer
-/

theorem rule?_eq_none_iff {c : Candidate} : c.rule? = none <-> ¬ c.Serves := by
  rcases c with ⟨info, scope, evaluator⟩
  unfold Candidate.Serves
  cases scope <;> rcases evaluator with _ | (_ | _) <;> simp [Candidate.rule?, Evaluator.scope]

theorem eq_toCandidate_of_rule? {c : Candidate} {rule : Rule} (h : c.rule? = some rule) :
    c = rule.toCandidate := by
  unfold Candidate.rule? at h
  split at h
  · next hscope hevaluator =>
      cases h
      rw [Rule.toCandidate, <- hscope, <- hevaluator]
  · next hscope hevaluator =>
      cases h
      rw [Rule.toCandidate, <- hscope, <- hevaluator]
  · cases h

theorem Reached.accept_eq_error_iff {rules : List Rule} {r : Registry} (h : Reached rules r)
    {offer : Option Candidate} {e : RegistryError} :
    r.accept offer = .error e <-> Refusal rules offer e := by
  have htaken : forall id, r.contains id = true <-> exists rule, rule ∈ rules ∧ rule.id = id := by
    intro id
    rw [h.contains_iff, List.mem_map]
  unfold accept
  constructor
  · intro herror
    split at herror
    · cases herror
      exact .nullRule
    · next c =>
        split at herror
        · next hempty =>
            cases herror
            exact .emptyId (String.isEmpty_iff.mp hempty)
        · next hempty =>
            have hid : c.id ≠ "" := mt String.isEmpty_iff.mpr hempty
            split at herror
            · next hcontains =>
                rcases (htaken c.id).mp hcontains with ⟨rule, hrule, hsame⟩
                cases herror
                exact .duplicateId hid hrule hsame
            · next hfree =>
                have hnew : forall rule, rule ∈ rules -> rule.id ≠ c.id :=
                  fun rule hrule hsame => hfree ((htaken c.id).mpr ⟨rule, hrule, hsame⟩)
                split at herror
                · cases herror
                · next hnone =>
                    cases herror
                    exact .scopeNotServed hid hnew (rule?_eq_none_iff.mp hnone)
  · intro hrefusal
    cases hrefusal with
    | nullRule => rfl
    | @emptyId c hid =>
        show (if c.id.isEmpty then _ else _) = _
        rw [if_pos (String.isEmpty_iff.mpr hid)]
    | @duplicateId c rule hid hrule hsame =>
        show (if c.id.isEmpty then _ else _) = _
        rw [if_neg (mt String.isEmpty_iff.mp hid),
          if_pos ((htaken c.id).mpr ⟨rule, hrule, hsame⟩)]
    | @scopeNotServed c hid hnew hserves =>
        have hfree : ¬ r.contains c.id = true := by
          intro hcontains
          rcases (htaken c.id).mp hcontains with ⟨rule, hrule, hsame⟩
          exact hnew rule hrule hsame
        show (if c.id.isEmpty then _ else _) = _
        rw [if_neg (mt String.isEmpty_iff.mp hid), if_neg hfree, rule?_eq_none_iff.mpr hserves]

theorem eq_toCandidate_of_accept {r : Registry} {offer : Option Candidate} {rule : Rule}
    (h : r.accept offer = .ok rule) : offer = some rule.toCandidate := by
  unfold accept at h
  split at h
  · cases h
  · next c =>
      split at h
      · cases h
      · split at h
        · cases h
        · split at h
          · next found hfound =>
              cases h
              rw [eq_toCandidate_of_rule? hfound]
          · cases h

theorem toCandidate_injective {rule rule' : Rule} (h : rule.toCandidate = rule'.toCandidate) :
    rule = rule' := by
  have hsame : rule.toCandidate.rule? = rule'.toCandidate.rule? := by rw [h]
  rw [Rule.rule?_toCandidate, Rule.rule?_toCandidate] at hsame
  exact Option.some.inj hsame

theorem Reached.accept_eq_ok_iff {rules : List Rule} {r : Registry} (h : Reached rules r)
    {offer : Option Candidate} {rule : Rule} :
    r.accept offer = .ok rule <->
      (forall e, ¬ Refusal rules offer e) ∧ offer = some rule.toCandidate := by
  constructor
  · intro hok
    refine ⟨?_, eq_toCandidate_of_accept hok⟩
    intro e hrefusal
    rw [<- h.accept_eq_error_iff, hok] at hrefusal
    cases hrefusal
  · intro hwanted
    cases haccept : r.accept offer with
    | error e => exact absurd (h.accept_eq_error_iff.mp haccept) (hwanted.left e)
    | ok accepted =>
        have hsame := eq_toCandidate_of_accept haccept
        rw [hwanted.right] at hsame
        rw [toCandidate_injective (Option.some.inj hsame)]

theorem Reached.decides {rules : List Rule} {r : Registry} (h : Reached rules r)
    (offer : Option Candidate) : Decides rules r offer where
  refused_iff e := by
    rw [<- h.accept_eq_error_iff, serve, on_register]
    cases r.accept offer <;> simp
  accepted_iff rule := by
    rw [<- h.accept_eq_ok_iff, serve, on_register]
    cases r.accept offer <;> simp
  refused_leaves _ hrefused := eq_of_register_error (Prod.ext hrefused rfl)

/-!
## The rules of a registry
-/

theorem map_filterMap_of_scope {α : Type} {narrow : Rule -> Option α} {widen : α -> Rule}
    {scope : Scope}
    (h : forall rule, (narrow rule).map widen = if rule.scope = scope then some rule else none)
    (rules : List Rule) :
    (rules.filterMap narrow).map widen = rules.filter (fun rule => decide (rule.scope = scope)) := by
  rw [List.map_filterMap]
  induction rules with
  | nil => rfl
  | cons rule rest ih =>
      rw [List.filterMap_cons, List.filter_cons, h, ih]
      by_cases hscope : rule.scope = scope
      · simp [hscope]
      · simp [hscope]

theorem map_graph_filterMap (rules : List Rule) :
    (rules.filterMap Rule.graph?).map Rule.graph =
      rules.filter (fun rule => decide (rule.scope = .graph)) :=
  map_filterMap_of_scope (fun rule => by cases rule <;> rfl) rules

theorem map_edge_filterMap (rules : List Rule) :
    (rules.filterMap Rule.edge?).map Rule.edge =
      rules.filter (fun rule => decide (rule.scope = .edge)) :=
  map_filterMap_of_scope (fun rule => by cases rule <;> rfl) rules

theorem length_filter_scope (rules : List Rule) :
    (rules.filter (fun rule => decide (rule.scope = .graph))).length +
      (rules.filter (fun rule => decide (rule.scope = .edge))).length = rules.length := by
  have hother : rules.filter (fun rule => decide (rule.scope = .edge)) =
      rules.filter (fun rule => !decide (rule.scope = .graph)) := by
    apply List.filter_congr
    intro rule _
    cases rule <;> rfl
  rw [hother]
  exact (List.length_eq_length_filter_add _).symm

theorem Reached.inStep {rules : List Rule} {r : Registry} (h : Reached rules r) :
    InStep rules r where
  rules_eq := h.lists.rules_eq
  nodup_ids := h.nodup_ids
  id_ne_empty rule hrule := by
    have hid := h.isEmpty_id hrule
    intro hempty
    rw [hempty] at hid
    cases hid
  graphRules_eq := by rw [h.lists.graphRules_eq, map_graph_filterMap]
  edgeRules_eq := by rw [h.lists.edgeRules_eq, map_edge_filterMap]
  size_eq := by rw [size, h.lists.rules_eq]
  lengths_add := by
    rw [size, h.lists.rules_eq, <- length_filter_scope rules, <- map_graph_filterMap,
      <- map_edge_filterMap, List.length_map, List.length_map, h.lists.graphRules_eq,
      h.lists.edgeRules_eq]
  find?_eq_some_iff _ _ := h.find?_eq_some_iff
  find?_eq_none_iff _ := h.find?_eq_none_iff
  contains_eq id := by
    rw [Bool.eq_iff_iff, h.contains_iff, Option.isSome_iff_exists, List.mem_map]
    simp only [h.find?_eq_some_iff]

/-!
## Offers in turn
-/

theorem Reached.serve {rules : List Rule} {r : Registry} (h : Reached rules r)
    (offer : Option Candidate) :
    Reached (rules ++ (r.serve offer).1.toOption.toList) (r.serve offer).2 := by
  rcases hserve : r.serve offer with ⟨e | rule, next⟩
  · show Reached (rules ++ []) next
    rw [List.append_nil]
    exact h.refused hserve
  · exact h.accepted hserve

theorem Reached.serveAll {rules : List Rule} {r : Registry} (h : Reached rules r)
    (offers : List (Option Candidate)) :
    Reached (rules ++ acceptedIn (r.serveAll offers).1) (r.serveAll offers).2 := by
  induction offers generalizing rules r with
  | nil =>
      show Reached (rules ++ []) r
      rw [List.append_nil]
      exact h
  | cons offer rest ih =>
      have hrest := ih (h.serve offer)
      rw [List.append_assoc] at hrest
      have haccepted : acceptedIn (r.serveAll (offer :: rest)).1 =
          (r.serve offer).1.toOption.toList ++ acceptedIn ((r.serve offer).2.serveAll rest).1 := by
        show List.filterMap _ (_ :: _) = _
        rw [List.filterMap_cons]
        cases (r.serve offer).1 <;> rfl
      rw [haccepted]
      exact hrest

theorem serveAll_eq_inTurn (r : Registry) (offers : List (Option Candidate)) :
    r.serveAll offers = inTurn Registry.serve r offers := by
  induction offers generalizing r with
  | nil => rfl
  | cons offer rest ih => rw [inTurn_cons, <- ih, Registry.serveAll]

def told (answer : Except RegistryError Rule) : Except Workspace.Failure Workspace.Answer :=
  (answer.map Workspace.Answer.rule).mapError Workspace.Failure.registry

theorem run_register_offers {w : Workspace} {number : Nat} {r : Registry}
    (hr : w.registries[number]? = some r) (offers : List (Option Candidate))
    (rest : List Workspace.Command) :
    w.run (offers.map (Workspace.Command.register number) ++ rest) =
      (r.serveAll offers).1.map told ++ (w.withRegistry number (r.serveAll offers).2).run rest := by
  rw [serveAll_eq_inTurn]
  exact Workspace.run_calls (Workspace.registryAt number) Workspace.on_register hr offers rest

/-- After any offers to an empty registry its lists and its index are in step with the rules that
were accepted, and the next offer is decided by them.  A workspace that makes a registry and the
offers is answered so, and holds that registry besides what it held before. -/
theorem offers_keep_registry_in_step (offers : List (Option Candidate)) :
    let answers := (empty.serveAll offers).1
    let r := (empty.serveAll offers).2
    InStep (acceptedIn answers) r ∧
      (forall offer, Decides (acceptedIn answers) r offer) ∧
      forall (w : Workspace) (rest : List Workspace.Command),
        w.run (.newRegistry false :: (offers.map (.register w.registries.size) ++ rest)) =
          .ok (.registry empty) :: (answers.map told ++
            { w with registries := w.registries.push r }.run rest) := by
  intro answers r
  have hreached : Reached (acceptedIn answers) r := Reached.empty.serveAll offers
  refine ⟨hreached.inStep, hreached.decides, ?_⟩
  intro w rest
  have hnew : { w with registries := w.registries.push empty }.registries[w.registries.size]? =
      some empty := Array.getElem?_push_size
  rw [Workspace.run_cons (Workspace.on_newRegistry false), <- Workspace.withRegistry_push w empty r]
  exact congrArg _ (run_register_offers hnew offers rest)

/-- A refused offer leaves its identifier free for a later one. -/
example :
    let bare : Candidate := { id := "a", scope := .edge, evaluator := none }
    let crossed : Candidate := { bare with evaluator := some (.graph (fun _ => .ok [])) }
    let valid : Candidate := { bare with evaluator := some (.edge (fun _ => .ok [])) }
    let history := empty.serveAll
      [some bare, some crossed, none, some valid, some bare, some { valid with id := "" }]
    history.2.rules.map Rule.id = ["a"] ∧
      history.1.map (fun answer => answer.toOption.map Rule.id) =
        [none, none, none, some "a", none, none] :=
  ⟨rfl, rfl⟩

end Registry
end FeatureModel
