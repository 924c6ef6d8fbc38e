import FeatureModel.Proofs.Rule.Offers

/-!
# Registering several rules

Rules are registered one after another up to the first whose identifier is taken, and
those before it stay.  So the built-in rules may be registered in part, and can never be
registered again.
-/

namespace FeatureModel

namespace Registry

theorem register_toCandidate_of_contains {r : Registry} {rule : Rule}
    (hid : rule.id.isEmpty = false) (htaken : r.contains rule.id = true) :
    (register (some rule.toCandidate)).on r = (.error (.duplicateId rule.id), r) := by
  have hsame : rule.toCandidate.id = rule.id := by cases rule <;> rfl
  apply on_register_of_refuse
  simp [accept, hsame, hid, htaken]

theorem Reached.registerAll_toCandidate {rules : List Rule} {r : Registry} (h : Reached rules r)
    {taken : Rule -> Bool} {more : List Rule}
    (htaken : forall b, b ∈ more -> (taken b = true <-> b.id ∈ rules.map Rule.id))
    (hid : forall b, b ∈ more -> b.id.isEmpty = false) (hnodup : (more.map Rule.id).Nodup) :
    Reached (rules ++ more.takeWhile (fun b => !taken b))
        (r.registerAll (more.map (fun b => some b.toCandidate))).1 ∧
      (r.registerAll (more.map (fun b => some b.toCandidate))).2 =
        (more.find? taken).map (fun b => .duplicateId b.id) := by
  induction more generalizing rules r with
  | nil =>
      refine ⟨?_, rfl⟩
      rw [List.takeWhile_nil, List.append_nil]
      exact h
  | cons b rest ih =>
      rw [List.forall_mem_cons] at htaken hid
      rw [List.map_cons, List.nodup_cons] at hnodup
      rw [List.map_cons, List.takeWhile_cons, List.find?_cons]
      cases hb : taken b with
      | true =>
          have hcontains : r.contains b.id = true :=
            (h.contains_iff b.id).mpr (htaken.left.mp hb)
          rw [registerAll_cons_error (register_toCandidate_of_contains hid.left hcontains)]
          refine ⟨?_, rfl⟩
          show Reached (rules ++ []) r
          rw [List.append_nil]
          exact h
      | false =>
          have hnew : r.contains b.id = false := by
            rw [Bool.eq_false_iff, Ne, h.contains_iff, <- htaken.left, hb]
            decide
          -- A later rule has another identifier, so it is no more taken than before.
          have hlater : forall c, c ∈ rest ->
              (taken c = true <-> c.id ∈ (rules ++ [b]).map Rule.id) := by
            intro c hc
            have hne : c.id ≠ b.id := by
              intro heq
              exact hnodup.left (heq ▸ List.mem_map_of_mem hc)
            rw [htaken.right c hc, List.map_append, List.mem_append, List.map_singleton,
              List.mem_singleton]
            exact (or_iff_left hne).symm
          have hrest := ih (h.put b hid.left hnew) hlater hid.right hnodup.right
          rw [registerAll_cons_ok (register_toCandidate hid.left hnew)]
          rw [List.append_assoc] at hrest
          exact hrest

def isTaken (rules : List Rule) (rule : Rule) : Bool :=
  decide (rule.id ∈ rules.map Rule.id)

theorem Reached.registerBuiltins {rules : List Rule} {r : Registry} (h : Reached rules r) :
    Reached (rules ++ Builtin.all.takeWhile (fun b => !isTaken rules b)) r.registerBuiltins.1 ∧
      r.registerBuiltins.2 =
        (Builtin.all.find? (isTaken rules)).map (fun b => .duplicateId b.id) :=
  h.registerAll_toCandidate (fun _ _ => decide_eq_true_iff)
    (fun _ => reached_builtin.isEmpty_id) reached_builtin.nodup_ids

theorem mem_ids_append_takeWhile (rules : List Rule) :
    "no-duplicate-guid" ∈
      (rules ++ Builtin.all.takeWhile (fun b => !isTaken rules b)).map Rule.id := by
  rw [List.map_append, List.mem_append]
  cases hfirst : isTaken rules (.graph Builtin.noDuplicateGuid) with
  | true => exact Or.inl (of_decide_eq_true hfirst)
  | false =>
      right
      unfold Builtin.all
      rw [List.takeWhile_cons_of_pos (by simp [hfirst])]
      exact List.mem_cons_self

theorem Reached.registerBuiltins_of_mem {rules : List Rule} {r : Registry} (h : Reached rules r)
    (hmem : "no-duplicate-guid" ∈ rules.map Rule.id) :
    r.registerBuiltins = (r, some (.duplicateId "no-duplicate-guid")) := by
  have hrefused : (register (some (Rule.graph Builtin.noDuplicateGuid).toCandidate)).on r =
      (.error (.duplicateId "no-duplicate-guid"), r) :=
    register_toCandidate_of_contains rfl ((h.contains_iff _).mpr hmem)
  exact registerAll_cons_error hrefused _

theorem Reached.registerBuiltins_again {rules : List Rule} {r : Registry} (h : Reached rules r)
    (later : List (Option Candidate)) :
    (r.registerBuiltins.1.serveAll later).2.registerBuiltins =
      ((r.registerBuiltins.1.serveAll later).2, some (.duplicateId "no-duplicate-guid")) := by
  refine (h.registerBuiltins.left.serveAll later).registerBuiltins_of_mem ?_
  rw [List.map_append]
  exact List.mem_append_left _ (mem_ids_append_takeWhile rules)

theorem find?_isTaken (rules : List Rule) :
    (Builtin.all.find? (isTaken rules)).map (fun b => RegistryError.duplicateId b.id) =
      (["no-duplicate-guid", "mandatory-incompatible", "monotonic-guid",
        "conflicting-relationship-kinds"].find?
          (fun id => decide (id ∈ rules.map Rule.id))).map .duplicateId := by
  have hids : ["no-duplicate-guid", "mandatory-incompatible", "monotonic-guid",
      "conflicting-relationship-kinds"] = Builtin.all.map Rule.id := rfl
  rw [hids, List.find?_map, Option.map_map]
  rfl

/-!
## Commands
-/

def toldBuiltins (r : Registry) : Except Workspace.Failure Workspace.Answer :=
  match r.registerBuiltins with
  | (next, none) => .ok (.registry next)
  | (_, some e) => .error (.registry e)

theorem on_registerBuiltins {w : Workspace} {number : Nat} {r : Registry}
    (hr : w.registries[number]? = some r) :
    (Workspace.step (.registerBuiltins number)).on w =
      (toldBuiltins r, w.withRegistry number r.registerBuiltins.1) := by
  unfold Workspace.step toldBuiltins
  rw [Action.on_bind_of_ok (Workspace.on_fetch .registry hr)]
  rcases r.registerBuiltins with ⟨next, _ | e⟩ <;> rfl

theorem run_registerBuiltins {w : Workspace} {number : Nat} {r : Registry}
    (hr : w.registries[number]? = some r) (rest : List Workspace.Command) :
    w.run (.registerBuiltins number :: rest) =
      toldBuiltins r :: (w.withRegistry number r.registerBuiltins.1).run rest :=
  Workspace.run_cons (on_registerBuiltins hr) rest

theorem run_offers_registerBuiltins (w : Workspace) (offers : List (Option Candidate))
    (rest : List Workspace.Command) :
    let r := (empty.serveAll offers).2
    w.run (.newRegistry false :: (offers.map (.register w.registries.size) ++
        .registerBuiltins w.registries.size :: .registerBuiltins w.registries.size :: rest)) =
      .ok (.registry empty) :: ((empty.serveAll offers).1.map told ++ toldBuiltins r ::
        toldBuiltins r.registerBuiltins.1 ::
          { w with registries :=
            w.registries.push r.registerBuiltins.1.registerBuiltins.1 }.run rest) := by
  intro r
  have hnew : { w with registries := w.registries.push empty }.registries[w.registries.size]? =
      some empty := Array.getElem?_push_size
  have hserved := Workspace.getElem?_withRegistry hnew r
  have hregistered := Workspace.getElem?_withRegistry hserved r.registerBuiltins.1
  have hoffers := run_register_offers hnew offers
    (.registerBuiltins w.registries.size :: .registerBuiltins w.registries.size :: rest)
  rw [run_registerBuiltins hserved, run_registerBuiltins hregistered,
    Workspace.withRegistry_withRegistry, Workspace.withRegistry_withRegistry,
    Workspace.withRegistry_push] at hoffers
  rw [Workspace.run_cons (Workspace.on_newRegistry false)]
  exact congrArg _ hoffers

/-- After any offers, the built-in rules are registered up to the first whose identifier is taken.
That one is named, the ones before it stay, and the rules that were there are still found.  They
are not registered again, whatever else is offered.  Commands of a workspace are answered so. -/
theorem registerBuiltins_stops_at_taken (offers : List (Option Candidate)) :
    let r := (empty.serveAll offers).2
    let next := r.registerBuiltins.1
    r.registerBuiltins.2 =
        (["no-duplicate-guid", "mandatory-incompatible", "monotonic-guid",
          "conflicting-relationship-kinds"].find?
            (fun id => decide (id ∈ r.rules.map Rule.id))).map .duplicateId ∧
      InStep (r.rules ++ Builtin.all.takeWhile (fun b => decide (b.id ∉ r.rules.map Rule.id)))
        next ∧
      (forall rule, rule ∈ r.rules -> next.find? rule.id = some rule) ∧
      (forall later, (next.serveAll later).2.registerBuiltins =
        ((next.serveAll later).2, some (.duplicateId "no-duplicate-guid"))) ∧
      forall (w : Workspace) (rest : List Workspace.Command),
        w.run (.newRegistry false :: (offers.map (.register w.registries.size) ++
            .registerBuiltins w.registries.size :: .registerBuiltins w.registries.size :: rest)) =
          .ok (.registry empty) :: ((empty.serveAll offers).1.map told ++ toldBuiltins r ::
            .error (.registry (.duplicateId "no-duplicate-guid")) ::
              { w with registries := w.registries.push next }.run rest) := by
  intro r next
  have hserved : Reached (acceptedIn (empty.serveAll offers).1) r := Reached.empty.serveAll offers
  have hreached : Reached r.rules r := hserved.lists.rules_eq.symm ▸ hserved
  have hfree : (fun b => !isTaken r.rules b) =
      fun b => decide (b.id ∉ r.rules.map Rule.id) := by
    funext b
    exact decide_not.symm
  have hnext := hreached.registerBuiltins
  rw [hfree] at hnext
  have hagain := hreached.registerBuiltins_again
  refine ⟨hnext.right.trans (find?_isTaken r.rules), hnext.left.inStep, ?_, hagain, ?_⟩
  · intro rule hrule
    exact hnext.left.find?_eq_some_iff.mpr ⟨List.mem_append_left _ hrule, rfl⟩
  · intro w rest
    have hrefused : next.registerBuiltins = (next, some (.duplicateId "no-duplicate-guid")) :=
      hagain []
    have htold : toldBuiltins next = .error (.registry (.duplicateId "no-duplicate-guid")) := by
      rw [toldBuiltins, hrefused]
    have hleft : next.registerBuiltins.1 = next := by
      rw [hrefused]
    rw [run_offers_registerBuiltins, htold, hleft]

/-- An edge rule has taken the third identifier, after an offer under the first was refused. -/
theorem registerBuiltins_stops_at_taken_third :
    let bare : Candidate := { id := "no-duplicate-guid", scope := .graph, evaluator := none }
    let taker : Rule := .edge { id := "monotonic-guid", evaluate := fun _ => .ok [] }
    let other : Rule := .graph { id := "other", evaluate := fun _ => .ok [] }
    let r := (empty.serveAll [some taker.toCandidate, some bare, some other.toCandidate]).2
    let next := r.registerBuiltins.1
    r.registerBuiltins.2 = some (.duplicateId "monotonic-guid") ∧
      (RegistryError.duplicateId "monotonic-guid").message =
        "Rule 'monotonic-guid' is already registered" ∧
      next.rules = [taker, other, .graph Builtin.noDuplicateGuid,
        .edge Builtin.mandatoryIncompatible] ∧
      next.find? "monotonic-guid" = some taker ∧
      next.registerBuiltins = (next, some (.duplicateId "no-duplicate-guid")) := by
  intro bare taker other r next
  rcases registerBuiltins_stops_at_taken
      [some taker.toCandidate, some bare, some other.toCandidate] with
    ⟨herror, hinStep, hfound, hagain, _⟩
  refine ⟨?_, rfl, ?_, ?_, ?_⟩
  · rw [herror]
    rfl
  · rw [hinStep.rules_eq]
    rfl
  · exact hfound taker (List.mem_cons_self : taker ∈ [taker, other])
  · have hlast := hagain []
    dsimp only [serveAll] at hlast
    exact hlast

end Registry
end FeatureModel
