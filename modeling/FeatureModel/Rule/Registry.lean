import FeatureModel.Action
import FeatureModel.Rule.Builtin

/-!
# Rule registries

A registry holds rules under distinct, non-empty identifiers.  What is offered
to it may not be a rule at all, or may not do what its scope promises.  Offers
are checked before anything is registered.
-/

namespace FeatureModel

/-- What a candidate for a rule can really evaluate. -/
inductive Evaluator where
  | graph (evaluate : Graph -> RuleOutcome)
  | edge (evaluate : EdgeView -> RuleOutcome)

/-- What is offered for registration: a scope is claimed, and may not be served. -/
structure Candidate extends RuleInfo where
  scope : Scope
  evaluator : Option Evaluator

/-- The rule that a candidate stands for, if it serves the scope that it claims. -/
def Candidate.rule? (c : Candidate) : Option Rule :=
  match c.scope, c.evaluator with
  | .graph, some (.graph evaluate) =>
      some (.graph { toRuleInfo := c.toRuleInfo, evaluate := evaluate })
  | .edge, some (.edge evaluate) =>
      some (.edge { toRuleInfo := c.toRuleInfo, evaluate := evaluate })
  | _, _ => none

def Rule.toCandidate : Rule -> Candidate
  | .graph rule =>
      { toRuleInfo := rule.toRuleInfo, scope := .graph, evaluator := some (.graph rule.evaluate) }
  | .edge rule =>
      { toRuleInfo := rule.toRuleInfo, scope := .edge, evaluator := some (.edge rule.evaluate) }

@[simp] theorem Rule.rule?_toCandidate (rule : Rule) : rule.toCandidate.rule? = some rule := by
  cases rule <;> rfl

inductive RegistryError where
  | nullRule
  | emptyId
  | duplicateId (id : String)
  | scopeNotServed (id : String)
deriving DecidableEq, Repr

namespace RegistryError

def fullMessage : RegistryError -> String
  | nullRule => "Cannot register a null rule"
  | emptyId => "Cannot register a rule with an empty id"
  | duplicateId id => "Rule '" ++ id ++ "' is already registered"
  | scopeNotServed id => "Rule '" ++ id ++ "' does not implement the interface of its scope"

def message (e : RegistryError) : String :=
  Text.untilNul e.fullMessage

end RegistryError

structure Registry where
  rules : List Rule := []
  graphRules : List GraphRule := []
  edgeRules : List EdgeRule := []
  /-- The place of a rule in `rules`, by its identifier. -/
  places : Index String Nat := Index.empty

namespace Registry

def empty : Registry :=
  {}

def size (r : Registry) : Nat :=
  r.rules.length

def contains (r : Registry) (id : String) : Bool :=
  (r.places.lookup? id).isSome

def find? (r : Registry) (id : String) : Option Rule := do
  let place <- r.places.lookup? id
  r.rules[place]?

def addToScope (r : Registry) : Rule -> Registry
  | .graph rule => { r with graphRules := r.graphRules ++ [rule] }
  | .edge rule => { r with edgeRules := r.edgeRules ++ [rule] }

/-- Registers what is offered, or says why it is refused. -/
def register (offer : Option Candidate) : Action Registry RegistryError Rule := do
  let r <- get
  match offer with
  | none => throw .nullRule
  | some candidate =>
      if candidate.id.isEmpty then
        throw .emptyId
      else if r.contains candidate.id then
        throw (.duplicateId candidate.id)
      else
        match candidate.rule? with
        | none => throw (.scopeNotServed candidate.id)
        | some rule =>
            let place := r.rules.length
            modify fun r => { r with rules := r.rules ++ [rule] }
            modify fun r => r.addToScope rule
            modify fun r => { r with places := r.places.emplace rule.id place }
            return rule

def registerEach : List (Option Candidate) -> Action Registry RegistryError Unit
  | [] => return
  | offer :: rest => do
      let _ <- register offer
      registerEach rest

/-- Registers offers in order up to the first that is refused; those before it stay. -/
def registerAll (r : Registry) (offers : List (Option Candidate)) :
    Registry × Option RegistryError :=
  match (registerEach offers).on r with
  | (.ok _, next) => (next, none)
  | (.error e, next) => (next, some e)

def registerBuiltins (r : Registry) : Registry × Option RegistryError :=
  r.registerAll (Builtin.all.map (fun rule => some rule.toCandidate))

def builtin : Registry :=
  empty.registerBuiltins.1

/-- A registry with or without the built-in rules, and then the offers if none is refused. -/
def ofOffers (withBuiltins : Bool) (offers : List (Option Candidate)) :
    Except RegistryError Registry :=
  match (if withBuiltins then builtin else empty).registerAll offers with
  | (registry, none) => .ok registry
  | (_, some e) => .error e

@[simp] theorem contains_empty (id : String) : empty.contains id = false :=
  rfl

@[simp] theorem registerAll_nil (r : Registry) : r.registerAll [] = (r, none) :=
  rfl

theorem registerAll_cons_ok {r next : Registry} {offer : Option Candidate} {rule : Rule}
    (h : (register offer).on r = (.ok rule, next)) (rest : List (Option Candidate)) :
    r.registerAll (offer :: rest) = next.registerAll rest := by
  unfold registerAll
  rw [registerEach, Action.on_bind_of_ok h]

theorem registerAll_cons_error {r next : Registry} {offer : Option Candidate} {e : RegistryError}
    (h : (register offer).on r = (.error e, next)) (rest : List (Option Candidate)) :
    r.registerAll (offer :: rest) = (next, some e) := by
  unfold registerAll
  rw [registerEach, Action.on_bind_of_error h]

end Registry
end FeatureModel
