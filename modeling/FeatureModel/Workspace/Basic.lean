import FeatureModel.Draft
import FeatureModel.Evaluation.Compile
import FeatureModel.Graph.Query

/-!
# Workspaces

A workspace holds drafts, graphs, registries, reports and tasks, each kind
numbered from zero in the order in which they were made.  Commands refer to them
by number.
-/

namespace FeatureModel

structure Workspace where
  drafts : Array Draft := #[]
  graphs : Array Graph := #[]
  registries : Array Registry := #[]
  reports : Array Report := #[]
  tasks : Array Task := #[]

namespace Workspace

inductive Reference where
  | draft
  | graph
  | registry
  | task
  | rule
  | leftReport
  | rightReport
deriving DecidableEq, Repr

inductive Failure where
  | missing (reference : Reference)
  | edgeOutOfRange
  | query (error : Graph.QueryError)
  | unknownFeature (error : UnknownFeature)
  | registry (error : RegistryError)
  | compile (error : CompileError)
deriving DecidableEq, Repr

inductive Command where
  | newDraft (tolerate : Bool)
  | showDraft (draft : Nat)
  | addFeature (draft : Nat) (attributes : Attributes)
  | addRecord (draft : Nat) (record : Record)
  | addLink (draft : Nat) (source : Guid) (link : Link)
  | build (draft : Nat)
  | buildRecords (records : List Record) (tolerate : Bool)
  | query (graph : Nat) (query : Graph.Query)
  | newRegistry (withBuiltins : Bool)
  | register (registry : Nat) (offer : Option Candidate)
  | registerBuiltins (registry : Nat)
  | showRegistry (registry : Nat)
  | listRules (registry : Nat)
  | findRule (registry : Nat) (id : String)
  | hasRule (registry : Nat) (id : String)
  | compile (graph registry : Nat) (mode : Mode) (threads : Nat)
  | compileRecords (registry : Nat) (records : List Record) (tolerate : Bool) (mode : Mode)
      (threads : Nat)
  | compareReports (left right : Nat)
  | newGraphTask (graph registry rule : Nat)
  | newEdgeTask (graph registry rule edge : Nat)
  | runTask (task : Nat)
  | showTask (task : Nat)
  | takeViolations (task : Nat)
  | execute (threads : Nat)

inductive Answer where
  | flag (value : Bool)
  | count (value : Nat)
  | draft (value : Draft)
  | graph (value : Graph)
  | query (value : Graph.Answer)
  | registry (value : Registry)
  | rule (value : Rule)
  | rule? (value : Option Rule)
  | rules (value : List Rule)
  | report (value : Report)
  | comparison (equal : Bool)
  | task (value : Task)
  | violations (value : List Violation)
  /-- The number of threads, if it was not left to the machine, and the states of all tasks. -/
  | execution (threads : Option Nat) (states : List TaskState)

end Workspace
end FeatureModel
