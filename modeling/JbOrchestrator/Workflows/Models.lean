import JbOrchestrator.Catalog
import JbOrchestrator.Lib.Dict
import JbOrchestrator.Lib.Text
import Mathlib.Data.List.Dedup
import Mathlib.Data.List.Sort
import Mathlib.Data.String.Basic

/-!
# Models — workflow definitions, snapshots and executions

The data model of `workflows/models.py`.  A definition and a snapshot share their graph, so the graph
methods (`node`, `route_edges`, `incoming_sources`) are stated once, on `WorkflowGraph`.
-/

open Lib

namespace JbOrchestrator.Workflows

abbrev NodeKey := String

/-! ## 1. Enumerations -/

inductive WorkflowStatus where
  | pending | running | awaitingApproval | succeeded | failed | cancelled
  deriving DecidableEq, Repr

inductive NodeKind where
  | task | approval | fork | join | terminal
  deriving DecidableEq, Repr

inductive NodeOutcome where
  | success | failure | approved | rejected
  deriving DecidableEq, Repr

inductive NodeExecutionStatus where
  | pending | ready | running | awaitingApproval | succeeded | failed | cancelled
  deriving DecidableEq, Repr

def WorkflowStatus.value : WorkflowStatus → String
  | .pending => "pending"
  | .running => "running"
  | .awaitingApproval => "awaiting_approval"
  | .succeeded => "succeeded"
  | .failed => "failed"
  | .cancelled => "cancelled"

def NodeOutcome.value : NodeOutcome → String
  | .success => "success"
  | .failure => "failure"
  | .approved => "approved"
  | .rejected => "rejected"

/-- The statuses the engine's cancellation loops look for. -/
def NodeExecutionStatus.isActive : NodeExecutionStatus → Bool
  | .ready | .running | .awaitingApproval => true
  | _ => false

/-- Fork and join nodes are resolved by the engine itself and never wait for anybody. -/
def NodeKind.isStructural : NodeKind → Bool
  | .fork | .join => true
  | _ => false

/-! ## 2. Nodes and edges -/

structure NodeInputMapping where
  inputKey : String
  sourceNode : NodeKey
  deriving DecidableEq, Repr

structure NodeDefinition where
  key : NodeKey
  kind : NodeKind
  maxAttempts : ℕ := 1
  maxVisits : ℕ := 1
  timeoutSeconds : ℕ := 600
  terminalStatus : Option WorkflowStatus := none
  executorKey : Option String := none
  instructions : Option String := none
  configuration : JsonObject := []
  skills : List SkillReference := []
  modelRouting : Option ModelRoutingRequest := none
  phasePack : Option PhasePackReference := none
  inputMappings : List NodeInputMapping := []

structure ArtifactCondition where
  path : String
  equals : Scalar
  deriving DecidableEq, Repr

structure EdgeDefinition where
  source : NodeKey
  outcome : NodeOutcome
  target : NodeKey
  condition : Option ArtifactCondition := none
  deriving DecidableEq, Repr

/-- The equality of the frozen dataclasses: field by field with `==`. -/
def ArtifactCondition.pyEq (a b : ArtifactCondition) : Bool :=
  decide (a.path = b.path) && a.equals.pyEq b.equals

def EdgeDefinition.pyEq (a b : EdgeDefinition) : Bool :=
  decide (a.source = b.source) && decide (a.outcome = b.outcome) && decide (a.target = b.target) &&
    match a.condition, b.condition with
    | none, none => true
    | some c, some c' => c.pyEq c'
    | _, _ => false

/-! ## 3. Graphs, definitions and snapshots -/

structure WorkflowGraph where
  entryNode : NodeKey
  nodes : List NodeDefinition
  edges : List EdgeDefinition

namespace WorkflowGraph

variable (graph : WorkflowGraph)

def keys : List NodeKey := graph.nodes.map NodeDefinition.key

/-- `node(key)`; `none` is the `StopIteration` of `next`. -/
def node (key : NodeKey) : Option NodeDefinition :=
  graph.nodes.find? fun node => node.key = key

def routeEdges (source : NodeKey) (outcome : NodeOutcome) : List EdgeDefinition :=
  graph.edges.filter fun edge => edge.source = source ∧ edge.outcome = outcome

/-- The direct predecessors of a node. -/
def incomingSources (target : NodeKey) : List NodeKey :=
  (((graph.edges.filter fun edge => edge.target = target).map EdgeDefinition.source).dedup
    ).insertionSort (· ≤ ·)

/-- The set `adjacency[source]` of the definition checks. -/
def adjacency (source : NodeKey) : List NodeKey :=
  ((graph.edges.filter fun edge => edge.source = source).map EdgeDefinition.target).dedup

end WorkflowGraph

structure WorkflowDefinition extends WorkflowGraph where
  key : String
  version : ℕ
  id : UUID := 0

structure WorkflowRequestContext where
  requestId : UUID
  projectId : UUID
  projectKey : String
  projectName : String
  repositoryUrl : String
  defaultBranch : String
  prompt : String
  title : Option String := none
  deriving DecidableEq, Repr

structure WorkflowSnapshot extends WorkflowGraph where
  runId : UUID
  definitionId : UUID
  definitionKey : String
  definitionVersion : ℕ
  requestContext : Option WorkflowRequestContext := none
  phasePacks : List PhasePackDefinition := []
  skills : List SkillDefinition := []
  modelSelections : List NodeModelSelection := []

namespace WorkflowSnapshot

def fromDefinition (definition : WorkflowDefinition) (runId : UUID)
    (requestContext : Option WorkflowRequestContext := none)
    (phasePacks : List PhasePackDefinition := []) (skills : List SkillDefinition := [])
    (modelSelections : List NodeModelSelection := []) : WorkflowSnapshot where
  toWorkflowGraph := definition.toWorkflowGraph
  runId := runId
  definitionId := definition.id
  definitionKey := definition.key
  definitionVersion := definition.version
  requestContext := requestContext
  phasePacks := phasePacks
  skills := skills
  modelSelections := modelSelections

variable (snapshot : WorkflowSnapshot)

def phasePack (reference : PhasePackReference) : Option PhasePackDefinition :=
  snapshot.phasePacks.find? fun value => value.reference = reference

def skill (reference : SkillReference) : Option SkillDefinition :=
  snapshot.skills.find? fun skill => skill.reference = reference

def modelSelection (nodeKey : NodeKey) : Option ModelSelection :=
  (snapshot.modelSelections.find? fun value => value.nodeKey = nodeKey).map
    NodeModelSelection.selection

end WorkflowSnapshot

/-! ## 4. Executions -/

structure NodeExecution where
  id : UUID
  workflowExecutionId : UUID
  nodeKey : NodeKey
  executorKey : String := "default"
  status : NodeExecutionStatus := .pending
  visitCount : ℕ := 0
  attemptCount : ℕ := 0
  outcome : Option NodeOutcome := none
  output : Option JsonObject := none
  workerId : Option String := none
  leaseToken : Option UUID := none
  leaseExpiresAt : Option Instant := none
  startedAt : Option Instant := none
  completedAt : Option Instant := none
  updatedAt : Instant
  deriving DecidableEq

structure WorkflowExecution where
  snapshot : WorkflowSnapshot
  id : UUID
  status : WorkflowStatus := .pending
  nodes : Dict NodeKey NodeExecution
  failureReason : Option String := none
  startedAt : Option Instant := none
  completedAt : Option Instant := none
  updatedAt : Instant
  version : ℕ := 1

/-- `WorkflowExecution.create`.  The identifiers that `uuid4` draws are arguments. -/
def WorkflowExecution.create (snapshot : WorkflowSnapshot) (id : UUID) (nodeId : NodeKey → UUID)
    (now : Instant) : WorkflowExecution where
  snapshot := snapshot
  id := id
  nodes := Dict.ofList NodeDefinition.key (fun node =>
    { id := nodeId node.key
      workflowExecutionId := id
      nodeKey := node.key
      executorKey := node.executorKey.getD "default"
      updatedAt := now }) snapshot.nodes
  updatedAt := now

def WorkflowStatus.isTerminal : WorkflowStatus → Bool
  | .succeeded | .failed | .cancelled => true
  | _ => false

def WorkflowExecution.isTerminal (execution : WorkflowExecution) : Bool :=
  execution.status.isTerminal

end JbOrchestrator.Workflows
