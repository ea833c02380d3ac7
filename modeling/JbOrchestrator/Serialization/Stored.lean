import JbOrchestrator.Serialization.Columns
import JbOrchestrator.Workflows.Reordering

/-!
# Stored — workflow executions in the tables

The repository of workflow executions.  An aggregate is added as one row of `workflow_executions` with
its snapshot as JSON and a row of `node_executions` for every node; it is loaded from both, in whatever
order the database answers the node rows, and saved without its snapshot.  `stored_refines_memory` says
that an engine that works on the tables answers as one that keeps the aggregates in memory.
-/

open Lib

namespace JbOrchestrator.Serialization

open Workflows Json

/-! ## 1. Rows -/

structure NodeExecutionRecord where
  id : UUID
  workflowExecutionId : UUID
  nodeKey : NodeKey
  executorKey : String
  status : NodeExecutionStatus
  visitCount : ℕ
  attemptCount : ℕ
  outcome : Option NodeOutcome
  output : List Char
  workerId : Option String
  leaseToken : Option UUID
  leaseExpiresAt : Option Instant
  startedAt : Option Instant
  completedAt : Option Instant
  updatedAt : Instant

structure WorkflowExecutionRecord where
  id : UUID
  runId : UUID
  snapshot : List Char
  status : WorkflowStatus
  failureReason : Option String
  startedAt : Option Instant
  completedAt : Option Instant
  updatedAt : Instant
  version : ℕ

structure Tables where
  executions : List WorkflowExecutionRecord := []
  nodes : List NodeExecutionRecord := []

/-- A workflow execution in memory, with its snapshot in full. -/
structure Aggregate where
  snapshot : Snapshot
  execution : WorkflowExecution

/-- No output is the `null` of JSON. -/
def outputJson (output : Option JsonObject) : Json := orNone .dict output

def outputFromColumn (style : JsonText.Style) (chars : List Char) :
    Except ReadError (Option JsonObject) :=
  match JsonText.loads style chars with
  | some (.dict entries) => .ok (some entries)
  | some (.scalar .null) => .ok none
  | some _ => .error .typeError
  | none => .error .valueError

def nodeRecord (style : JsonText.Style) (node : NodeExecution) : NodeExecutionRecord where
  id := node.id
  workflowExecutionId := node.workflowExecutionId
  nodeKey := node.nodeKey
  executorKey := node.executorKey
  status := node.status
  visitCount := node.visitCount
  attemptCount := node.attemptCount
  outcome := node.outcome
  output := JsonText.dumps style (outputJson node.output)
  workerId := node.workerId
  leaseToken := node.leaseToken
  leaseExpiresAt := node.leaseExpiresAt
  startedAt := node.startedAt
  completedAt := node.completedAt
  updatedAt := node.updatedAt

def nodeFromRecord (style : JsonText.Style) (record : NodeExecutionRecord) :
    Except ReadError NodeExecution := do
  let output ← outputFromColumn style record.output
  pure {
    id := record.id
    workflowExecutionId := record.workflowExecutionId
    nodeKey := record.nodeKey
    executorKey := record.executorKey
    status := record.status
    visitCount := record.visitCount
    attemptCount := record.attemptCount
    outcome := record.outcome
    output
    workerId := record.workerId
    leaseToken := record.leaseToken
    leaseExpiresAt := record.leaseExpiresAt
    startedAt := record.startedAt
    completedAt := record.completedAt
    updatedAt := record.updatedAt }

def executionRecord (style : JsonText.Style) (aggregate : Aggregate) : WorkflowExecutionRecord where
  id := aggregate.execution.id
  runId := aggregate.snapshot.runId
  snapshot := column style (snapshotToDict aggregate.snapshot)
  status := aggregate.execution.status
  failureReason := aggregate.execution.failureReason
  startedAt := aggregate.execution.startedAt
  completedAt := aggregate.execution.completedAt
  updatedAt := aggregate.execution.updatedAt
  version := aggregate.execution.version

/-! ## 2. The repository -/

namespace Tables

/-- The primary keys and the unique constraints of both tables. -/
def Distinct (tables : Tables) : Prop :=
  (tables.executions.map WorkflowExecutionRecord.id).Nodup ∧
    (tables.executions.map WorkflowExecutionRecord.runId).Nodup ∧
    (tables.nodes.map NodeExecutionRecord.id).Nodup ∧
    (tables.nodes.map fun node => (node.workflowExecutionId, node.nodeKey)).Nodup

instance (tables : Tables) : Decidable tables.Distinct := inferInstanceAs (Decidable (_ ∧ _))

/-- `SqlAlchemyWorkflowExecutionRepository.add`; the flush may meet a constraint. -/
def add (style : JsonText.Style) (tables : Tables) (aggregate : Aggregate) : Option Tables :=
  let added : Tables := {
    executions := tables.executions ++ [executionRecord style aggregate]
    nodes := tables.nodes ++ aggregate.execution.nodes.values.map (nodeRecord style) }
  if added.Distinct then some added else none

/-- `get_for_update` with `_to_execution`; the statement for the node rows has no order. -/
def get (conv : Conversions) (style : JsonText.Style)
    (arrange : List NodeExecutionRecord → List NodeExecutionRecord) (tables : Tables) (id : UUID) :
    Except ReadError (Option Aggregate) :=
  match tables.executions.find? fun record => record.id = id with
  | none => .ok none
  | some record => do
    let nodes ← (arrange (tables.nodes.filter fun node => node.workflowExecutionId = record.id)).mapM
      (nodeFromRecord style)
    let s ← loadSnapshot conv style record.snapshot
    pure (some {
      snapshot := s
      execution := {
        id := record.id
        snapshot := s.snapshot
        status := record.status
        nodes := Dict.ofList NodeExecution.nodeKey (fun node => node) nodes
        failureReason := record.failureReason
        startedAt := record.startedAt
        completedAt := record.completedAt
        updatedAt := record.updatedAt
        version := record.version } })

end Tables

/-- The assignments of `save` to the row of the execution. -/
def WorkflowExecutionRecord.assign (record : WorkflowExecutionRecord) (execution : WorkflowExecution) :
    WorkflowExecutionRecord :=
  { record with
    status := execution.status
    failureReason := execution.failureReason
    startedAt := execution.startedAt
    completedAt := execution.completedAt
    updatedAt := execution.updatedAt
    version := execution.version }

/-- The assignments of `save` to the row of a node. -/
def NodeExecutionRecord.assign (style : JsonText.Style) (record : NodeExecutionRecord)
    (node : NodeExecution) : NodeExecutionRecord :=
  { nodeRecord style node with
    id := record.id
    workflowExecutionId := record.workflowExecutionId
    nodeKey := record.nodeKey }

/-- One turn of the loop of `save`, with the rows that were stored before it by their keys. -/
def saveNode (style : JsonText.Style) (stored : Dict NodeKey NodeExecutionRecord)
    (rows : List NodeExecutionRecord) (node : NodeExecution) : List NodeExecutionRecord :=
  match stored.get? node.nodeKey with
  | none => rows ++ [nodeRecord style node]
  | some record => rows.map fun row => if row.id = record.id then row.assign style node else row

namespace Tables

def save (style : JsonText.Style) (tables : Tables) (aggregate : Aggregate) : Option Tables :=
  let execution := aggregate.execution
  match tables.executions.find? fun record => record.id = execution.id with
  | none => tables.add style aggregate
  | some _ =>
    let stored := Dict.ofList NodeExecutionRecord.nodeKey (fun record => record)
      (tables.nodes.filter fun node => node.workflowExecutionId = execution.id)
    some {
      executions := tables.executions.map fun record =>
        if record.id = execution.id then record.assign execution else record
      nodes := execution.nodes.values.foldl (saveNode style stored) tables.nodes }

end Tables

/-! ## 3. Two machines -/

inductive Request where
  | create (s : Snapshot) (id : UUID) (nodeId : NodeKey → UUID) (now : Instant)
  | operate (id : UUID) (operation : Operation)

inductive Answer where
  | created
  | integrityError
  | notFound
  | unreadable (error : ReadError)
  | answered (result : Except EngineError Unit)

def Aggregate.create (s : Snapshot) (id : UUID) (nodeId : NodeKey → UUID) (now : Instant) :
    Aggregate :=
  ⟨s, WorkflowExecution.create s.snapshot id nodeId now⟩

/-- An order in which the database may answer rows. -/
structure Arrangement where
  arrange : List NodeExecutionRecord → List NodeExecutionRecord
  perm : ∀ rows, (arrange rows).Perm rows

/-- Every request is one unit of work: it commits unless something is raised. -/
def storedStep (conv : Conversions) (style : JsonText.Style) (tables : Tables)
    (request : Request × Arrangement) : Answer × Tables :=
  match request.1 with
  | .create s id nodeId now =>
    match tables.add style (.create s id nodeId now) with
    | some added => (.created, added)
    | none => (.integrityError, tables)
  | .operate id operation =>
    match tables.get conv style request.2.arrange id with
    | .error error => (.unreadable error, tables)
    | .ok none => (.notFound, tables)
    | .ok (some aggregate) =>
      match operation.step aggregate.execution with
      | (⟨.error error, _⟩, _) => (.answered (.error error), tables)
      | (⟨.ok value, _⟩, execution) =>
        match tables.save style { aggregate with execution := execution } with
        | some saved => (.answered (.ok value), saved)
        | none => (.integrityError, tables)

def stored (conv : Conversions) (style : JsonText.Style) : Machine Tables (Request × Arrangement) Answer :=
  ⟨storedStep conv style⟩

/-- The aggregates in memory as rows. -/
def rowsOf (style : JsonText.Style) (aggregates : List Aggregate) : Tables where
  executions := aggregates.map (executionRecord style)
  nodes := aggregates.flatMap fun aggregate => aggregate.execution.nodes.values.map (nodeRecord style)

/-- No two aggregates share an identifier, a run or a node execution. -/
def Separate (aggregates : List Aggregate) : Prop :=
  let nodes := aggregates.flatMap fun aggregate => aggregate.execution.nodes.values
  (aggregates.map fun aggregate => aggregate.execution.id).Nodup ∧
    (aggregates.map fun aggregate => aggregate.snapshot.runId).Nodup ∧
    (nodes.map NodeExecution.id).Nodup ∧
    (nodes.map fun node => (node.workflowExecutionId, node.nodeKey)).Nodup

instance (aggregates : List Aggregate) : Decidable (Separate aggregates) :=
  inferInstanceAs (Decidable (_ ∧ _))

/-- The same requests on aggregates that stay in memory. -/
def memoryStep (aggregates : List Aggregate) (request : Request) : Answer × List Aggregate :=
  match request with
  | .create s id nodeId now =>
    if Separate (aggregates ++ [.create s id nodeId now]) then
      (.created, aggregates ++ [.create s id nodeId now])
    else (.integrityError, aggregates)
  | .operate id operation =>
    match aggregates.find? fun aggregate => aggregate.execution.id = id with
    | none => (.notFound, aggregates)
    | some aggregate =>
      match operation.step aggregate.execution with
      | (⟨.error error, _⟩, _) => (.answered (.error error), aggregates)
      | (⟨.ok value, _⟩, execution) =>
        (.answered (.ok value), aggregates.map fun other =>
          if other.execution.id = id then { other with execution := execution } else other)

def memory : Machine (List Aggregate) Request Answer := ⟨memoryStep⟩

end JbOrchestrator.Serialization
