import JbOrchestrator.Workflows.Models

/-!
# Engine — the workflow state transition engine

The methods of `WorkflowEngine`.  They mutate one aggregate in place, so an operation is a state
transformer that keeps its state when it raises.  The instants are the `changed_at` of the source and
a fresh token is an argument.  `EngineState` carries one thing the source does not have: the list of
calls of `_activate` so far, a history variable that no operation reads.
-/

open Lib

namespace JbOrchestrator.Workflows

/-- What an operation can raise.  Only the first one is raised on purpose; `recursionError` is the
fuel of `activate` running out. -/
inductive EngineError where
  | workflowExecutionError (message : String)
  | keyError (key : NodeKey)
  | stopIteration (key : NodeKey)
  | recursionError
  deriving DecidableEq, Repr

/-- One call of `_activate` with the aggregate it met; `resets` says that it got past the guards and
started a new visit of `node`. -/
structure ActivateCall where
  node : NodeKey
  before : WorkflowExecution
  resets : Bool

structure EngineState where
  execution : WorkflowExecution
  calls : List ActivateCall := []

abbrev EngineM := EStateM EngineError EngineState

/-! ## 1. Updates of the aggregate -/

namespace NodeExecution

def clearLease (node : NodeExecution) : NodeExecution :=
  { node with workerId := none, leaseToken := none, leaseExpiresAt := none }

/-- The reset at the start of a visit. -/
def visit (node : NodeExecution) (changedAt : Instant) : NodeExecution :=
  { ({ node with
      visitCount := node.visitCount + 1
      attemptCount := 0
      outcome := none
      output := none
      startedAt := none
      completedAt := none } : NodeExecution).clearLease with updatedAt := changedAt }

def cancel (node : NodeExecution) (changedAt : Instant) : NodeExecution :=
  if node.status.isActive then
    ({ node with
      status := .cancelled
      completedAt := some changedAt
      updatedAt := changedAt } : NodeExecution).clearLease
  else node

end NodeExecution

namespace WorkflowExecution

def touch (execution : WorkflowExecution) (changedAt : Instant) : WorkflowExecution :=
  { execution with updatedAt := changedAt, version := execution.version + 1 }

def modifyNode (execution : WorkflowExecution) (nodeKey : NodeKey)
    (f : NodeExecution → NodeExecution) : WorkflowExecution :=
  { execution with nodes := execution.nodes.modify nodeKey f }

def cancelActiveNodes (execution : WorkflowExecution) (changedAt : Instant) : WorkflowExecution :=
  { execution with nodes := execution.nodes.mapValues fun node => node.cancel changedAt }

/-- `_fail`. -/
def fail (execution : WorkflowExecution) (reason : String) (changedAt : Instant) :
    WorkflowExecution :=
  ({ execution.cancelActiveNodes changedAt with
    status := .failed
    failureReason := some reason
    completedAt := some changedAt } : WorkflowExecution).touch changedAt

end WorkflowExecution

/-! ## 2. Selecting the targets of a route -/

/-- `token.replace("~1", "/").replace("~0", "~")`. -/
def unescape (token : List Char) : List Char :=
  Text.replacePair '~' '0' '~' (Text.replacePair '~' '1' '/' token)

def descend (value : Json) (key : List Char) : Option Json :=
  match value with
  | .dict entries => Json.lookup entries (String.ofList key)
  | .list items =>
    if key = ['0'] ∨ (key ≠ [] ∧ key.head? ≠ some '0' ∧ key.all Text.isDigit) then
      items[Text.digitsToNat key]?
    else none
  | .scalar _ => none

def jsonPointer (document : Json) (pointer : String) : Option Json :=
  (pointer.toList.splitOn '/').tail.foldl
    (fun value token => value.bind fun v => descend v (unescape token)) (some document)

def ArtifactCondition.holds (condition : ArtifactCondition) (output : Option JsonObject) : Bool :=
  (jsonPointer (.dict (output.getD [])) condition.path).any fun value => value.is condition.equals

def selectTargets (edges : List EdgeDefinition) (output : Option JsonObject) : List NodeKey :=
  let conditional := edges.filter fun edge => edge.condition.isSome
  if conditional = [] then (edges.map EdgeDefinition.target).insertionSort (· ≤ ·)
  else
    match conditional.find? fun edge => edge.condition.any fun condition => condition.holds output with
    | some edge => [edge.target]
    | none =>
      match edges.find? fun edge => edge.condition.isNone with
      | some default => [default.target]
      | none => []

/-! ## 3. Activation and routing -/

namespace WorkflowEngine

def raise {α : Type} (message : String) : EngineM α := throw (.workflowExecutionError message)

def raiseIf (condition : Prop) [Decidable condition] (message : String) : EngineM Unit :=
  if condition then raise message else pure ()

def modifyExecution (f : WorkflowExecution → WorkflowExecution) : EngineM Unit :=
  modify fun state => { state with execution := f state.execution }

def nodeExecution (nodeKey : NodeKey) : EngineM NodeExecution := do
  match (← get).execution.nodes.get? nodeKey with
  | some node => pure node
  | none => raise ("unknown workflow node: " ++ nodeKey)

def nodeDefinition (nodeKey : NodeKey) : EngineM NodeDefinition := do
  match (← get).execution.snapshot.node nodeKey with
  | some definition => pure definition
  | none => throw (.stopIteration nodeKey)

def modifyNode (nodeKey : NodeKey) (f : NodeExecution → NodeExecution) : EngineM Unit :=
  modifyExecution fun execution => execution.modifyNode nodeKey f

def touch (changedAt : Instant) : EngineM Unit :=
  modifyExecution fun execution => execution.touch changedAt

def fail (reason : String) (changedAt : Instant) : EngineM Unit :=
  modifyExecution fun execution => execution.fail reason changedAt

/-- The generator inside `_join_is_ready`: it stops at the first source that has not succeeded. -/
def allSucceeded : List NodeKey → EngineM Bool
  | [] => pure true
  | source :: sources => do
    match (← get).execution.nodes.get? source with
    | none => throw (.keyError source)
    | some node => if node.status = .succeeded then allSucceeded sources else pure false

def joinIsReady (nodeKey : NodeKey) : EngineM Bool := do
  allSucceeded ((← get).execution.snapshot.incomingSources nodeKey)

/-- The loop of `_route`: it stops after the target that ended the execution. -/
def activateAll (activate : NodeKey → EngineM Unit) : List NodeKey → EngineM Unit
  | [] => pure ()
  | target :: targets => do
    activate target
    if (← get).execution.isTerminal then pure () else activateAll activate targets

/-- `_route`, with the `_activate` it calls as an argument. -/
def routeWith (activate : NodeKey → EngineM Unit) (source : NodeKey) (outcome : NodeOutcome)
    (output : Option JsonObject) (changedAt : Instant) : EngineM Unit := do
  let edges := (← get).execution.snapshot.routeEdges source outcome
  let targets := selectTargets edges output
  if targets = [] then
    let reason :=
      if edges = [] then "no edge for " ++ source ++ ":" ++ outcome.value
      else "no matching edge for " ++ source ++ ":" ++ outcome.value
    fail reason changedAt
  else activateAll activate targets

def recordCall (nodeKey : NodeKey) (resets : Bool) : EngineM Unit :=
  modify fun state =>
    { state with calls := state.calls ++ [⟨nodeKey, state.execution, resets⟩] }

/-- The part of `_activate` behind its guards. -/
def enter (activate : NodeKey → EngineM Unit) (nodeKey : NodeKey) (definition : NodeDefinition)
    (changedAt : Instant) : EngineM Unit := do
  recordCall nodeKey true
  modifyNode nodeKey fun node => node.visit changedAt
  match definition.kind with
  | .task =>
    modifyNode nodeKey fun node => { node with status := .ready }
    touch changedAt
  | .approval =>
    modifyNode nodeKey fun node => { node with status := .awaitingApproval }
    modifyExecution fun execution => { execution with status := .awaitingApproval }
    touch changedAt
  | .fork | .join =>
    modifyNode nodeKey fun node =>
      { node with status := .succeeded, outcome := some .success, completedAt := some changedAt }
    touch changedAt
    routeWith activate nodeKey .success none changedAt
  | .terminal =>
    modifyNode nodeKey fun node =>
      { node with status := .succeeded, outcome := some .success, completedAt := some changedAt }
    modifyExecution fun execution =>
      { execution with
        status := definition.terminalStatus.getD .failed
        completedAt := some changedAt }
    modifyExecution fun execution => execution.cancelActiveNodes changedAt
    modifyExecution fun execution =>
      if execution.status = .failed then
        { execution with failureReason := some ("workflow reached failure terminal: " ++ nodeKey) }
      else execution
    touch changedAt

/-- `_activate`.  Its recursion goes through `_route` and is indexed by fuel. -/
def activate : ℕ → NodeKey → Instant → EngineM Unit
  | 0, _, _ => throw .recursionError
  | fuel + 1, nodeKey, changedAt => do
    let node ← nodeExecution nodeKey
    let definition ← nodeDefinition nodeKey
    let waiting ← if definition.kind = .join then (! ·) <$> joinIsReady nodeKey else pure false
    if waiting then recordCall nodeKey false
    else if node.visitCount ≥ definition.maxVisits then
      recordCall nodeKey false
      fail ("node visit limit exceeded: " ++ nodeKey) changedAt
    else enter (fun target => activate fuel target changedAt) nodeKey definition changedAt

/-- More fuel than any chain of forks and joins is long. -/
def recursionLimit : EngineM ℕ := do
  return (← get).execution.snapshot.nodes.length + 1

def route (source : NodeKey) (outcome : NodeOutcome) (output : Option JsonObject)
    (changedAt : Instant) : EngineM Unit := do
  let fuel ← recursionLimit
  routeWith (fun target => activate fuel target changedAt) source outcome output changedAt

/-! ## 4. The operations -/

def start (changedAt : Instant) : EngineM Unit := do
  raiseIf ((← get).execution.status ≠ .pending) "only a pending workflow can be started"
  modifyExecution fun execution =>
    { execution with status := .running, startedAt := some changedAt }
  touch changedAt
  let fuel ← recursionLimit
  activate fuel (← get).execution.snapshot.entryNode changedAt

def beginTask (nodeKey : NodeKey) (changedAt : Instant) : EngineM Unit := do
  let node ← nodeExecution nodeKey
  let definition ← nodeDefinition nodeKey
  raiseIf (definition.kind ≠ .task ∨ node.status ≠ .ready) "only a ready task node can begin"
  raiseIf (node.attemptCount ≥ definition.maxAttempts) "node attempt limit has been reached"
  modifyNode nodeKey fun node =>
    { node with
      status := .running
      attemptCount := node.attemptCount + 1
      startedAt := some changedAt
      updatedAt := changedAt }
  touch changedAt

/-- `timedelta(seconds=...)`. -/
def seconds (n : ℕ) : ℤ := 1000000 * n

def claimTask (nodeKey : NodeKey) (workerId : String) (leaseSeconds : ℕ) (leaseToken : UUID)
    (changedAt : Instant) : EngineM Unit := do
  raiseIf (Text.isBlank workerId) "worker_id must not be empty"
  raiseIf (leaseSeconds < 1) "lease_seconds must be greater than zero"
  beginTask nodeKey changedAt
  modifyNode nodeKey fun node =>
    { node with
      workerId := some workerId
      leaseToken := some leaseToken
      leaseExpiresAt := some (changedAt + seconds leaseSeconds) }

def validateOptionalLease (node : NodeExecution) (leaseToken : Option UUID) (changedAt : Instant) :
    EngineM Unit :=
  match node.leaseToken with
  | none => raiseIf (leaseToken ≠ none) "node is not leased"
  | some token => do
    raiseIf (leaseToken ≠ some token) "task lease token does not match"
    raiseIf (node.leaseExpiresAt.all fun expiresAt => expiresAt ≤ changedAt)
      "task lease has expired"

def ownedRunningNode (nodeKey : NodeKey) (leaseToken : UUID) (changedAt : Instant) :
    EngineM NodeExecution := do
  let node ← nodeExecution nodeKey
  raiseIf (node.status ≠ .running) "only a running task node can renew a lease"
  validateOptionalLease node (some leaseToken) changedAt
  return node

def renewLease (nodeKey : NodeKey) (leaseToken : UUID) (leaseSeconds : ℕ) (changedAt : Instant) :
    EngineM Unit := do
  raiseIf (leaseSeconds < 1) "lease_seconds must be greater than zero"
  let _ ← ownedRunningNode nodeKey leaseToken changedAt
  modifyNode nodeKey fun node =>
    { node with leaseExpiresAt := some (changedAt + seconds leaseSeconds), updatedAt := changedAt }
  touch changedAt

def completeTask (nodeKey : NodeKey) (outcome : NodeOutcome) (output : Option JsonObject)
    (leaseToken : Option UUID) (changedAt : Instant) : EngineM Unit := do
  let node ← nodeExecution nodeKey
  raiseIf (node.status ≠ .running) "only a running task node can complete"
  raiseIf (outcome ≠ .success ∧ outcome ≠ .failure)
    "task nodes require success or failure outcome"
  validateOptionalLease node leaseToken changedAt
  modifyNode nodeKey fun node =>
    ({ node with
      status := .succeeded
      outcome := some outcome
      output := output
      completedAt := some changedAt
      updatedAt := changedAt } : NodeExecution).clearLease
  touch changedAt
  route nodeKey outcome output changedAt

/-- `_handle_task_failure`; `node` is the node execution stored under `nodeKey`. -/
def handleTaskFailure (nodeKey : NodeKey) (node : NodeExecution) (reason : String)
    (changedAt : Instant) : EngineM Unit := do
  let definition ← nodeDefinition node.nodeKey
  modifyNode nodeKey NodeExecution.clearLease
  if node.attemptCount < definition.maxAttempts then
    modifyNode nodeKey fun node => { node with status := .ready, updatedAt := changedAt }
    touch changedAt
  else
    modifyNode nodeKey fun node =>
      { node with status := .failed, completedAt := some changedAt, updatedAt := changedAt }
    let reason := Text.strip reason
    fail (if reason = "" then "task execution failed" else reason) changedAt

def failTask (nodeKey : NodeKey) (reason : String) (leaseToken : Option UUID)
    (changedAt : Instant) : EngineM Unit := do
  let node ← nodeExecution nodeKey
  raiseIf (node.status ≠ .running) "only a running task node can fail"
  validateOptionalLease node leaseToken changedAt
  handleTaskFailure nodeKey node reason changedAt

def expireTask (nodeKey : NodeKey) (changedAt : Instant) : EngineM Unit := do
  let node ← nodeExecution nodeKey
  match node.leaseExpiresAt with
  | none => raise "node has no active lease"
  | some expiresAt =>
    raiseIf (node.status ≠ .running) "node has no active lease"
    raiseIf (changedAt < expiresAt) "node lease has not expired"
    handleTaskFailure nodeKey node "task lease expired" changedAt

def resolveApproval (nodeKey : NodeKey) (approved : Bool) (changedAt : Instant) :
    EngineM Unit := do
  let node ← nodeExecution nodeKey
  raiseIf (node.status ≠ .awaitingApproval) "node is not awaiting approval"
  let outcome : NodeOutcome := if approved then .approved else .rejected
  modifyNode nodeKey fun node =>
    { node with
      status := .succeeded
      outcome := some outcome
      completedAt := some changedAt
      updatedAt := changedAt }
  modifyExecution fun execution => { execution with status := .running }
  touch changedAt
  route nodeKey outcome none changedAt

def cancel (changedAt : Instant) : EngineM Unit := do
  raiseIf (← get).execution.isTerminal "terminal workflow cannot be cancelled"
  modifyExecution fun execution => execution.cancelActiveNodes changedAt
  modifyExecution fun execution =>
    { execution with status := .cancelled, completedAt := some changedAt }
  touch changedAt

end WorkflowEngine

/-- The public operations with their arguments. -/
inductive Operation where
  | start (changedAt : Instant)
  | beginTask (nodeKey : NodeKey) (changedAt : Instant)
  | claimTask (nodeKey : NodeKey) (workerId : String) (leaseSeconds : ℕ) (leaseToken : UUID)
      (changedAt : Instant)
  | renewLease (nodeKey : NodeKey) (leaseToken : UUID) (leaseSeconds : ℕ) (changedAt : Instant)
  | completeTask (nodeKey : NodeKey) (outcome : NodeOutcome) (output : Option JsonObject)
      (leaseToken : Option UUID) (changedAt : Instant)
  | failTask (nodeKey : NodeKey) (reason : String) (leaseToken : Option UUID) (changedAt : Instant)
  | expireTask (nodeKey : NodeKey) (changedAt : Instant)
  | resolveApproval (nodeKey : NodeKey) (approved : Bool) (changedAt : Instant)
  | cancel (changedAt : Instant)

namespace Operation

def call : Operation → EngineM Unit
  | .start at' => WorkflowEngine.start at'
  | .beginTask nodeKey at' => WorkflowEngine.beginTask nodeKey at'
  | .claimTask nodeKey workerId leaseSeconds leaseToken at' =>
    WorkflowEngine.claimTask nodeKey workerId leaseSeconds leaseToken at'
  | .renewLease nodeKey leaseToken leaseSeconds at' =>
    WorkflowEngine.renewLease nodeKey leaseToken leaseSeconds at'
  | .completeTask nodeKey outcome output leaseToken at' =>
    WorkflowEngine.completeTask nodeKey outcome output leaseToken at'
  | .failTask nodeKey reason leaseToken at' => WorkflowEngine.failTask nodeKey reason leaseToken at'
  | .expireTask nodeKey at' => WorkflowEngine.expireTask nodeKey at'
  | .resolveApproval nodeKey approved at' => WorkflowEngine.resolveApproval nodeKey approved at'
  | .cancel at' => WorkflowEngine.cancel at'

end Operation

end JbOrchestrator.Workflows
