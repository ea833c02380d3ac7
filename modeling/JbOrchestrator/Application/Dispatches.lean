import JbOrchestrator.Application.Payloads
import JbOrchestrator.Workflows.Recommendations

/-!
# Dispatches — one request for one idempotency key

`RequestDispatchService.dispatch` over the receipts of idempotency keys and the tables of the other
services.  A receipt is inserted unless there is one; the insert waits for a transaction that has
inserted the same key and is still open.
-/

open Lib

namespace JbOrchestrator.Application

open Domain Workflows Infrastructure Recommendations

/-! ## 1. Receipts -/

/-- `sha256:[0-9a-f]{64}`. -/
def isPayloadDigest (digest : String) : Bool :=
  decide (digest.toList.take 7 = "sha256:".toList) &&
    isHexDigest (String.ofList (digest.toList.drop 7))

/-- The columns of `uq_dispatch_receipts_project_ingress_key`. -/
structure ReceiptKey where
  projectId : UUID
  ingressKey : String
  idempotencyKey : String
  deriving DecidableEq, Repr

structure RequestDispatchReceipt where
  id : UUID
  projectId : UUID
  ingressKey : String := "legacy"
  idempotencyKey : String
  payloadDigest : String
  requestId : Option UUID := none
  runId : Option UUID := none
  workflowExecutionId : Option UUID := none
  createdAt : Instant
  completedAt : Option Instant := none
  deriving DecidableEq, Repr

namespace RequestDispatchReceipt

/-- The constructor with its `__post_init__`, without result identifiers. -/
def create (id projectId : UUID) (ingressKey idempotencyKey payloadDigest : String) (now : Instant) :
    Except DomainError RequestDispatchReceipt :=
  if isIngressKey (Text.strip ingressKey) = false then
    .error (.domainValidationError "dispatch receipt ingress key is invalid")
  else if Text.strip idempotencyKey = "" ∨ 128 < (Text.strip idempotencyKey).length then
    .error (.domainValidationError "idempotency key must contain 1-128 characters")
  else if isPayloadDigest payloadDigest = false then
    .error (.domainValidationError "dispatch payload digest must be a SHA-256 digest")
  else .ok { id, projectId, ingressKey := Text.strip ingressKey,
             idempotencyKey := Text.strip idempotencyKey, payloadDigest, createdAt := now }

variable (receipt : RequestDispatchReceipt)

def key : ReceiptKey := ⟨receipt.projectId, receipt.ingressKey, receipt.idempotencyKey⟩

def isComplete : Bool :=
  receipt.requestId.isSome && receipt.runId.isSome && receipt.workflowExecutionId.isSome

def complete (requestId runId workflowExecutionId : UUID) (at_ : Instant) :
    Except DomainError RequestDispatchReceipt :=
  if receipt.isComplete then
    .error (.domainValidationError "dispatch receipt is already complete")
  else .ok { receipt with
    requestId := some requestId
    runId := some runId
    workflowExecutionId := some workflowExecutionId
    completedAt := some at_ }

end RequestDispatchReceipt

/-! ## 2. Compatibility -/

structure WorkflowCompatibilityIssue where
  code : String
  nodeKey : String
  executorKey : String
  message : String

/-- `not isinstance(mode, str) or mode.strip() != "shared"`. -/
def unsupportedMode (configuration : JsonObject) : Bool :=
  match Json.lookup configuration "workspace_mode" with
  | none => false
  | some (.scalar (.str mode)) => Text.strip mode ≠ "shared"
  | some _ => true

/-- `cwd is not None and (not isinstance(cwd, str) or bool(cwd.strip()))`. -/
def dynamicCwd (configuration : JsonObject) : Bool :=
  match Json.lookup configuration "cwd" with
  | none | some (.scalar .null) => false
  | some (.scalar (.str cwd)) => Text.strip cwd ≠ ""
  | some _ => true

/-- `assess_workflow_compatibility`, for one node. -/
def nodeIssues (node : NodeDefinition) : List WorkflowCompatibilityIssue :=
  let key := node.executorKey.getD ""
  let executorKey := if key = "" then "default" else key
  if executorKey ≠ "openclaw" then []
  else
    (if unsupportedMode node.configuration then
      [⟨"openclaw.workspace_mode_unsupported", node.key, executorKey,
        "OpenClaw supports only the preconfigured agent workspace; " ++
          "git_worktree and custom workspace modes are unavailable"⟩]
    else []) ++
    if dynamicCwd node.configuration then
      [⟨"openclaw.dynamic_cwd_unsupported", node.key, executorKey,
        "OpenClaw does not allow node-level cwd overrides; configure the " ++
          "project workspace on the selected OpenClaw agent"⟩]
    else []

def assessWorkflowCompatibility (definition : WorkflowDefinition) :
    List WorkflowCompatibilityIssue :=
  definition.nodes.flatMap nodeIssues

def incompatibleWorkflowMessage (issues : List WorkflowCompatibilityIssue) : String :=
  "workflow is incompatible with current executor capabilities: " ++
    "; ".intercalate (issues.map fun issue =>
      issue.code ++ " at node " ++ issue.nodeKey ++ ": " ++ issue.message)

/-! ## 3. Tables and statements -/

structure ProjectWorkflowBinding where
  projectId : UUID
  definitionId : UUID
  definitionKey : String
  definitionVersion : ℕ

/-- What a dispatch writes beside the columns of the other services: the origin of the request and the
payload of its `request.created` event. -/
structure RequestCreated where
  requestId : UUID
  projectId : UUID
  runId : UUID
  origin : RequestOrigin
  selectionSource : String
  definitionKey : String
  definitionVersion : ℕ
  recommendationId : Option UUID
  skillAddons : List NodeSkillAddon

/-- The committed rows. -/
structure DispatchWorld where
  database : Database
  bindings : Dict UUID ProjectWorkflowBinding := .empty
  recommendations : Dict UUID (RecordedWorkflowRecommendation String) := .empty
  receipts : Dict ReceiptKey RequestDispatchReceipt := .empty
  created : List RequestCreated := []

/-- The unit of work of a dispatch; `receipt` is the row that it has written. -/
structure DispatchUnit where
  unitOfWork : UnitOfWork := {}
  receipt : Option RequestDispatchReceipt := none
  created : List RequestCreated := []

inductive DispatchLock where
  | row (lock : RowLock)
  | binding (projectId : UUID)
  /-- an entry of the unique index whose transaction is open -/
  | claim (key : ReceiptKey)
  | receipt (key : ReceiptKey)
  deriving DecidableEq, Repr

inductive DispatchStatement where
  | row (statement : Statement)
  | recommendation (id : UUID)
  | binding (projectId : UUID)
  | tryClaim (receipt : RequestDispatchReceipt)
  | loadReceipt (key : ReceiptKey)
  | saveReceipt (receipt : RequestDispatchReceipt)
  | describe (created : RequestCreated)

inductive DispatchError where
  | service (error : ServiceError)
  | definition (error : WorkflowDefinitionError)
  /-- whatever stops a call from outside -/
  | interrupted (reason : String)
  deriving DecidableEq, Repr

namespace DispatchStatement

abbrev Reply : DispatchStatement → Type
  | .row statement => statement.Reply
  | .recommendation _ => Option (RecordedWorkflowRecommendation String)
  | .binding _ => Option ProjectWorkflowBinding
  | .tryClaim _ => Bool
  | .loadReceipt _ => Option RequestDispatchReceipt
  | .saveReceipt _ => Bool
  | .describe _ => Unit

/-- The locks that a statement takes. -/
def locks (world : DispatchWorld) (taken : DispatchLock → Bool) : DispatchStatement → List DispatchLock
  | .row statement =>
    (statement.locks world.database fun lock => taken (.row lock)).map .row
  | .binding projectId =>
    if (world.bindings.get? projectId).isSome then [.binding projectId] else []
  -- a committed row of the key ends the insert at once, whoever has locked it
  | .tryClaim receipt => if (world.receipts.get? receipt.key).isSome then [] else [.claim receipt.key]
  | .loadReceipt key => if (world.receipts.get? key).isSome then [.receipt key] else []
  | _ => []

/-- `session.get`, by the primary key. -/
def receiptOf (world : DispatchWorld) (dispatchUnit : DispatchUnit) (id : UUID) :
    Option RequestDispatchReceipt :=
  (dispatchUnit.receipt.toList ++ world.receipts.values).find? fun receipt => receipt.id = id

/-- The reply and the unit of work after it. -/
def answer (world : DispatchWorld) (taken : DispatchLock → Bool) (dispatchUnit : DispatchUnit) :
    (statement : DispatchStatement) → statement.Reply × DispatchUnit
  | .row statement =>
    let reply := statement.answer world.database (fun lock => taken (.row lock)) dispatchUnit.unitOfWork
    (reply.1, { dispatchUnit with unitOfWork := reply.2 })
  | .recommendation id => (world.recommendations.get? id, dispatchUnit)
  | .binding projectId => (world.bindings.get? projectId, dispatchUnit)
  | .tryClaim receipt =>
    if (world.receipts.get? receipt.key).isSome then (false, dispatchUnit)
    else (true, { dispatchUnit with receipt := some receipt })
  | .loadReceipt key => (world.receipts.get? key, dispatchUnit)
  | .saveReceipt receipt =>
    match receiptOf world dispatchUnit receipt.id with
    | none => (false, dispatchUnit)
    | some stored => (true, { dispatchUnit with
        receipt := some { stored with
          requestId := receipt.requestId
          runId := receipt.runId
          workflowExecutionId := receipt.workflowExecutionId
          completedAt := receipt.completedAt } })
  | .describe created => ((), { dispatchUnit with created := dispatchUnit.created ++ [created] })

/-- A statement waits while a lock it takes is taken. -/
def exec (world : DispatchWorld) (taken : DispatchLock → Bool) (dispatchUnit : DispatchUnit)
    (statement : DispatchStatement) :
    Option (statement.Reply × DispatchUnit × List DispatchLock) :=
  if (statement.locks world taken).any taken then none
  else
    some ((statement.answer world taken dispatchUnit).1, (statement.answer world taken dispatchUnit).2,
      statement.locks world taken)

theorem exec_eq_some {world : DispatchWorld} {taken : DispatchLock → Bool}
    {dispatchUnit after : DispatchUnit} {statement : DispatchStatement} {reply : statement.Reply}
    {acquired : List DispatchLock}
    (h : statement.exec world taken dispatchUnit = some (reply, after, acquired)) :
    reply = (statement.answer world taken dispatchUnit).1 ∧
      after = (statement.answer world taken dispatchUnit).2 ∧
      acquired = statement.locks world taken ∧ ∀ lock ∈ acquired, taken lock = false := by
  unfold exec at h
  split at h
  · cases h
  · rename_i hfree
    obtain ⟨rfl, rfl, rfl⟩ := by simpa using h
    exact ⟨rfl, rfl, rfl, by simpa using hfree⟩

theorem exec_isSome (world : DispatchWorld) (dispatchUnit : DispatchUnit)
    (statement : DispatchStatement) :
    (statement.exec world (fun _ => false) dispatchUnit).isSome := by
  simp [exec]

end DispatchStatement

/-! ## 4. The service -/

abbrev Dispatching := Program DispatchStatement DispatchStatement.Reply DispatchError

/-- A part of a transaction of the other services. -/
def lift {α : Type} : Transaction α → Dispatching α
  | .done value => .done value
  | .raise error => .raise (.service error)
  | .ask statement next => .ask (.row statement) fun reply => lift (next reply)

def ask (statement : DispatchStatement) : Dispatching statement.Reply := Program.perform statement

def conflict (message : String) : DispatchError := .service (.resourceConflict message)

def runtimeError {α : Type} (message : String) : Dispatching α :=
  .raise (.service (.runtimeError message))

structure DispatchedRequest where
  request : UserRequest
  run : Run
  workflow : WorkflowExecution
  replayed : Bool := false

/-- What `uuid4` and `datetime.now` give in a call. -/
structure Draws where
  receiptId : UUID
  requestId : UUID
  runId : UUID
  executionId : UUID
  nodeId : NodeKey → UUID
  now : Instant

namespace RequestDispatchService

variable (sha256 : Sha256) (command : DispatchProjectRequest) (draws : Draws)

/-- `_replay`. -/
def replay (receipt : RequestDispatchReceipt) : Dispatching DispatchedRequest :=
  match receipt.requestId, receipt.runId, receipt.workflowExecutionId with
  | some requestId, some runId, some executionId => do
    let request ← lift (perform (.request requestId false))
    let run ← lift (perform (.run runId false))
    let record ← lift (perform (.execution executionId false))
    let workflow ← lift (toExecution record)
    match request, run, workflow with
    | some request, some run, some workflow => pure { request, run, workflow, replayed := true }
    | _, _, _ => .raise (conflict "completed request dispatch result is unavailable")
  | _, _, _ => .raise
      (conflict "request dispatch with this idempotency key is still in progress")

/-- `workflow_definitions.get` for a version that may be negative. -/
def getDefinition (key : String) : ℤ → Dispatching (Option AcceptedDefinition)
  | .ofNat version => lift (perform (.definition key (some version)))
  | .negSucc _ => pure none

/-- The definition that the request names. -/
def namedDefinition (named : String × ℤ) : Dispatching AcceptedDefinition := do
  let definition ← getDefinition named.1 named.2
  Program.ofOption (.service (.resourceNotFound
    ("workflow definition not found: " ++ named.1 ++ "@" ++ toString named.2))) definition

/-- The definition that the project is bound to. -/
def boundDefinition (projectId : UUID) : Dispatching AcceptedDefinition := do
  let row ← ask (.binding projectId)
  let binding ← Program.ofOption
    (conflict ("project workflow binding is not configured: " ++ toString projectId)) row
  let definition ←
    lift (perform (.definition binding.definitionKey (some binding.definitionVersion)))
  Program.ofOption (conflict ("bound workflow definition is unavailable: " ++ toString projectId))
    (definition.filter fun definition => definition.definition.id = binding.definitionId)

def SelectionSource.value : SelectionSource → String
  | .policyRecommendation => "policy_recommendation"
  | .confirmedRecommendation => "confirmed_recommendation"

/-- The definition of the execution and where it comes from. -/
def selectDefinition (payload : DispatchPayload) : Dispatching (AcceptedDefinition × String) :=
  match payload.recommendationId with
  | some recommendationId => do
    let event ← ask (.recommendation recommendationId)
    let selected ← Program.ofExcept ((selectRecommended (promptDigest sha256) event recommendationId
      command.projectId payload.prompt payload.workflow).mapError .service)
    let definition ← namedDefinition selected.1
    pure (definition, SelectionSource.value selected.2)
  | none =>
    match payload.workflow with
    | some named => do
      let definition ← namedDefinition named
      pure (definition, "request_override")
    | none => do
      let definition ← boundDefinition command.projectId
      pure (definition, "project_binding")

/-- `dispatch`, behind the claim of the key. -/
def createRequested (payload : DispatchPayload) (project : Project) (receipt : RequestDispatchReceipt) :
    Dispatching DispatchedRequest :=
  if project.status ≠ .active then
    .raise (conflict ("project is not active: " ++ toString command.projectId))
  else do
    let (selected, source) ← selectDefinition sha256 command payload
    let composed ← lift (applySkillAddons selected payload.skillAddons)
    let definition ← Program.ofExcept (composed.mapError .definition)
    let issues := assessWorkflowCompatibility definition.definition
    if issues.isEmpty = false then .raise (conflict (incompatibleWorkflowMessage issues))
    else do
      let request ← lift (throwDomain
        (UserRequest.create draws.requestId project.id payload.prompt payload.title draws.now))
      let request ← lift (throwDomain (request.activate draws.now))
      let run : Run :=
        { id := draws.runId, requestId := request.id, createdAt := draws.now, updatedAt := draws.now }
      lift (perform (.addRequest request))
      lift (perform (.addRun run))
      lift (perform (.append (.requestCreated request.id project.id run.id)))
      ask (.describe {
        requestId := request.id
        projectId := project.id
        runId := run.id
        origin := command.origin
        selectionSource := source
        definitionKey := definition.definition.key
        definitionVersion := definition.definition.version
        recommendationId := command.recommendationId
        skillAddons := payload.skillAddons })
      let workflow ← lift (createExecution run request project definition source draws.executionId
        draws.nodeId draws.now)
      let run ← lift (perform (.run run.id false))
      let request ← lift (perform (.request request.id false))
      match run, request with
      | some run, some request => do
        let receipt ← lift (throwDomain
          (receipt.complete request.id run.id workflow.id workflow.updatedAt))
        let saved ← ask (.saveReceipt receipt)
        if saved then pure { request, run, workflow }
        else runtimeError ("dispatch receipt not found: " ++ toString receipt.id)
      | _, _ => runtimeError "dispatched request lifecycle state was not persisted"

/-- `dispatch`, from the claim of the key on. -/
def claimOrReplay (payload : DispatchPayload) (project : Project) (receipt : RequestDispatchReceipt) :
    Dispatching DispatchedRequest := do
  let claimed ← ask (.tryClaim receipt)
  if claimed then createRequested sha256 command draws payload project receipt
  else do
    let row ← ask (.loadReceipt receipt.key)
    let existing ← Program.ofOption
      (.service (.runtimeError "claimed dispatch receipt could not be loaded")) row
    if existing.payloadDigest ≠ receipt.payloadDigest then
      .raise (conflict "idempotency key was already used with a different request payload")
    else replay existing

def dispatch : Dispatching DispatchedRequest := do
  let payload ← lift (Program.ofExcept command.normalize)
  let row ← lift (perform (.project command.projectId))
  let project ← lift (Program.ofOption (notFound "project" command.projectId) row)
  let receipt ← lift (throwDomain (RequestDispatchReceipt.create draws.receiptId command.projectId
    command.origin.ingressKey command.idempotencyKey (payload.digest sha256) draws.now))
  claimOrReplay sha256 command draws payload project receipt

end RequestDispatchService

end JbOrchestrator.Application
