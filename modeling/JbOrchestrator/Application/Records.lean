import JbOrchestrator.Domain.Aggregates
import JbOrchestrator.ModelRouting.Router
import JbOrchestrator.Workflows.Operations

/-!
# Records — what the services store, raise and hand out

Task artifacts, task claims, domain events and the errors of the application layer.
-/

open Lib

namespace JbOrchestrator.Application

open Domain Workflows

/-! ## 1. Errors -/

inductive ServiceError where
  | resourceNotFound (message : String)
  | resourceConflict (message : String)
  | domain (error : DomainError)
  | engine (error : EngineError)
  | modelRouting (error : ModelRouting.ModelRoutingError)
  | runtimeError (message : String)
  | integrityError
  | staleDataError
  deriving DecidableEq, Repr

/-- The error is an `InvalidStateTransition`. -/
def ServiceError.isTransition : ServiceError → Bool
  | .domain error => error.isTransition
  | _ => false

def notFound (resource : String) (id : UUID) : ServiceError :=
  .resourceNotFound (resource ++ " not found: " ++ toString id)

/-! ## 2. Artifacts and output contracts -/

structure TaskArtifact where
  id : UUID
  executionId : UUID
  producerNodeKey : NodeKey
  visitCount : ℕ
  outcome : NodeOutcome
  content : JsonObject
  createdAt : Instant

/-- The columns of `uq_task_artifacts_execution_node_visit`. -/
def TaskArtifact.key (artifact : TaskArtifact) : UUID × NodeKey × ℕ :=
  (artifact.executionId, artifact.producerNodeKey, artifact.visitCount)

/-- The constructor with its `__post_init__`. -/
def TaskArtifact.create (id executionId : UUID) (producerNodeKey : NodeKey) (visitCount : ℕ)
    (outcome : NodeOutcome) (content : JsonObject) (createdAt : Instant) :
    Except DomainError TaskArtifact :=
  if Text.isBlank producerNodeKey then
    .error (.domainValidationError "artifact producer node key must not be empty")
  else if visitCount < 1 then
    .error (.domainValidationError "artifact visit count must be greater than zero")
  else if outcome ≠ .success ∧ outcome ≠ .failure then
    .error (.domainValidationError "task artifact outcome must be success or failure")
  else
    .ok ⟨id, executionId, producerNodeKey, visitCount, outcome, content, createdAt⟩

theorem TaskArtifact.create_key {id executionId : UUID} {producerNodeKey : NodeKey}
    {visitCount : ℕ} {outcome : NodeOutcome} {content : JsonObject} {createdAt : Instant}
    {artifact : TaskArtifact}
    (h : create id executionId producerNodeKey visitCount outcome content createdAt =
      .ok artifact) : artifact.key = (executionId, producerNodeKey, visitCount) := by
  unfold create at h
  split at h
  · cases h
  · split at h
    · cases h
    · split at h
      · cases h
      · obtain rfl := Except.ok.inj h
        rfl

theorem TaskArtifact.create_error {id executionId : UUID} {producerNodeKey : NodeKey}
    {visitCount : ℕ} {outcome : NodeOutcome} {content : JsonObject} {createdAt : Instant}
    {error : DomainError}
    (h : create id executionId producerNodeKey visitCount outcome content createdAt =
      .error error) : error.isTransition = false := by
  unfold create at h
  repeat' split at h
  all_goals first | (obtain rfl := Except.error.inj h; rfl) | cases h

structure OutputContractViolation where
  path : String
  message : String
  keyword : Option String

/-- `validate_output`, the JSON Schema validator of a third party: contract, output, violations. -/
abbrev OutputValidator := JsonObject → JsonObject → List OutputContractViolation

structure OutputContractDecision where
  outcome : NodeOutcome
  output : JsonObject
  rejected : Bool := false

def jsonText (value : String) : Json := .scalar (.str value)

def OutputContractViolation.toJson (violation : OutputContractViolation) : Json :=
  .dict [("path", jsonText violation.path), ("message", jsonText violation.message),
    ("keyword", (violation.keyword.map jsonText).getD (.scalar .null))]

def rejectedOutput (phasePack : PhasePackDefinition) (violations : List OutputContractViolation)
    (output : JsonObject) : JsonObject :=
  [("contract_violation", .dict [
      ("reason", jsonText "output_contract_violation"),
      ("phase_pack", .dict [("key", jsonText phasePack.key),
        ("version", .scalar (.int phasePack.version))]),
      ("errors", .list (violations.map OutputContractViolation.toJson))]),
    ("rejected_output", .dict output)]

def enforceOutputContract (validateOutput : OutputValidator)
    (phasePack : Option PhasePackDefinition) (outcome : NodeOutcome) (output : JsonObject) :
    OutputContractDecision :=
  match phasePack with
  | none => { outcome := outcome, output := output }
  | some phasePack =>
    if outcome ≠ .success ∨ phasePack.outputContract.isEmpty then
      { outcome := outcome, output := output }
    else
      match validateOutput phasePack.outputContract output with
      | [] => { outcome := outcome, output := output }
      | violation :: violations =>
        { outcome := .failure
          output := rejectedOutput phasePack (violation :: violations) output
          rejected := true }

/-! ## 3. Claims -/

/-- What an executor reports; `__post_init__` admits only these outcomes. -/
structure TaskResult where
  outcome : NodeOutcome
  output : JsonObject := []
  accepted : outcome = .success ∨ outcome = .failure

structure TaskArtifactInput where
  name : String
  artifact : TaskArtifact

structure TaskContextEnvelope where
  request : WorkflowRequestContext
  upstreamArtifacts : List TaskArtifact := []
  namedInputs : List TaskArtifactInput := []

structure TaskClaim where
  executionId : UUID
  runId : UUID
  nodeKey : NodeKey
  executorKey : String
  workerId : String
  leaseToken : UUID
  visitCount : ℕ
  attemptCount : ℕ
  timeoutSeconds : ℕ
  workflowKey : String
  workflowVersion : ℕ
  instructions : Option String
  configuration : JsonObject
  skills : List SkillDefinition
  phasePack : Option PhasePackDefinition
  context : Option TaskContextEnvelope
  modelSelection : Option ModelSelection

namespace TaskClaim

/-- `f"{execution.id}:{node.node_key}:{node.visit_count}"`. -/
def idempotencyKey (claim : TaskClaim) : String :=
  toString claim.executionId ++ ":" ++ claim.nodeKey ++ ":" ++ toString claim.visitCount

/-- The attempt that the claim hands to its worker. -/
def attempt (claim : TaskClaim) : UUID × NodeKey × ℕ × ℕ :=
  (claim.executionId, claim.nodeKey, claim.visitCount, claim.attemptCount)

end TaskClaim

/-! ## 4. Events -/

/-- The domain events, one constructor for each event type with its aggregate and its payload. -/
inductive DomainEvent where
  | requestCreated (request project run : UUID)
  | requestCompleted (request run execution : UUID)
  | requestCancelled (request run execution : UUID)
  | runStatusChanged (run : UUID) (previous status : RunStatus) (execution : UUID)
  | runApproved (run : UUID) (status : RunStatus)
  | runCancelled (run request : UUID)
  | workflowStarted (execution : UUID) (status : WorkflowStatus) (selectionSource : String)
      (modelSelections : List NodeModelSelection)
  | workflowNodeStarted (execution : UUID) (status : WorkflowStatus) (node : NodeKey)
  | workflowNodeCompleted (execution : UUID) (status : WorkflowStatus) (node : NodeKey)
      (outcome : NodeOutcome) (artifact : UUID) (outputContractRejected : Bool)
  | workflowNodeFailed (execution : UUID) (status : WorkflowStatus) (node : NodeKey)
      (reason : String)
  | workflowApprovalResolved (execution : UUID) (status : WorkflowStatus) (node : NodeKey)
      (approved : Bool)
  | workflowCancelled (execution : UUID) (status : WorkflowStatus) (source : Option String)
  | taskClaimed (execution : UUID) (status : WorkflowStatus) (node : NodeKey) (worker : String)
      (leaseToken : UUID) (attempt : ℕ)
  | taskLeaseRenewed (execution : UUID) (status : WorkflowStatus) (node : NodeKey)
      (worker : String)
  | taskCompleted (execution : UUID) (status : WorkflowStatus) (node : NodeKey) (worker : String)
      (outcome : NodeOutcome) (artifact : UUID) (outputContractRejected : Bool)
  | taskFailed (execution : UUID) (status : WorkflowStatus) (node : NodeKey) (worker : String)
      (reason : String)
  | taskLeaseExpired (execution : UUID) (status : WorkflowStatus) (node : NodeKey)
      (worker : Option String)
  | budgetReleased (reservation run : UUID) (reason : String)

/-- The `from` and the `to` of a `run.status_changed` event of the run. -/
def DomainEvent.statusChange (run : UUID) : DomainEvent → Option (RunStatus × RunStatus)
  | .runStatusChanged run' previous status _ =>
    if run' = run then some (previous, status) else none
  | _ => none

end JbOrchestrator.Application
