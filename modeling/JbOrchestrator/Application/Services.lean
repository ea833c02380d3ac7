import JbOrchestrator.Infrastructure.Database

/-!
# Services — the use cases as transaction programs

The methods of `OrchestrationService`, `WorkflowService` and `TaskDispatchService` that touch runs and
their workflow executions, statement by statement.  What `uuid4` and `datetime.now` give is an
argument of the call.
-/

open Lib

namespace JbOrchestrator.Application

open Domain Workflows Infrastructure

abbrev Transaction := Program Statement Statement.Reply ServiceError

/-- What the services are configured with. -/
structure Settings where
  validateOutput : OutputValidator
  leaseGraceSeconds : ℕ := 30
  grace_pos : 1 ≤ leaseGraceSeconds

def perform (statement : Statement) : Transaction statement.Reply := Program.perform statement

def throwDomain {α : Type} (x : Except DomainError α) : Transaction α :=
  Program.ofExcept (x.mapError .domain)

/-- A generator that runs dry inside a coroutine. -/
def stopIteration : ServiceError := .runtimeError "coroutine raised StopIteration"

/-! ## 1. Loading executions -/

def toExecution : Option WorkflowExecutionRecord → Transaction (Option WorkflowExecution)
  | none => pure none
  | some record => do
    let nodes ← perform (.nodes record.id)
    pure (some (record.toExecution nodes))

/-- `_get_execution`, with the row lock that every operation takes. -/
def getExecution (executionId : UUID) : Transaction WorkflowExecution := do
  let record ← perform (.execution executionId true)
  let execution ← toExecution record
  Program.ofOption (notFound "workflow execution" executionId) execution

structure WorkflowTaskCandidate where
  execution : WorkflowExecution
  nodeKey : NodeKey

/-- The first candidate whose execution row can be locked. -/
def lockFirst : List Candidate → Transaction (Option Candidate)
  | [] => pure none
  | candidate :: candidates => do
    let locked ← perform (.lockCandidate candidate)
    if locked then pure (some candidate) else lockFirst candidates

/-- `_candidate`. -/
def taskCandidate : Option Candidate → Transaction (Option WorkflowTaskCandidate)
  | none => pure none
  | some candidate => do
    let record ← perform (.execution candidate.executionId false)
    let execution ← toExecution record
    pure (execution.map fun execution => ⟨execution, candidate.node.nodeKey⟩)

def getReadyForUpdate (executorKeys : Option (List String)) :
    Transaction (Option WorkflowTaskCandidate) :=
  if executorKeys = some [] then pure none
  else do
    let candidates ← perform (.readyCandidates executorKeys)
    let candidate ← lockFirst candidates
    taskCandidate candidate

def getExpiredForUpdate (changedAt : Instant) : Transaction (Option WorkflowTaskCandidate) := do
  let candidates ← perform (.expiredCandidates changedAt)
  let candidate ← lockFirst candidates
  taskCandidate candidate

def applyOperation (execution : WorkflowExecution) (operation : Operation) :
    Transaction WorkflowExecution :=
  match engine.step execution operation with
  | (⟨.ok _, _⟩, after) => pure after
  | (⟨.error error, _⟩, _) => .raise (.engine error)

/-! ## 2. Lifecycle projection -/

/-- `RUN_STATUS_BY_WORKFLOW`. -/
def runStatusByWorkflow : WorkflowStatus → RunStatus
  | .pending => .queued
  | .running => .running
  | .awaitingApproval => .awaitingApproval
  | .succeeded => .succeeded
  | .failed => .failed
  | .cancelled => .cancelled

/-- The run after the transition to the status of its execution. -/
def followExecution (execution : WorkflowExecution) (run : Run) : Except DomainError Run :=
  if runStatusByWorkflow execution.status = .failed then
    let reason := execution.failureReason.getD ""
    run.fail (if reason = "" then "workflow execution failed" else reason) execution.updatedAt
  else run.transitionTo (runStatusByWorkflow execution.status) execution.updatedAt

def projectRun (execution : WorkflowExecution) (run : Run) : Transaction Unit :=
  if run.status = runStatusByWorkflow execution.status then pure ()
  else do
    let changed ← throwDomain (followExecution execution run)
    perform (.saveRun changed)
    perform (.append (.runStatusChanged run.id run.status changed.status execution.id))

def projectRequest (execution : WorkflowExecution) (run : Run) (request : UserRequest) :
    Transaction Unit :=
  if execution.status = .succeeded ∧ request.status = .active then do
    let changed ← throwDomain (request.complete execution.updatedAt)
    perform (.saveRequest changed)
    perform (.append (.requestCompleted request.id run.id execution.id))
  else if execution.status = .cancelled ∧
      (request.status = .received ∨ request.status = .active) then do
    let changed ← throwDomain (request.cancel execution.updatedAt)
    perform (.saveRequest changed)
    perform (.append (.requestCancelled request.id run.id execution.id))
  else pure ()

def synchronizeExecutionLifecycle (execution : WorkflowExecution) : Transaction Unit :=
  if execution.snapshot.requestContext = none then pure ()
  else do
    let row ← perform (.run execution.snapshot.runId true)
    let run ← Program.ofOption (notFound "run" execution.snapshot.runId) row
    let row ← perform (.request run.requestId true)
    let request ← Program.ofOption (notFound "request" run.requestId) row
    projectRun execution run
    projectRequest execution run request

/-! ## 3. Budgets -/

def releaseAll (runId : UUID) (reason : String) (changedAt : Instant) (projectId : UUID) :
    BudgetAccount → List BudgetReservation → Transaction BudgetAccount
  | account, [] => pure account
  | account, reservation :: reservations =>
    if reservation.projectId ≠ projectId then
      .raise (.runtimeError ("run has reservations from multiple projects: " ++ toString runId))
    else do
      let account ← throwDomain (account.release reservation.reservedUsd changedAt)
      let released ← throwDomain (reservation.release changedAt)
      perform (.saveReservation released)
      perform (.append (.budgetReleased reservation.id runId reason))
      releaseAll runId reason changedAt projectId account reservations

def releaseRunReservations (runId : UUID) (reason : String) (changedAt : Instant) :
    Transaction Unit := do
  let reservations ← perform (.reservedByRun runId false)
  match reservations with
  | [] => pure ()
  | first :: _ =>
    let row ← perform (.account first.projectId)
    let account ← Program.ofOption (.resourceNotFound
      ("budget account not found for reserved run: " ++ toString runId)) row
    let reservations ← perform (.reservedByRun runId true)
    let account ← releaseAll runId reason changedAt first.projectId account reservations
    perform (.saveAccount account)

/-! ## 4. Starting a workflow -/

def sortReferences (references : List (String × ℕ)) : List (String × ℕ) :=
  references.dedup.insertionSort fun a b => a.1 < b.1 ∨ a.1 = b.1 ∧ a.2 ≤ b.2

def resolvePhasePacks (definition : WorkflowDefinition) : Transaction (List PhasePackDefinition) :=
  Program.forEach
    (fun reference => do
      let row ← perform (.phasePack ⟨reference.1, reference.2⟩)
      Program.ofOption (.resourceNotFound
        ("phase pack not found: " ++ reference.1 ++ "@" ++ toString reference.2)) row)
    (sortReferences (definition.nodes.filterMap fun node =>
      node.phasePack.map fun reference => (reference.key, reference.version)))

def resolveSkills (definition : WorkflowDefinition) (phasePacks : List PhasePackDefinition) :
    Transaction (List SkillDefinition) :=
  Program.forEach
    (fun reference => do
      let row ← perform (.skill ⟨reference.1, reference.2⟩)
      Program.ofOption (.resourceNotFound
        ("skill not found: " ++ reference.1 ++ "@" ++ toString reference.2)) row)
    (sortReferences ((definition.nodes.flatMap NodeDefinition.skills ++
      phasePacks.flatMap PhasePackDefinition.skills).map fun reference =>
        (reference.key, reference.version)))

/-- The nodes with a routing request. -/
def routedNodes (definition : WorkflowDefinition) : List (NodeDefinition × ModelRoutingRequest) :=
  definition.nodes.filterMap fun node => node.modelRouting.map fun request => (node, request)

def routeModels (definition : WorkflowDefinition) : Transaction (List NodeModelSelection) :=
  if routedNodes definition = [] then pure []
  else do
    let profiles ← perform .latestModelProfiles
    Program.forEach
      (fun routed => do
        let selection ← Program.ofExcept ((ModelRouting.route routed.2 profiles
          (routed.1.executorKey.getD "default")).mapError ServiceError.modelRouting)
        pure ⟨routed.1.key, selection⟩)
      (routedNodes definition)

def createExecution (run : Run) (request : UserRequest) (project : Project)
    (definition : AcceptedDefinition) (selectionSource : String) (executionId : UUID)
    (nodeId : NodeKey → UUID) (now : Instant) : Transaction WorkflowExecution := do
  let record ← perform (.executionByRun run.id false)
  let existing ← toExecution record
  if existing.isSome then
    .raise (.resourceConflict ("workflow execution already exists for run: " ++ toString run.id))
  else do
    let phasePacks ← resolvePhasePacks definition.definition
    let skills ← resolveSkills definition.definition phasePacks
    let modelSelections ← routeModels definition.definition
    let execution := WorkflowExecution.create
      (WorkflowSnapshot.fromDefinition definition.definition run.id
        (some {
          requestId := request.id
          projectId := project.id
          projectKey := project.key
          projectName := project.name
          repositoryUrl := project.repositoryUrl
          defaultBranch := project.defaultBranch
          prompt := request.prompt
          title := request.title }) phasePacks skills modelSelections) executionId nodeId now
    let execution ← applyOperation execution (.start now)
    perform (.addExecution execution)
    perform (.append (.workflowStarted execution.id execution.status selectionSource
      modelSelections))
    synchronizeExecutionLifecycle execution
    pure execution

namespace WorkflowService

def start (runId : UUID) (definitionKey : String) (version : Option ℕ) (executionId : UUID)
    (nodeId : NodeKey → UUID) (now : Instant) : Transaction WorkflowExecution := do
  let row ← perform (.run runId false)
  let run ← Program.ofOption (notFound "run" runId) row
  let row ← perform (.request run.requestId false)
  let request ← Program.ofOption (notFound "request" run.requestId) row
  let row ← perform (.project request.projectId)
  let project ← Program.ofOption (notFound "project" request.projectId) row
  let row ← perform (.definition definitionKey version)
  let definition ← Program.ofOption (.resourceNotFound ("workflow definition not found: " ++
    definitionKey ++ (version.map fun version => "@" ++ toString version).getD "")) row
  createExecution run request project definition "explicit" executionId nodeId now

/-! ## 5. Operations on a workflow -/

def beginTask (executionId : UUID) (nodeKey : NodeKey) (now : Instant) :
    Transaction WorkflowExecution := do
  let execution ← getExecution executionId
  let execution ← applyOperation execution (.beginTask nodeKey now)
  perform (.saveExecution execution)
  perform (.append (.workflowNodeStarted execution.id execution.status nodeKey))
  pure execution

end WorkflowService

/-- The phase pack that a node names, from the snapshot. -/
def nodePhasePack (snapshot : WorkflowSnapshot) (definition : NodeDefinition) :
    Transaction (Option PhasePackDefinition) :=
  match definition.phasePack with
  | none => pure none
  | some reference => do
    let phasePack ← Program.ofOption stopIteration (snapshot.phasePack reference)
    pure (some phasePack)

namespace WorkflowService

def completeTask (settings : Settings) (executionId : UUID) (nodeKey : NodeKey)
    (outcome : NodeOutcome) (output : Option JsonObject) (artifactId : UUID) (now : Instant) :
    Transaction WorkflowExecution := do
  let execution ← getExecution executionId
  let node ← Program.ofOption (.engine (.keyError nodeKey)) (execution.nodes.get? nodeKey)
  let definition ← Program.ofOption stopIteration (execution.snapshot.node nodeKey)
  let phasePack ← nodePhasePack execution.snapshot definition
  let decision := enforceOutputContract settings.validateOutput phasePack outcome (output.getD [])
  let effectiveOutput := if decision.rejected then some decision.output else output
  let execution ← applyOperation execution
    (.completeTask nodeKey decision.outcome effectiveOutput none now)
  let artifact ← throwDomain (TaskArtifact.create artifactId execution.id nodeKey node.visitCount
    decision.outcome decision.output now)
  perform (.addArtifact artifact)
  perform (.saveExecution execution)
  perform (.append (.workflowNodeCompleted execution.id execution.status nodeKey decision.outcome
    artifact.id decision.rejected))
  synchronizeExecutionLifecycle execution
  pure execution

def failTask (executionId : UUID) (nodeKey : NodeKey) (reason : String) (now : Instant) :
    Transaction WorkflowExecution := do
  let execution ← getExecution executionId
  let execution ← applyOperation execution (.failTask nodeKey reason none now)
  perform (.saveExecution execution)
  perform (.append (.workflowNodeFailed execution.id execution.status nodeKey reason))
  synchronizeExecutionLifecycle execution
  pure execution

def resolveApproval (executionId : UUID) (nodeKey : NodeKey) (approved : Bool) (now : Instant) :
    Transaction WorkflowExecution := do
  let execution ← getExecution executionId
  let execution ← applyOperation execution (.resolveApproval nodeKey approved now)
  perform (.saveExecution execution)
  perform (.append (.workflowApprovalResolved execution.id execution.status nodeKey approved))
  synchronizeExecutionLifecycle execution
  pure execution

def cancel (executionId : UUID) (now : Instant) : Transaction WorkflowExecution := do
  let execution ← getExecution executionId
  let execution ← applyOperation execution (.cancel now)
  releaseRunReservations execution.snapshot.runId "workflow_cancelled" now
  perform (.saveExecution execution)
  perform (.append (.workflowCancelled execution.id execution.status none))
  synchronizeExecutionLifecycle execution
  pure execution

end WorkflowService

/-! ## 6. Requests and runs -/

structure CreatedRequest where
  request : UserRequest
  run : Run

namespace OrchestrationService

def createRequest (projectId : UUID) (prompt : String) (title : Option String)
    (requestId runId : UUID) (now : Instant) : Transaction CreatedRequest := do
  let row ← perform (.project projectId)
  let project ← Program.ofOption (notFound "project" projectId) row
  if project.status ≠ .active then
    .raise (.resourceConflict ("project is not active: " ++ toString projectId))
  else do
    let request ← throwDomain (UserRequest.create requestId project.id prompt title now)
    let request ← throwDomain (request.activate now)
    let run : Run := { id := runId, requestId := request.id, createdAt := now, updatedAt := now }
    perform (.addRequest request)
    perform (.addRun run)
    perform (.append (.requestCreated request.id project.id run.id))
    pure ⟨request, run⟩

def approveRun (runId : UUID) (now : Instant) : Transaction Run := do
  let row ← perform (.run runId true)
  let run ← Program.ofOption (notFound "run" runId) row
  let record ← perform (.executionByRun runId false)
  let existing ← toExecution record
  if existing.isSome then
    .raise (.resourceConflict "workflow approvals must resolve a specific approval node")
  else do
    let run ← throwDomain (run.transitionTo .ready now)
    perform (.saveRun run)
    perform (.append (.runApproved run.id run.status))
    pure run

/-- The branch of `cancel_run` for a run with an execution. -/
def cancelExecution (runId : UUID) (execution : WorkflowExecution) (now : Instant) :
    Transaction Run :=
  if execution.isTerminal then
    .raise (.resourceConflict ("terminal run cannot be cancelled: " ++ toString runId))
  else do
    let execution ← applyOperation execution (.cancel now)
    releaseRunReservations runId "run_cancelled" now
    perform (.saveExecution execution)
    perform (.append (.workflowCancelled execution.id execution.status (some "run")))
    synchronizeExecutionLifecycle execution
    let row ← perform (.run runId false)
    Program.ofOption (notFound "run" runId) row

/-- The branch of `cancel_run` for a run without an execution. -/
def cancelUnstarted (runId : UUID) (now : Instant) : Transaction Run := do
  let row ← perform (.run runId true)
  let run ← Program.ofOption (notFound "run" runId) row
  let row ← perform (.request run.requestId true)
  let request ← Program.ofOption (notFound "request" run.requestId) row
  releaseRunReservations run.id "run_cancelled" now
  let cancelledRun ← throwDomain (run.transitionTo .cancelled now)
  let cancelledRequest ← throwDomain (request.cancel now)
  perform (.saveRun cancelledRun)
  perform (.saveRequest cancelledRequest)
  perform (.append (.runCancelled run.id request.id))
  pure cancelledRun

def cancelRun (runId : UUID) (now : Instant) : Transaction Run := do
  let record ← perform (.executionByRun runId true)
  let existing ← toExecution record
  match existing with
  | some execution => cancelExecution runId execution now
  | none => cancelUnstarted runId now

end OrchestrationService

/-! ## 7. Task dispatch -/

namespace TaskDispatchService

variable (settings : Settings)

def resolveArtifactInputs (execution : WorkflowExecution) (nodeKey : NodeKey) :
    Transaction (List TaskArtifact × List TaskArtifactInput) := do
  let node ← Program.ofOption stopIteration (execution.snapshot.node nodeKey)
  match node.phasePack with
  | none =>
    let artifacts ← perform
      (.latestArtifacts execution.id (execution.snapshot.incomingSources nodeKey))
    pure (artifacts, [])
  | some reference =>
    let phasePack ← Program.ofOption stopIteration (execution.snapshot.phasePack reference)
    let artifacts ← perform
      (.latestArtifacts execution.id (node.inputMappings.map NodeInputMapping.sourceNode).dedup)
    let inputs : List TaskArtifactInput := node.inputMappings.filterMap fun mapping =>
      (artifacts.find? fun artifact => artifact.producerNodeKey = mapping.sourceNode).map
        fun artifact => ⟨mapping.inputKey, artifact⟩
    let required := ((phasePack.inputs.filter PhaseInputDefinition.required).map
      PhaseInputDefinition.key).dedup
    let missing := (required.filter fun key => key ∉ inputs.map TaskArtifactInput.name
      ).insertionSort (· ≤ ·)
    if missing ≠ [] then
      .raise (.engine (.workflowExecutionError ("task " ++ nodeKey ++
        " is missing required artifact inputs: " ++ ", ".intercalate missing)))
    else pure (artifacts, inputs)

/-- `definition.timeout_seconds + self._lease_grace_seconds`. -/
def leaseSeconds (definition : NodeDefinition) : ℕ :=
  definition.timeoutSeconds + settings.leaseGraceSeconds

/-- The claim of the node that `claim_task` has begun. -/
def taskClaim (execution : WorkflowExecution) (definition : NodeDefinition) (node : NodeExecution)
    (workerId : String) (leaseToken : UUID) (phasePack : Option PhasePackDefinition)
    (inputs : List TaskArtifact × List TaskArtifactInput) (skills : List SkillDefinition) :
    TaskClaim where
  executionId := execution.id
  runId := execution.snapshot.runId
  nodeKey := node.nodeKey
  executorKey := node.executorKey
  workerId := workerId
  leaseToken := leaseToken
  visitCount := node.visitCount
  attemptCount := node.attemptCount
  timeoutSeconds := definition.timeoutSeconds
  workflowKey := execution.snapshot.definitionKey
  workflowVersion := execution.snapshot.definitionVersion
  instructions := definition.instructions
  configuration := definition.configuration
  skills := skills
  phasePack := phasePack
  context := execution.snapshot.requestContext.map fun request => ⟨request, inputs.1, inputs.2⟩
  modelSelection := execution.snapshot.modelSelection node.nodeKey

/-- The transaction of `claim_next` on a candidate. -/
def claimCandidate (candidate : WorkflowTaskCandidate) (workerId : String) (token : UUID)
    (changedAt : Instant) : Transaction TaskClaim := do
  let execution := candidate.execution
  let definition ← Program.ofOption stopIteration (execution.snapshot.node candidate.nodeKey)
  let phasePack ← nodePhasePack execution.snapshot definition
  let inputs ← resolveArtifactInputs execution candidate.nodeKey
  let execution ← applyOperation execution (.claimTask candidate.nodeKey workerId
    (leaseSeconds settings definition) token changedAt)
  let node ← Program.ofOption (.engine (.keyError candidate.nodeKey))
    (execution.nodes.get? candidate.nodeKey)
  let leaseToken ← Program.ofOption
    (.runtimeError "claimed node did not receive a lease token") node.leaseToken
  let skills ← Program.forEach
    (fun reference => Program.ofOption stopIteration
      (execution.snapshot.skill ⟨reference.1, reference.2⟩))
    (sortReferences ((definition.skills ++
      (phasePack.map PhasePackDefinition.skills).getD []).map fun reference =>
        (reference.key, reference.version)))
  perform (.saveExecution execution)
  perform (.append (.taskClaimed execution.id execution.status node.nodeKey workerId leaseToken
    node.attemptCount))
  pure (taskClaim execution definition node workerId leaseToken phasePack inputs skills)

def claimNext (workerId : String) (executorKeys : Option (List String)) (token : UUID)
    (changedAt : Instant) : Transaction (Option TaskClaim) := do
  let candidate ← getReadyForUpdate executorKeys
  match candidate with
  | none => pure none
  | some candidate =>
    let claim ← claimCandidate settings candidate workerId token changedAt
    pure (some claim)

def heartbeat (claim : TaskClaim) (changedAt : Instant) : Transaction WorkflowExecution := do
  let execution ← getExecution claim.executionId
  let definition ← Program.ofOption stopIteration (execution.snapshot.node claim.nodeKey)
  let execution ← applyOperation execution (.renewLease claim.nodeKey claim.leaseToken
    (leaseSeconds settings definition) changedAt)
  perform (.saveExecution execution)
  perform (.append (.taskLeaseRenewed execution.id execution.status claim.nodeKey claim.workerId))
  pure execution

def complete (claim : TaskClaim) (result : TaskResult) (artifactId : UUID) (changedAt : Instant) :
    Transaction WorkflowExecution := do
  let execution ← getExecution claim.executionId
  let definition ← Program.ofOption stopIteration (execution.snapshot.node claim.nodeKey)
  let phasePack ← nodePhasePack execution.snapshot definition
  let decision :=
    enforceOutputContract settings.validateOutput phasePack result.outcome result.output
  let execution ← applyOperation execution (.completeTask claim.nodeKey decision.outcome
    (some decision.output) (some claim.leaseToken) changedAt)
  let artifact ← throwDomain (TaskArtifact.create artifactId execution.id claim.nodeKey
    claim.visitCount decision.outcome decision.output changedAt)
  perform (.addArtifact artifact)
  perform (.saveExecution execution)
  perform (.append (.taskCompleted execution.id execution.status claim.nodeKey claim.workerId
    decision.outcome artifact.id decision.rejected))
  synchronizeExecutionLifecycle execution
  pure execution

def fail (claim : TaskClaim) (reason : String) (changedAt : Instant) :
    Transaction WorkflowExecution := do
  let execution ← getExecution claim.executionId
  let execution ← applyOperation execution
    (.failTask claim.nodeKey reason (some claim.leaseToken) changedAt)
  perform (.saveExecution execution)
  perform (.append (.taskFailed execution.id execution.status claim.nodeKey claim.workerId reason))
  synchronizeExecutionLifecycle execution
  pure execution

/-- The transaction of `recover_expired` on a candidate. -/
def recoverCandidate (candidate : WorkflowTaskCandidate) (changedAt : Instant) :
    Transaction Unit := do
  let node ← Program.ofOption (.engine (.keyError candidate.nodeKey))
    (candidate.execution.nodes.get? candidate.nodeKey)
  let execution ← applyOperation candidate.execution (.expireTask candidate.nodeKey changedAt)
  perform (.saveExecution execution)
  perform (.append (.taskLeaseExpired execution.id execution.status candidate.nodeKey
    node.workerId))
  synchronizeExecutionLifecycle execution

def recoverExpired (changedAt : Instant) : Transaction Bool := do
  let candidate ← getExpiredForUpdate changedAt
  match candidate with
  | none => pure false
  | some candidate =>
    recoverCandidate candidate changedAt
    pure true

end TaskDispatchService

/-! ## 8. Calls -/

inductive Call where
  | createRequest (projectId : UUID) (prompt : String) (title : Option String)
      (requestId runId : UUID) (now : Instant)
  | approveRun (runId : UUID) (now : Instant)
  | cancelRun (runId : UUID) (now : Instant)
  | start (runId : UUID) (definitionKey : String) (version : Option ℕ) (executionId : UUID)
      (nodeId : NodeKey → UUID) (now : Instant)
  | beginTask (executionId : UUID) (nodeKey : NodeKey) (now : Instant)
  | completeTask (executionId : UUID) (nodeKey : NodeKey) (outcome : NodeOutcome)
      (output : Option JsonObject) (artifactId : UUID) (now : Instant)
  | failTask (executionId : UUID) (nodeKey : NodeKey) (reason : String) (now : Instant)
  | resolveApproval (executionId : UUID) (nodeKey : NodeKey) (approved : Bool) (now : Instant)
  | cancel (executionId : UUID) (now : Instant)
  | claimNext (workerId : String) (executorKeys : Option (List String)) (token : UUID)
      (changedAt : Instant)
  | heartbeat (claim : TaskClaim) (changedAt : Instant)
  | complete (claim : TaskClaim) (result : TaskResult) (artifactId : UUID) (changedAt : Instant)
  | fail (claim : TaskClaim) (reason : String) (changedAt : Instant)
  | recoverExpired (changedAt : Instant)

inductive Result where
  | created (value : CreatedRequest)
  | run (value : Run)
  | execution (value : WorkflowExecution)
  | claim (value : Option TaskClaim)
  | recovered (value : Bool)

def Call.program (settings : Settings) : Call → Transaction Result
  | .createRequest projectId prompt title requestId runId now => do
    let value ← OrchestrationService.createRequest projectId prompt title requestId runId now
    pure (.created value)
  | .approveRun runId now => do
    let value ← OrchestrationService.approveRun runId now
    pure (.run value)
  | .cancelRun runId now => do
    let value ← OrchestrationService.cancelRun runId now
    pure (.run value)
  | .start runId definitionKey version executionId nodeId now => do
    let value ← WorkflowService.start runId definitionKey version executionId nodeId now
    pure (.execution value)
  | .beginTask executionId nodeKey now => do
    let value ← WorkflowService.beginTask executionId nodeKey now
    pure (.execution value)
  | .completeTask executionId nodeKey outcome output artifactId now => do
    let value ←
      WorkflowService.completeTask settings executionId nodeKey outcome output artifactId now
    pure (.execution value)
  | .failTask executionId nodeKey reason now => do
    let value ← WorkflowService.failTask executionId nodeKey reason now
    pure (.execution value)
  | .resolveApproval executionId nodeKey approved now => do
    let value ← WorkflowService.resolveApproval executionId nodeKey approved now
    pure (.execution value)
  | .cancel executionId now => do
    let value ← WorkflowService.cancel executionId now
    pure (.execution value)
  | .claimNext workerId executorKeys token changedAt => do
    let value ← TaskDispatchService.claimNext settings workerId executorKeys token changedAt
    pure (.claim value)
  | .heartbeat claim changedAt => do
    let value ← TaskDispatchService.heartbeat settings claim changedAt
    pure (.execution value)
  | .complete claim result artifactId changedAt => do
    let value ← TaskDispatchService.complete settings claim result artifactId changedAt
    pure (.execution value)
  | .fail claim reason changedAt => do
    let value ← TaskDispatchService.fail claim reason changedAt
    pure (.execution value)
  | .recoverExpired changedAt => do
    let value ← TaskDispatchService.recoverExpired changedAt
    pure (.recovered value)

/-- The committed rows and the calls that returned, in the order of their commits. -/
structure World where
  database : Database
  history : List (Call × Result) := []

/-- The claims that were handed to workers. -/
def World.claims (world : World) : List TaskClaim :=
  world.history.filterMap fun entry =>
    match entry.2 with
    | .claim claim => claim
    | _ => none

/-- The services over one database. -/
def services (settings : Settings) :
    Store Statement Statement.Reply World UnitOfWork RowLock ServiceError Call Result where
  exec world taken unitOfWork statement := statement.exec world.database taken unitOfWork
  commit call result unitOfWork world :=
    (unitOfWork.flush world.database).map fun database =>
      ⟨database, world.history ++ [(call, result)]⟩
  program := Call.program settings
  start := {}
  exec_free h := (Statement.exec_eq_some h).2.2.2
  exec_isSome world unitOfWork statement :=
    Statement.exec_isSome world.database unitOfWork statement

end JbOrchestrator.Application
