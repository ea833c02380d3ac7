import JbOrchestrator.Scm.Requests
import JbOrchestrator.WorkspaceOperations.Requests

/-!
# Ledger — the tables that requests for publications and operations read and write

The publications and workspace operations, the external executions with the release of their workspaces, and
the rows that lead from an execution to its project.  A run is any list of calls of their services, each of
them one transaction.
-/

open Lib

namespace JbOrchestrator.Commands

open Domain Workflows Application Outbox ExternalExecutions WorkspaceOperations

/-! ## 1. External executions -/

abbrev ExecutionTable := Dict UUID ManagedExecution

/-- `get_by_idempotency_key`. -/
def byKey (table : ExecutionTable) (idempotencyKey : String) : Option ManagedExecution :=
  table.values.find? fun row => row.idempotencyKey = idempotencyKey

/-- The row of a key is changed as a transaction of the service answers. -/
def change (table : ExecutionTable) (idempotencyKey : String)
    (transaction : Option ExternalExecution → Except Raised ExternalExecution) :
    Except Raised (ExternalExecution × ExecutionTable) := do
  let row := byKey table idempotencyKey
  let execution ← transaction (row.map ManagedExecution.toExternalExecution)
  match row with
  | none => .ok (execution, table)
  | some row => .ok (execution, table.set row.id { row with toExternalExecution := execution })

/-! ## 2. Projects -/

/-- `[a-z0-9-]`. -/
def isKeyCharacter (c : Char) : Bool :=
  Text.isDigit c || (97 ≤ c.toNat && c.toNat ≤ 122) || c = '-'

/-- `^[a-z][a-z0-9-]{1,62}[a-z0-9]$`. -/
def isProjectKey (key : String) : Bool :=
  match key.toList with
  | [] => false
  | c :: rest =>
    97 ≤ c.toNat && c.toNat ≤ 122 && 2 ≤ rest.length && rest.length ≤ 63 &&
      rest.all isKeyCharacter && rest.getLast? ≠ some '-'

/-- The constructor of a project with its `__post_init__`. -/
def newProject (id : UUID) (key name repositoryUrl defaultBranch : String) :
    Except DomainError Project :=
  if isProjectKey (Text.strip key) = false then
    .error (.domainValidationError "project key must be 3-64 lowercase letters, digits, or hyphens")
  else if Text.isBlank name then .error (.domainValidationError "project name must not be empty")
  else if Text.isBlank repositoryUrl then
    .error (.domainValidationError "repository URL must not be empty")
  else if Text.isBlank defaultBranch then
    .error (.domainValidationError "default branch must not be empty")
  else .ok { id, key := Text.strip key, name := Text.strip name,
             repositoryUrl := Text.strip repositoryUrl, defaultBranch := Text.strip defaultBranch }

/-! ## 3. The ledger -/

/-- An event of a publication or an operation. -/
structure LedgerEvent where
  aggregateId : UUID
  eventType : String

structure CommandLedger where
  publications : Scm.PublicationTable := {}
  operations : OperationTable := .empty
  executions : ExecutionTable := .empty
  runs : Dict UUID Run := .empty
  requests : Dict UUID UserRequest := .empty
  projects : Dict UUID Project := .empty
  events : List LedgerEvent := []

namespace CommandLedger

variable (ledger : CommandLedger)

def surroundings : Scm.Surroundings where
  executions id := (ledger.executions.get? id).map ManagedExecution.scm
  runs := ledger.runs.get?
  requests := ledger.requests.get?
  projects := ledger.projects.get?

/-- `save` of the run repository, which adds a row that is not there. -/
def saveRun (run : Run) : CommandLedger :=
  match ledger.runs.get? run.id with
  | none => { ledger with runs := ledger.runs.set run.id run }
  | some stored => { ledger with runs := ledger.runs.set run.id { stored with
      status := run.status
      failureReason := run.failureReason
      updatedAt := run.updatedAt
      startedAt := run.startedAt
      completedAt := run.completedAt
      version := run.version } }

/-- `save` of the request repository. -/
def saveRequest (request : UserRequest) : CommandLedger :=
  match ledger.requests.get? request.id with
  | none => { ledger with requests := ledger.requests.set request.id request }
  | some stored => { ledger with requests := ledger.requests.set request.id { stored with
      status := request.status
      updatedAt := request.updatedAt } }

/-- `register_project`. -/
def registerProject (id : UUID) (key name repositoryUrl defaultBranch : String) :
    Except ServiceError (Project × CommandLedger) := do
  let project ← raiseDomain (newProject id key name repositoryUrl defaultBranch)
  if ledger.projects.values.any (fun other => other.key = project.key) then
    .error (.resourceConflict ("project key already exists: " ++ project.key))
  else if (ledger.projects.get? id).isSome then .error .integrityError
  else .ok (project, { ledger with projects := ledger.projects.set id project })

/-- `prepare`, which adds a row where the key is new. -/
def prepare (claim : TaskClaim) (sessionKey : String) (agentId : Option String)
    (assignment : WorkspaceAssignment) (id : UUID) :
    Except Raised (ExternalExecution × CommandLedger) := do
  let row := byKey ledger.executions claim.idempotencyKey
  let execution ← ExternalExecutionService.prepare claim sessionKey agentId assignment
    (row.map ManagedExecution.toExternalExecution)
  if row.isSome then .ok (execution, ledger)
  else if (ledger.executions.get? id).isSome then .error (.other "IntegrityError" true)
  else .ok (execution, { ledger with
    executions := ledger.executions.set id { toExternalExecution := execution, id } })

/-- `release_workspace`. -/
def releaseWorkspace (executionId : UUID) (at_ : Instant) :
    Except Raised (ExternalExecution × CommandLedger) :=
  match ledger.executions.get? executionId with
  | none => .error (.lookup ("external execution not found: " ++ toString executionId))
  | some row =>
    if row.workspaceReleasedAt ≠ none then .ok (row.toExternalExecution, ledger)
    else do
      let released ← row.releaseWorkspace at_
      .ok (released.toExternalExecution,
        { ledger with executions := ledger.executions.set executionId released })

end CommandLedger

/-- The calls of the services, with what they draw and find locked.  A call on publications reads the rows
of the ledger. -/
inductive LedgerCall where
  | publications (call : Scm.Call)
  | requestOperation (externalExecutionId : UUID) (arguments : OperationArguments) (id : UUID)
      (at_ : Instant)
  | claimOperation (workerId workspaceScope : String) (leaseSeconds : ℤ) (token : UUID)
      (locked : UUID → Bool) (now : Instant)
  | succeedOperation (operationId leaseToken : UUID) (result : JsonObject) (at_ : Instant)
  | failOperation (operationId leaseToken : UUID) (reason : String) (at_ : Instant)
  | prepare (claim : TaskClaim) (sessionKey : String) (agentId : Option String)
      (assignment : WorkspaceAssignment) (id : UUID)
  | accept (idempotencyKey externalRunId : String)
  | finish (idempotencyKey : String) (status : ExternalExecutionStatus)
      (terminalResult : Option JsonObject) (failureReason : Option String)
  | releaseWorkspace (executionId : UUID) (at_ : Instant)
  | saveRun (run : Run)
  | saveRequest (request : UserRequest)
  | registerProject (id : UUID) (key name repositoryUrl defaultBranch : String)

inductive LedgerAnswer where
  | publication (answer : Scm.Answer)
  | operation (operation : WorkspaceOperation) (replayed : Bool)
  | claim (operation : Option WorkspaceOperation)
  | execution (execution : ExternalExecution)
  | project (project : Project)
  | saved

inductive LedgerError where
  | service (error : ServiceError)
  | execution (error : Raised)

def retryScheduled (publication : Scm.ScmPublication) : List LedgerEvent :=
  if publication.job.nextAttemptAt = none then []
  else [⟨publication.job.id, "scm_publication.retry_scheduled"⟩]

/-- The events that a call on publications appends before it commits. -/
def publicationEvents : Scm.Call → Scm.Answer → List LedgerEvent
  | .request .., .replay publication false => [⟨publication.job.id, "scm_publication.requested"⟩]
  | .retry .., .replay publication false => [⟨publication.job.id, "scm_publication.retried"⟩]
  | .cancelAutomaticRetry .., .replay publication false =>
    [⟨publication.job.id, "scm_publication.automatic_retry_cancelled"⟩]
  | .claimNext .., .claim (some publication) => [⟨publication.job.id, "scm_publication.claimed"⟩]
  | .succeed .., .publication publication =>
    ⟨publication.job.id, "scm_publication.succeeded"⟩ :: retryScheduled publication
  | .fail .., .publication publication =>
    ⟨publication.job.id, "scm_publication.failed"⟩ :: retryScheduled publication
  | _, _ => []

namespace CommandLedger

variable (ledger : CommandLedger)

def perform : LedgerCall → Except LedgerError (LedgerAnswer × CommandLedger)
  | .publications call => do
    let (answer, publications) ←
      ((call.reading ledger.surroundings).perform ledger.publications).mapError .service
    .ok (.publication answer,
      { ledger with publications, events := ledger.events ++ publicationEvents call answer })
  | .requestOperation externalExecutionId arguments id at_ => do
    let ((operation, replayed), operations) ← (request ledger.operations ledger.executions.get?
      externalExecutionId arguments id at_).mapError .service
    let events := if replayed then [] else [⟨operation.id, "workspace_operation.requested"⟩]
    .ok (.operation operation replayed, { ledger with operations, events := ledger.events ++ events })
  | .claimOperation workerId workspaceScope leaseSeconds token locked now => do
    let (operation, operations) ← (claimNext ledger.operations ledger.executions.get? workerId
      workspaceScope leaseSeconds token locked now).mapError .service
    let events := operation.toList.map fun operation =>
      ⟨operation.id, "workspace_operation.claimed"⟩
    .ok (.claim operation, { ledger with operations, events := ledger.events ++ events })
  | .succeedOperation operationId leaseToken result at_ => do
    let (operation, operations) ← (succeed ledger.operations ledger.executions.get? operationId
      leaseToken result at_).mapError .service
    let event := ⟨operation.id, "workspace_operation.succeeded"⟩
    .ok (.claim (some operation), { ledger with operations, events := ledger.events ++ [event] })
  | .failOperation operationId leaseToken reason at_ => do
    let (operation, operations) ← (fail ledger.operations ledger.executions.get? operationId
      leaseToken reason at_).mapError .service
    let event := ⟨operation.id, "workspace_operation.failed"⟩
    .ok (.claim (some operation), { ledger with operations, events := ledger.events ++ [event] })
  | .prepare claim sessionKey agentId assignment id => do
    let (execution, ledger) ←
      (ledger.prepare claim sessionKey agentId assignment id).mapError .execution
    .ok (.execution execution, ledger)
  | .accept idempotencyKey externalRunId => do
    let (execution, executions) ← (change ledger.executions idempotencyKey
      (ExternalExecutionService.accept idempotencyKey externalRunId)).mapError .execution
    .ok (.execution execution, { ledger with executions })
  | .finish idempotencyKey status terminalResult failureReason => do
    let (execution, executions) ← (change ledger.executions idempotencyKey
      (ExternalExecutionService.finish idempotencyKey status terminalResult
        failureReason)).mapError .execution
    .ok (.execution execution, { ledger with executions })
  | .releaseWorkspace executionId at_ => do
    let (execution, ledger) ← (ledger.releaseWorkspace executionId at_).mapError .execution
    .ok (.execution execution, ledger)
  | .saveRun run => .ok (.saved, ledger.saveRun run)
  | .saveRequest request => .ok (.saved, ledger.saveRequest request)
  | .registerProject id key name repositoryUrl defaultBranch => do
    let (project, ledger) ←
      (ledger.registerProject id key name repositoryUrl defaultBranch).mapError .service
    .ok (.project project, ledger)

/-- A call that raises is rolled back. -/
def step (call : LedgerCall) : Except LedgerError LedgerAnswer × CommandLedger :=
  match ledger.perform call with
  | .ok (answer, ledger') => (.ok answer, ledger')
  | .error error => (.error error, ledger)

end CommandLedger

def commands : Machine CommandLedger LedgerCall (Except LedgerError LedgerAnswer) :=
  ⟨CommandLedger.step⟩

abbrev CommandStep := Transition CommandLedger LedgerCall (Except LedgerError LedgerAnswer)

end JbOrchestrator.Commands
