import JbOrchestrator.Lib.Components
import JbOrchestrator.OpenClaw.Cleanup
import JbOrchestrator.WorkspaceOperations.Requests

/-!
# Workspace runtime — the worker of durable workspace operations

`WorkspaceOperationRuntime.run_once`: an operation is claimed, the worktree of its execution is inspected
or cleaned up, its release is recorded, and the operation is finished.  Any number of workers do this on the
operations of one external execution, each at its own pace, and operators inspect or clean up by hand; any of
them may stop anywhere.
-/

open Lib

namespace JbOrchestrator.OpenClaw

open Workflows Application ExternalExecutions WorkspaceOperations

/-! ## 1. Exceptions -/

/-- What `run_once` meets. -/
inductive RuntimeException where
  | service (error : ServiceError)
  | execution (error : ExternalExecutions.Raised)
  | workspace (error : OpenClawWorkspaceError)
  | runtime (message : String)
  /-- of the database, the text and the name of its class -/
  | database (text typeName : String)

def domainText : Domain.DomainError → String × String
  | .domainValidationError message => (message, "DomainValidationError")
  | .invalidStateTransition message => (message, "InvalidStateTransition")

/-- `str(exc)` and `type(exc).__name__` of the errors of these services. -/
def serviceText : ServiceError → String × String
  | .resourceNotFound message => (message, "ResourceNotFound")
  | .resourceConflict message => (message, "ResourceConflict")
  | .domain error => domainText error
  | .runtimeError message => (message, "RuntimeError")
  | .integrityError => ("", "IntegrityError")
  | .staleDataError => ("", "StaleDataError")
  | .engine _ => ("", "WorkflowEngineError")
  | .modelRouting _ => ("", "ModelRoutingError")

def executionText : ExternalExecutions.Raised → String × String
  | .domainValidation message => (message, "DomainValidationError")
  | .invalidStateTransition message => (message, "InvalidStateTransition")
  | .lookup message => (message, "LookupError")
  | .runtime message => (message, "RuntimeError")
  | .timeout message => (message, "TimeoutError")
  | .cancelled => ("", "CancelledError")
  | .other typeName _ => ("", typeName)

def RuntimeException.text : RuntimeException → String × String
  | .service error => serviceText error
  | .execution error => executionText error
  | .workspace error => (error.message, "OpenClawWorkspaceError")
  | .runtime message => (message, "RuntimeError")
  | .database text typeName => (text, typeName)

/-- `str(exc) or type(exc).__name__`. -/
def RuntimeException.reason (exc : RuntimeException) : String :=
  if exc.text.1 = "" then exc.text.2 else exc.text.1

/-! ## 2. The workplace -/

/-- The row of an external execution, the repository of its worktree and its operations. -/
structure Workplace where
  repository : Repository
  row : ManagedExecution
  operations : OperationTable

/-- What the executor makes of the row. -/
inductive ExecutionStep where
  | accept (externalRunId : String)
  | finish (status : ExternalExecutionStatus) (terminalResult : Option JsonObject)
    (failureReason : Option String)

/-- The call of `ExternalExecutionService` on the row. -/
def ExecutionStep.apply (execution : ExternalExecution) :
    ExecutionStep → Except ExternalExecutions.Raised ExternalExecution
  | .accept externalRunId =>
    ExternalExecutionService.accept execution.idempotencyKey externalRunId (some execution)
  | .finish status terminalResult failureReason =>
    ExternalExecutionService.finish execution.idempotencyKey status terminalResult failureReason
      (some execution)

namespace Workplace

variable (place : Workplace)

def executions (id : UUID) : Option ManagedExecution := if id = place.row.id then some place.row else none

/-- `ExternalExecutionService.release_workspace`. -/
def release (executionId : UUID) (at_ : Instant) :
    Except RuntimeException (ManagedExecution × Workplace) :=
  match place.executions executionId with
  | none => .error (.service (notFound "external execution" executionId))
  | some row =>
    if row.workspaceReleasedAt ≠ none then .ok (row, place)
    else
      match row.releaseWorkspace at_ with
      | .error error => .error (.execution error)
      | .ok released => .ok (released, { place with row := released })

/-- `ExternalExecutionService.get_by_id`. -/
def getById (executionId : UUID) : Except RuntimeException (ManagedExecution × Workplace) :=
  match place.executions executionId with
  | none => .error (.service (notFound "external execution" executionId))
  | some row => .ok (row, place)

/-- A call of `WorkspaceOperationService` on the table. -/
def call {α : Type} (answer : Except ServiceError (α × OperationTable)) :
    Except RuntimeException (α × Workplace) :=
  match answer with
  | .error error => .error (.service error)
  | .ok (value, operations) => .ok (value, { place with operations })

def advance (step : ExecutionStep) : Workplace :=
  match step.apply place.row.toExternalExecution with
  | .error _ => place
  | .ok execution => { place with row := { place.row with toExternalExecution := execution } }

end Workplace

/-! ## 3. Statements -/

inductive OperationStatement where
  | claimNext (workerId workspaceScope : String) (leaseSeconds : ℤ)
  | getById (executionId : UUID)
  | git (statement : GitStatement)
  | release (executionId : UUID)
  | succeed (operationId leaseToken : UUID) (result : JsonObject)
  | fail (operationId leaseToken : UUID) (reason : String)
  | request (externalExecutionId : UUID) (arguments : OperationArguments)
  | advance (step : ExecutionStep)

/-- What a transaction draws, and how it goes: with a fault it raises before or after it has committed. -/
structure TransactionChoice where
  token : UUID
  id : UUID
  at_ : Instant
  locked : UUID → Bool
  fault : Option (RuntimeException × Bool)

namespace OperationStatement

abbrev Reply : OperationStatement → Type
  | claimNext .. => Except RuntimeException (Option WorkspaceOperation)
  | getById _ | release _ => Except RuntimeException ManagedExecution
  | git statement => statement.Reply
  | succeed .. | fail .. => Except RuntimeException WorkspaceOperation
  | request .. => Except RuntimeException (WorkspaceOperation × Bool)
  | advance _ => Unit

abbrev Choice : OperationStatement → Type
  | git statement => statement.Choice
  | advance _ => Unit
  | _ => TransactionChoice

end OperationStatement

def transact {α : Type} (choice : TransactionChoice) (place : Workplace)
    (answer : Except RuntimeException (α × Workplace)) : Except RuntimeException α × Workplace :=
  match choice.fault, answer with
  | none, .ok (value, place') => (.ok value, place')
  | none, .error error => (.error error, place)
  | some (error, true), .ok (_, place') => (.error error, place')
  | some (error, _), _ => (.error error, place)

section

variable (env : GitEnvironment) (branch : String)

open OperationStatement in
def OperationStatement.serve :
    (statement : OperationStatement) → statement.Choice → Workplace → statement.Reply × Workplace
  | claimNext workerId workspaceScope leaseSeconds, choice, place =>
    transact choice place (place.call (WorkspaceOperations.claimNext place.operations place.executions
      workerId workspaceScope leaseSeconds choice.token choice.locked choice.at_))
  | getById executionId, choice, place => transact choice place (place.getById executionId)
  | git statement, choice, place =>
    let served := statement.serve env branch choice place.repository
    (served.1, { place with repository := served.2 })
  | release executionId, choice, place => transact choice place (place.release executionId choice.at_)
  | succeed operationId leaseToken result, choice, place =>
    transact choice place (place.call (WorkspaceOperations.succeed place.operations place.executions
      operationId leaseToken result choice.at_))
  | fail operationId leaseToken reason, choice, place =>
    transact choice place (place.call (WorkspaceOperations.fail place.operations place.executions
      operationId leaseToken reason choice.at_))
  | request externalExecutionId arguments, choice, place =>
    transact choice place (place.call (WorkspaceOperations.request place.operations place.executions
      externalExecutionId arguments choice.id choice.at_))
  | advance step, _, place => ((), place.advance step)

end

/-! ## 4. The runtime -/

structure WorkspaceOperationRuntime where
  workerId : String
  leaseSeconds : ℤ
  worker_named : Text.isBlank workerId = false
  lease_pos : 0 < leaseSeconds

abbrev Operating := Program OperationStatement OperationStatement.Reply RuntimeException

variable (env : GitEnvironment) (isoformat : Instant → String) (manager : OpenClawWorkspaceManager)
  (scope : String)

namespace WorkspaceOperationRuntime

def ask (statement : OperationStatement) : Operating statement.Reply := Program.perform statement

/-- A call of the manager. -/
def manage {α : Type} (program : Managing α) : Operating α := do
  let reply ← program.embed OperationStatement.git fun _ => id
  Program.ofExcept (reply.mapError .workspace)

/-- `asdict(review)`. -/
def reviewEntries (review : WorkspaceReview) : JsonObject :=
  [("path", jsonText (pathText review.path)), ("repository_path", jsonText (pathText review.repositoryPath)),
    ("branch", jsonText review.branch), ("base_commit", jsonText review.baseCommit),
    ("head_commit", jsonText (env.text review.headCommit)), ("target_ref", jsonText review.targetRef),
    ("target_commit", jsonText (env.hash review.targetCommit)), ("clean", .scalar (.bool review.clean)),
    ("merged", .scalar (.bool review.merged))]

def alreadyReleased (releasedAt : Instant) : JsonObject :=
  [("status", jsonText "already_released"), ("released_at", jsonText (isoformat releasedAt))]

def reviewed (review : WorkspaceReview) : JsonObject :=
  ("status", jsonText "reviewed") :: reviewEntries env review

def released (review : WorkspaceReview) (releasedAt : Option Instant) : JsonObject :=
  ("status", jsonText "released") :: reviewEntries env review ++
    [("released_at", (releasedAt.map fun at_ => jsonText (isoformat at_)).getD (.scalar .null))]

/-- The `try` block of `run_once`. -/
def attempt (slot : ℕ) (operation : WorkspaceOperation) : Operating JsonObject := do
  let reply ← ask (.getById operation.externalExecutionId)
  let execution ← Program.ofExcept reply
  match execution.workspaceReleasedAt with
  | some releasedAt => pure (alreadyReleased isoformat releasedAt)
  | none =>
    match operation.kind with
    | .inspect => do
      let review ← manage (manager.review env execution.toExternalExecution slot operation.targetRef)
      pure (reviewed env review)
    | .cleanup => do
      let review ← manage (manager.cleanup env execution.toExternalExecution slot operation.targetRef)
      let reply ← ask (.release execution.id)
      let row ← Program.ofExcept reply
      pure (released env isoformat review row.workspaceReleasedAt)

/-- `run_once` behind its claim. -/
def process (slot : ℕ) (operation : WorkspaceOperation) (leaseToken : UUID) : Operating Bool := do
  let outcome ← (attempt env isoformat manager slot operation).outcome
  match outcome with
  | .error exc => do
    let reply ← ask (.fail operation.id leaseToken exc.reason)
    let _ ← Program.ofExcept reply
    pure true
  | .ok result => do
    let reply ← ask (.succeed operation.id leaseToken result)
    let _ ← Program.ofExcept reply
    pure true

def runOnce (runtime : WorkspaceOperationRuntime) (slot : ℕ) : Operating Bool := do
  let reply ← ask (.claimNext (Text.strip runtime.workerId) scope runtime.leaseSeconds)
  let operation ← Program.ofExcept reply
  match operation with
  | none => pure false
  | some operation =>
    match operation.leaseToken with
    | none => Program.ofExcept (.error (.runtime "claimed workspace operation has no lease token"))
    | some leaseToken => process env isoformat manager slot operation leaseToken

end WorkspaceOperationRuntime

open WorkspaceOperationRuntime

/-- `load_workspace_review`, which the command `inspect_workspace` runs. -/
def loadWorkspaceReview (slot : ℕ) (executionId : UUID) (mergedInto : String) :
    Operating (ManagedExecution × Option WorkspaceReview) := do
  let reply ← ask (.getById executionId)
  let execution ← Program.ofExcept reply
  match execution.workspaceReleasedAt with
  | some _ => pure (execution, none)
  | none => do
    let review ← manage (manager.review env execution.toExternalExecution slot mergedInto)
    pure (execution, some review)

def releaseManagedWorkspace (slot : ℕ) (executionId : UUID) (mergedInto : String) :
    Operating (ManagedExecution × Option WorkspaceReview) := do
  let reply ← ask (.getById executionId)
  let execution ← Program.ofExcept reply
  match execution.workspaceReleasedAt with
  | some _ => pure (execution, none)
  | none => do
    let review ← manage (manager.cleanup env execution.toExternalExecution slot mergedInto)
    let reply ← ask (.release execution.id)
    let released ← Program.ofExcept reply
    pure (released, some review)

/-- The command `cleanup_workspace` of an operator. -/
def cleanupWorkspace (slot : ℕ) (executionId : UUID) (mergedInto confirm : String) :
    Operating (ManagedExecution × Option WorkspaceReview) :=
  if Text.strip confirm = toString executionId then
    releaseManagedWorkspace env manager slot executionId mergedInto
  else
    Program.ofExcept
      (.error (.workspace ⟨"cleanup confirmation must equal the external execution UUID"⟩))

/-- A worker, an operator, a client that requests an operation, the executor of the execution, and what the
owner of the worktree and others do. -/
inductive OperationCall where
  | runOnce (runtime : WorkspaceOperationRuntime)
  | inspectWorkspace (executionId : UUID) (mergedInto : String)
  | cleanupWorkspace (executionId : UUID) (mergedInto confirm : String)
  | request (externalExecutionId : UUID) (arguments : OperationArguments)
  | advance (step : ExecutionStep)
  | act (action : Action)

/-- The workers of the scope of a manager among all others. -/
def operating (branch : String) :
    Coroutines OperationStatement OperationStatement.Reply Workplace RuntimeException ℕ OperationCall
      Bool where
  Choice := OperationStatement.Choice
  serve := OperationStatement.serve env branch
  admits _ _ := true
  program slot call :=
    match call with
    | .runOnce runtime => runtime.runOnce env isoformat manager scope slot
    | .inspectWorkspace executionId mergedInto =>
      loadWorkspaceReview env manager slot executionId mergedInto >>= fun _ => pure true
    | .cleanupWorkspace executionId mergedInto confirm =>
      OpenClaw.cleanupWorkspace env manager slot executionId mergedInto confirm >>= fun _ => pure true
    | .request externalExecutionId arguments =>
      WorkspaceOperationRuntime.ask (.request externalExecutionId arguments) >>= fun _ => pure true
    | .advance step => WorkspaceOperationRuntime.ask (.advance step) >>= fun _ => pure true
    | .act action => WorkspaceOperationRuntime.ask (.git (.act action)) >>= fun _ => pure true

end JbOrchestrator.OpenClaw
