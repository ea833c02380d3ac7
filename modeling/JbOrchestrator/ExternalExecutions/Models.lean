import JbOrchestrator.Application.Records
import JbOrchestrator.Budgets.Models
import JbOrchestrator.Lib.Results
import JbOrchestrator.Lib.Text

/-!
# Models — the ledger of external executions

`external_executions/models.py` and the transactions of `ExternalExecutionService`.  The ledger holds
one row for an idempotency key; a transaction reads and writes the row of its key.
-/

open Lib

namespace JbOrchestrator.ExternalExecutions

open Workflows Application

/-! ## 1. Exceptions -/

/-- What a service call, the workspace manager or the bridge raises. -/
inductive Raised where
  | domainValidation (message : String)
  | invalidStateTransition (message : String)
  | lookup (message : String)
  | runtime (message : String)
  | timeout (message : String)
  /-- `asyncio.CancelledError`, which is no `Exception`. -/
  | cancelled
  | other (typeName : String) (isException : Bool)

/-- `type(exc).__name__`. -/
def Raised.typeName : Raised → String
  | .domainValidation _ => "DomainValidationError"
  | .invalidStateTransition _ => "InvalidStateTransition"
  | .lookup _ => "LookupError"
  | .runtime _ => "RuntimeError"
  | .timeout _ => "TimeoutError"
  | .cancelled => "CancelledError"
  | .other typeName _ => typeName

/-- `except Exception` catches it. -/
def Raised.isException : Raised → Bool
  | .cancelled => false
  | .other _ isException => isException
  | _ => true

/-! ## 2. External executions -/

inductive ExternalExecutionStatus where
  | starting | active | succeeded | failed | cancelled
  deriving DecidableEq, Repr

def ExternalExecutionStatus.value : ExternalExecutionStatus → String
  | .starting => "starting"
  | .active => "active"
  | .succeeded => "succeeded"
  | .failed => "failed"
  | .cancelled => "cancelled"

/-- `status in TERMINAL_EXTERNAL_STATUSES`. -/
def ExternalExecutionStatus.isTerminal : ExternalExecutionStatus → Bool
  | .succeeded | .failed | .cancelled => true
  | .starting | .active => false

structure ExternalExecution where
  executionId : UUID
  runId : UUID
  nodeKey : String
  executorKey : String
  idempotencyKey : String
  externalSessionKey : String
  externalAgentId : Option String := none
  workspacePath : Option String := none
  workspaceRepositoryPath : Option String := none
  workspaceBranch : Option String := none
  workspaceBaseRef : Option String := none
  workspaceScope : Option String := none
  externalRunId : Option String := none
  status : ExternalExecutionStatus := .starting
  terminalResult : Option JsonObject := none
  failureReason : Option String := none

/-- The assignment of `WorkspaceManager.prepare`, less the directory that only the manager reads. -/
structure WorkspaceAssignment where
  path : Option String := none
  repositoryPath : Option String := none
  branch : Option String := none
  baseRef : Option String := none
  scope : Option String := none

/-- The truth value of an optional string. -/
def given (value : Option String) : Bool := value.any fun text => decide (text ≠ "")

namespace ExternalExecution

variable (execution : ExternalExecution)

def isTerminal : Bool := execution.status.isTerminal

/-- `__post_init__`. -/
def postInit : Except Raised ExternalExecution := do
  raiseIf ([execution.nodeKey, execution.executorKey, execution.idempotencyKey,
      execution.externalSessionKey].any Text.isBlank = true)
    (.domainValidation "external execution keys must not be empty")
  raiseIf (execution.status = .active ∧ given execution.externalRunId = false)
    (.domainValidation "active external execution requires external_run_id")
  let workspaceValues :=
    [execution.workspacePath, execution.workspaceBranch, execution.workspaceBaseRef]
  raiseIf (workspaceValues.any given = true ∧
      workspaceValues.all (fun value => value.any fun text => !Text.isBlank text) = false)
    (.domainValidation "external execution workspace metadata must be complete or omitted")
  return execution

def accept (externalRunId : String) : Except Raised ExternalExecution := do
  raiseIf (execution.isTerminal = true) (.invalidStateTransition
    ("cannot accept external execution from " ++ execution.status.value))
  let normalized := Text.strip externalRunId
  raiseIf (normalized = "") (.domainValidation "external_run_id must not be empty")
  raiseIf (execution.externalRunId ≠ none ∧ execution.externalRunId ≠ some normalized)
    (.domainValidation "external_run_id cannot change")
  return { execution with externalRunId := some normalized, status := .active }

/-- `finish`; the second return of the source leaves the object as it is. -/
def finish (status : ExternalExecutionStatus) (terminalResult : Option JsonObject)
    (failureReason : Option String) : Except Raised ExternalExecution := do
  raiseIf (status.isTerminal = false)
    (.domainValidation "external execution finish status must be terminal")
  if execution.isTerminal then
    if execution.status = status then return execution
    else .error (.invalidStateTransition
      ("cannot finish external execution from " ++ execution.status.value))
  else return { execution with status, terminalResult, failureReason }

end ExternalExecution

/-! ## 3. The transactions of the service

What a transaction answers on the row of its key.  The row it leaves is the execution it answers. -/

namespace ExternalExecutionService

def prepare (claim : TaskClaim) (sessionKey : String) (agentId : Option String)
    (assignment : WorkspaceAssignment) : Option ExternalExecution → Except Raised ExternalExecution
  | some existing => .ok existing
  | none => ExternalExecution.postInit
      { executionId := claim.executionId
        runId := claim.runId
        nodeKey := claim.nodeKey
        executorKey := claim.executorKey
        idempotencyKey := claim.idempotencyKey
        externalSessionKey := sessionKey
        externalAgentId := agentId
        workspacePath := assignment.path
        workspaceRepositoryPath := assignment.repositoryPath
        workspaceBranch := assignment.branch
        workspaceBaseRef := assignment.baseRef
        workspaceScope := assignment.scope }

/-- `_required`. -/
def required (idempotencyKey : String) (row : Option ExternalExecution) :
    Except Raised ExternalExecution :=
  match row with
  | none => .error (.lookup ("external execution not found: " ++ idempotencyKey))
  | some execution => .ok execution

def accept (idempotencyKey externalRunId : String) (row : Option ExternalExecution) :
    Except Raised ExternalExecution := do
  let execution ← required idempotencyKey row
  if execution.status = .active ∧ execution.externalRunId = some (Text.strip externalRunId) then
    return execution
  else execution.accept externalRunId

def finish (idempotencyKey : String) (status : ExternalExecutionStatus)
    (terminalResult : Option JsonObject) (failureReason : Option String)
    (row : Option ExternalExecution) : Except Raised ExternalExecution := do
  let execution ← required idempotencyKey row
  if execution.isTerminal = true ∧ execution.status = status then return execution
  else execution.finish status terminalResult failureReason

variable {row : Option ExternalExecution} {e : ExternalExecution}

theorem prepare_eq_ok {claim : TaskClaim} {sessionKey : String} {agentId : Option String}
    {assignment : WorkspaceAssignment}
    (h : prepare claim sessionKey agentId assignment row = .ok e) :
    row = some e ∨
      (row = none ∧ e.idempotencyKey = claim.idempotencyKey ∧ e.status = .starting ∧
        e.externalRunId = none ∧ e.terminalResult = none) := by
  cases row with
  | some existing =>
    left
    rw [Except.ok.inj h]
  | none =>
    right
    simp only [prepare, ExternalExecution.postInit, check_bind_eq_ok] at h
    obtain rfl := Except.ok.inj h.2.2.2
    exact ⟨rfl, rfl, rfl, rfl, rfl⟩

theorem required_eq_ok {idempotencyKey : String} (h : required idempotencyKey row = .ok e) :
    row = some e := by
  cases row with
  | none => cases h
  | some execution => rw [Except.ok.inj h]

theorem accept_eq_ok {idempotencyKey runId : String}
    (h : accept idempotencyKey runId row = .ok e) :
    ∃ e₀, row = some e₀ ∧
      ((e₀.externalRunId = some (Text.strip runId) ∧ e = e₀) ∨
        (e₀.isTerminal = false ∧
          (e₀.externalRunId = none ∨ e₀.externalRunId = some (Text.strip runId)) ∧
          e = { e₀ with externalRunId := some (Text.strip runId), status := .active })) := by
  obtain ⟨e₀, hrow, h⟩ := bind_ok h
  refine ⟨e₀, required_eq_ok hrow, ?_⟩
  by_cases hsame : e₀.status = .active ∧ e₀.externalRunId = some (Text.strip runId)
  · left
    rw [if_pos hsame] at h
    exact ⟨hsame.2, (Except.ok.inj h).symm⟩
  · right
    rw [if_neg hsame] at h
    simp only [ExternalExecution.accept, check_bind_eq_ok, raiseIf_eq_ok] at h
    obtain ⟨hopen, -, hrun, h⟩ := h
    refine ⟨by simpa using hopen, ?_, (Except.ok.inj h).symm⟩
    by_cases hnone : e₀.externalRunId = none
    · exact .inl hnone
    · exact .inr (by_contra fun hother => hrun ⟨hnone, hother⟩)

theorem finish_eq_ok {idempotencyKey : String} {status : ExternalExecutionStatus}
    {terminalResult : Option JsonObject} {failureReason : Option String}
    (h : finish idempotencyKey status terminalResult failureReason row = .ok e) :
    ∃ e₀, row = some e₀ ∧ status.isTerminal = true ∧
      ((e₀.isTerminal = true ∧ e₀.status = status ∧ e = e₀) ∨
        (e₀.isTerminal = false ∧ e = { e₀ with status, terminalResult, failureReason })) := by
  obtain ⟨e₀, hrow, h⟩ := bind_ok h
  refine ⟨e₀, required_eq_ok hrow, ?_⟩
  by_cases hsame : e₀.isTerminal = true ∧ e₀.status = status
  · rw [if_pos hsame] at h
    exact ⟨hsame.2 ▸ hsame.1, .inl ⟨hsame.1, hsame.2, (Except.ok.inj h).symm⟩⟩
  · rw [if_neg hsame] at h
    simp only [ExternalExecution.finish, check_bind_eq_ok, raiseIf_eq_ok] at h
    obtain ⟨hterminal, h⟩ := h
    refine ⟨by simpa using hterminal, ?_⟩
    -- the object refuses to leave a terminal status for another one
    by_cases hended : e₀.isTerminal = true
    · have hother : e₀.status ≠ status := fun hstatus => hsame ⟨hended, hstatus⟩
      rw [if_pos hended, if_neg hother] at h
      cases h
    · rw [if_neg hended] at h
      exact .inr ⟨by simpa using hended, (Except.ok.inj h).symm⟩

end ExternalExecutionService

end JbOrchestrator.ExternalExecutions
