import JbOrchestrator.Catalog
import JbOrchestrator.Lib.Text

/-!
# Aggregates — projects, requests, runs and budgets

The state machines of `domain/runs.py` and `domain/requests.py`, and the part of `budgets/models.py`
that cancelling a run uses.
-/

open Lib

namespace JbOrchestrator.Domain

inductive DomainError where
  | domainValidationError (message : String)
  | invalidStateTransition (message : String)
  deriving DecidableEq, Repr

def DomainError.isTransition : DomainError → Bool
  | .invalidStateTransition _ => true
  | .domainValidationError _ => false

/-! ## 1. Runs -/

inductive RunStatus where
  | queued | planning | awaitingApproval | ready | running | verifying | succeeded | failed
  | cancelled
  deriving DecidableEq, Repr

def RunStatus.value : RunStatus → String
  | .queued => "queued"
  | .planning => "planning"
  | .awaitingApproval => "awaiting_approval"
  | .ready => "ready"
  | .running => "running"
  | .verifying => "verifying"
  | .succeeded => "succeeded"
  | .failed => "failed"
  | .cancelled => "cancelled"

/-- `TERMINAL_RUN_STATUSES`. -/
def RunStatus.isTerminal : RunStatus → Bool
  | .succeeded | .failed | .cancelled => true
  | _ => false

def allowedRunTransitions : RunStatus → List RunStatus
  | .queued => [.planning, .running, .awaitingApproval, .succeeded, .failed, .cancelled]
  | .planning => [.awaitingApproval, .ready, .running, .succeeded, .failed, .cancelled]
  | .awaitingApproval => [.ready, .running, .succeeded, .failed, .cancelled]
  | .ready => [.running, .awaitingApproval, .succeeded, .failed, .cancelled]
  | .running => [.awaitingApproval, .verifying, .succeeded, .failed, .cancelled]
  | .verifying => [.running, .awaitingApproval, .succeeded, .failed, .cancelled]
  | .succeeded => []
  | .failed => []
  | .cancelled => []

structure Run where
  id : UUID
  requestId : UUID
  attempt : ℕ := 1
  status : RunStatus := .queued
  failureReason : Option String := none
  createdAt : Instant
  updatedAt : Instant
  startedAt : Option Instant := none
  completedAt : Option Instant := none
  version : ℕ := 1
  deriving DecidableEq, Repr

namespace Run

variable (run : Run)

def transitionTo (target : RunStatus) (changedAt : Instant) : Except DomainError Run :=
  if target ∈ allowedRunTransitions run.status then
    .ok { run with
      status := target
      updatedAt := changedAt
      version := run.version + 1
      startedAt :=
        if run.startedAt = none ∧
            (target = .running ∨ run.status = .queued ∧ target ≠ .cancelled) then some changedAt
        else run.startedAt
      completedAt := if target.isTerminal then some changedAt else run.completedAt }
  else
    .error (.invalidStateTransition
      ("cannot transition run from " ++ run.status.value ++ " to " ++ target.value))

def fail (reason : String) (changedAt : Instant) : Except DomainError Run :=
  if Text.strip reason = "" then
    .error (.domainValidationError "failure reason must not be empty")
  else
    (run.transitionTo .failed changedAt).map fun failed =>
      { failed with failureReason := some (Text.strip reason) }

variable {run} {after : Run} {target : RunStatus} {changedAt : Instant}

/-- A transition keeps the identity of the run and counts as one new version. -/
theorem transitionTo_ok (h : run.transitionTo target changedAt = .ok after) :
    target ∈ allowedRunTransitions run.status ∧ after.status = target ∧ after.id = run.id ∧
      after.requestId = run.requestId ∧ after.version = run.version + 1 := by
  unfold transitionTo at h
  split at h
  · rename_i hallowed
    obtain rfl := Except.ok.inj h
    exact ⟨hallowed, rfl, rfl, rfl, rfl⟩
  · cases h

theorem transitionTo_error {error : DomainError}
    (h : run.transitionTo target changedAt = .error error) :
    target ∉ allowedRunTransitions run.status := by
  unfold transitionTo at h
  split at h
  · cases h
  · assumption

theorem fail_ok {reason : String} (h : run.fail reason changedAt = .ok after) :
    .failed ∈ allowedRunTransitions run.status ∧ after.status = .failed ∧ after.id = run.id ∧
      after.requestId = run.requestId ∧ after.version = run.version + 1 := by
  unfold fail at h
  split at h
  · cases h
  · cases htransition : run.transitionTo .failed changedAt with
    | error error =>
      rw [htransition] at h
      cases h
    | ok failed =>
      rw [htransition] at h
      obtain rfl := Except.ok.inj h
      have hfailed := transitionTo_ok htransition
      exact hfailed

theorem fail_error {reason : String} {error : DomainError}
    (h : run.fail reason changedAt = .error error) (htransition : error.isTransition = true) :
    .failed ∉ allowedRunTransitions run.status := by
  unfold fail at h
  split at h
  · obtain rfl := Except.error.inj h
    cases htransition
  · cases hrun : run.transitionTo .failed changedAt with
    | error error' => exact transitionTo_error hrun
    | ok failed =>
      rw [hrun] at h
      cases h

end Run

/-! ## 2. Requests -/

inductive RequestStatus where
  | received | active | completed | cancelled
  deriving DecidableEq, Repr

def RequestStatus.value : RequestStatus → String
  | .received => "received"
  | .active => "active"
  | .completed => "completed"
  | .cancelled => "cancelled"

def allowedRequestTransitions : RequestStatus → List RequestStatus
  | .received => [.active, .cancelled]
  | .active => [.completed, .cancelled]
  | .completed => []
  | .cancelled => []

structure UserRequest where
  id : UUID
  projectId : UUID
  prompt : String
  title : Option String := none
  status : RequestStatus := .received
  createdAt : Instant
  updatedAt : Instant
  deriving DecidableEq, Repr

namespace UserRequest

/-- The constructor with its `__post_init__`. -/
def create (id projectId : UUID) (prompt : String) (title : Option String) (now : Instant) :
    Except DomainError UserRequest :=
  if Text.strip prompt = "" then
    .error (.domainValidationError "request prompt must not be empty")
  else
    .ok {
      id := id
      projectId := projectId
      prompt := Text.strip prompt
      title := title.bind fun text => if text = "" then none else some (Text.strip text)
      createdAt := now
      updatedAt := now }

variable (request : UserRequest)

def setStatus (status : RequestStatus) (changedAt : Instant) : Except DomainError UserRequest :=
  if status ∈ allowedRequestTransitions request.status then
    .ok { request with status := status, updatedAt := changedAt }
  else
    .error (.invalidStateTransition
      ("cannot transition request from " ++ request.status.value ++ " to " ++ status.value))

def activate (changedAt : Instant) : Except DomainError UserRequest :=
  request.setStatus .active changedAt

def complete (changedAt : Instant) : Except DomainError UserRequest :=
  request.setStatus .completed changedAt

def cancel (changedAt : Instant) : Except DomainError UserRequest :=
  request.setStatus .cancelled changedAt

variable {request} {after : UserRequest} {status : RequestStatus} {changedAt : Instant}

theorem setStatus_ok (h : request.setStatus status changedAt = .ok after) :
    status ∈ allowedRequestTransitions request.status ∧ after.status = status ∧
      after.id = request.id := by
  unfold setStatus at h
  split at h
  · rename_i hallowed
    obtain rfl := Except.ok.inj h
    exact ⟨hallowed, rfl, rfl⟩
  · cases h

/-- Only the two columns that an update of a request writes change. -/
theorem setStatus_columns (h : request.setStatus status changedAt = .ok after) :
    after = { request with status := after.status, updatedAt := after.updatedAt } := by
  unfold setStatus at h
  split at h
  · obtain rfl := Except.ok.inj h
    rfl
  · cases h

theorem setStatus_error {error : DomainError}
    (h : request.setStatus status changedAt = .error error) :
    status ∉ allowedRequestTransitions request.status := by
  unfold setStatus at h
  split at h
  · cases h
  · assumption

theorem create_error {id projectId : UUID} {prompt : String} {title : Option String}
    {now : Instant} {error : DomainError}
    (h : create id projectId prompt title now = .error error) : error.isTransition = false := by
  unfold create at h
  split at h
  · obtain rfl := Except.error.inj h
    rfl
  · cases h

theorem create_ok {id projectId : UUID} {prompt : String} {title : Option String} {now : Instant}
    (h : create id projectId prompt title now = .ok after) :
    after.id = id ∧ after.status = .received := by
  unfold create at h
  split at h
  · cases h
  · obtain rfl := Except.ok.inj h
    exact ⟨rfl, rfl⟩

end UserRequest

/-! ## 3. Projects -/

inductive ProjectStatus where
  | active | archived
  deriving DecidableEq, Repr

structure Project where
  id : UUID
  key : String
  name : String
  repositoryUrl : String
  defaultBranch : String := "main"
  status : ProjectStatus := .active
  deriving DecidableEq, Repr

/-! ## 4. Budgets -/

inductive BudgetReservationStatus where
  | reserved | settled | forfeited | released
  deriving DecidableEq, Repr

def BudgetReservationStatus.value : BudgetReservationStatus → String
  | .reserved => "reserved"
  | .settled => "settled"
  | .forfeited => "forfeited"
  | .released => "released"

/-- The amounts are stored as multiples of 0.000001, which `money` leaves as they are. -/
structure BudgetAccount where
  id : UUID
  projectId : UUID
  limitUsd : Decimal
  reservedUsd : Decimal := 0
  spentUsd : Decimal := 0
  version : ℕ := 1
  updatedAt : Instant

def BudgetAccount.release (account : BudgetAccount) (amount : Decimal) (changedAt : Instant) :
    Except DomainError BudgetAccount :=
  if amount < 0 ∨ account.reservedUsd < amount then
    .error (.domainValidationError "budget release amount is invalid")
  else
    .ok { account with
      reservedUsd := account.reservedUsd - amount
      version := account.version + 1
      updatedAt := changedAt }

structure BudgetReservation where
  id : UUID
  accountId : UUID
  projectId : UUID
  runId : UUID
  executionId : UUID
  nodeKey : String
  idempotencyKey : String
  reservedUsd : Decimal
  status : BudgetReservationStatus := .reserved
  actualUsd : Option Decimal := none
  finalizedAt : Option Instant := none

def BudgetReservation.release (reservation : BudgetReservation) (changedAt : Instant) :
    Except DomainError BudgetReservation :=
  if reservation.status = .reserved then
    .ok { reservation with
      status := .released, actualUsd := some 0, finalizedAt := some changedAt }
  else
    .error (.invalidStateTransition
      ("cannot finalize reservation from " ++ reservation.status.value))

end JbOrchestrator.Domain
