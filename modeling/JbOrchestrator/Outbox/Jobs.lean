import JbOrchestrator.Application.Records
import JbOrchestrator.Lib.Numbered
import JbOrchestrator.Lib.Results

/-!
# Outbox jobs — leased work with an attempt ledger

Notification deliveries and SCM publications are the same kind of record: a job that workers claim
under a lease, finish, retry and reschedule, with one attempt record for each claim.  What the two do
differently is a `Policy`; the two services instantiate the definitions below.
-/

open Lib

namespace JbOrchestrator.Outbox

open Domain Workflows Application

/-! ## 1. Records -/

inductive JobStatus where
  | pending | claimed | succeeded | failed
  deriving DecidableEq, Repr

inductive AttemptStatus where
  | claimed | succeeded | failed
  deriving DecidableEq, Repr

inductive AttemptTrigger where
  | initial | manual | automatic | leaseRecovery
  deriving DecidableEq, Repr

/-- `MAX_AUTOMATIC_RETRY_LIMIT`. -/
def maxAutomaticRetryLimit : ℤ := 10

structure Job (Code : Type) where
  id : UUID
  status : JobStatus := .pending
  workerId : Option String := none
  leaseToken : Option UUID := none
  leaseExpiresAt : Option Instant := none
  result : Option JsonObject := none
  failureReason : Option String := none
  failureCode : Option Code := none
  failureRetryable : Option Bool := none
  attemptCount : ℕ := 0
  automaticRetryLimit : ℤ := 0
  nextAttemptAt : Option Instant := none
  createdAt : Instant
  updatedAt : Instant
  completedAt : Option Instant := none

structure Attempt (Code : Type) where
  jobId : UUID
  attemptNumber : ℕ
  trigger : AttemptTrigger
  workerId : String
  leaseToken : UUID
  status : AttemptStatus := .claimed
  result : Option JsonObject := none
  failureReason : Option String := none
  failureCode : Option Code := none
  failureRetryable : Option Bool := none
  startedAt : Instant
  finishedAt : Option Instant := none

/-- The messages of the errors. -/
structure JobTexts where
  notClaimable : String
  claimArguments : String
  notRetryable : String
  notCancellable : String
  notOwned : String
  emptyReason : String
  retryUnavailable : String
  attemptWorker : String
  attemptNumber : String
  attemptNotOwned : String
  attemptEmptyReason : String
  retrySucceeded : String
  cancelActive : String
  cancelSucceeded : String
  noWorker : String
  noToken : String

/-- What the two kinds of jobs do differently. -/
structure Policy (Code : Type) where
  texts : JobTexts
  /-- `claim` also takes a job whose lease still runs. -/
  claimsLeased : Bool
  /-- `succeed` clears the schedule. -/
  forgetsSchedule : Bool
  /-- `fail` clears the result. -/
  forgetsResult : Bool
  /-- The failure that closes the attempt of an expired lease, where it is closed. -/
  closesExpired : Option (Code × String)

/-! ## 2. The state machine of a job -/

namespace Job

variable {Code : Type} (policy : Policy Code) (job : Job Code)

/-- The lease is over. -/
def expired (at_ : Instant) : Bool :=
  job.status = .claimed && job.leaseExpiresAt.any fun expiresAt => expiresAt ≤ at_

/-- An automatic retry is due. -/
def scheduledRetry (at_ : Instant) : Bool :=
  job.status = .failed && job.failureRetryable = some true &&
    (job.nextAttemptAt.any fun next => next ≤ at_) &&
    (job.attemptCount : ℤ) ≤ job.automaticRetryLimit

/-- The filter of the repository's `claim_next`. -/
def claimable (at_ : Instant) : Bool :=
  job.status = .pending || job.expired at_ || job.scheduledRetry at_

def claimTrigger (at_ : Instant) : AttemptTrigger :=
  if job.expired at_ then .leaseRecovery
  else if job.status = .failed then .automatic
  else if 0 < job.attemptCount then .manual
  else .initial

/-- `claim`.  The token that `uuid4` draws is an argument. -/
def claim (workerId : String) (leaseSeconds : ℤ) (token : UUID) (at_ : Instant) :
    Except DomainError (Job Code × AttemptTrigger) :=
  if ¬(job.claimable at_ ∨ policy.claimsLeased = true ∧ job.status = .claimed) then
    .error (.invalidStateTransition policy.texts.notClaimable)
  else if Text.isBlank workerId ∨ leaseSeconds ≤ 0 then
    .error (.domainValidationError policy.texts.claimArguments)
  else .ok ({ job with
    status := .claimed
    workerId := some (Text.strip workerId)
    leaseToken := some token
    leaseExpiresAt := some (at_ + 1000000 * leaseSeconds)
    attemptCount := job.attemptCount + 1
    failureReason := if job.scheduledRetry at_ then none else job.failureReason
    failureCode := if job.scheduledRetry at_ then none else job.failureCode
    failureRetryable := if job.scheduledRetry at_ then none else job.failureRetryable
    nextAttemptAt := if job.scheduledRetry at_ then none else job.nextAttemptAt
    completedAt := if job.scheduledRetry at_ then none else job.completedAt
    updatedAt := at_ }, job.claimTrigger at_)

def retry (at_ : Instant) : Except DomainError (Job Code) :=
  if job.status ≠ .failed then .error (.invalidStateTransition policy.texts.notRetryable)
  else .ok { job with
    status := .pending
    workerId := none
    leaseToken := none
    leaseExpiresAt := none
    result := none
    failureReason := none
    failureCode := none
    failureRetryable := none
    automaticRetryLimit := 0
    nextAttemptAt := none
    completedAt := none
    updatedAt := at_ }

/-- `cancel_automatic_retry`; nothing where no retry is scheduled. -/
def cancelAutomaticRetry (at_ : Instant) : Except DomainError (Option (Job Code)) :=
  if job.status ≠ .failed then .error (.invalidStateTransition policy.texts.notCancellable)
  else if job.nextAttemptAt = none then .ok none
  else .ok (some { job with
    automaticRetryLimit := 0
    nextAttemptAt := none
    updatedAt := at_ })

/-- `_require_claim`. -/
def owned (leaseToken : UUID) : Bool :=
  job.status = .claimed && job.leaseToken = some leaseToken

def succeed (leaseToken : UUID) (result : JsonObject) (at_ : Instant) :
    Except DomainError (Job Code) :=
  if job.owned leaseToken = false then .error (.invalidStateTransition policy.texts.notOwned)
  else .ok { job with
    status := .succeeded
    result := some result
    failureReason := none
    failureCode := none
    failureRetryable := if policy.forgetsSchedule then none else job.failureRetryable
    nextAttemptAt := if policy.forgetsSchedule then none else job.nextAttemptAt
    leaseExpiresAt := none
    completedAt := some at_
    updatedAt := at_ }

def fail (leaseToken : UUID) (reason : String) (code : Code) (retryable : Bool)
    (automaticRetryLimit : ℤ) (nextAttemptAt : Option Instant) (at_ : Instant) :
    Except DomainError (Job Code) :=
  if job.owned leaseToken = false then .error (.invalidStateTransition policy.texts.notOwned)
  else if Text.isBlank reason then .error (.domainValidationError policy.texts.emptyReason)
  else if ¬(0 ≤ automaticRetryLimit ∧ automaticRetryLimit ≤ maxAutomaticRetryLimit) then
    .error (.domainValidationError "automatic retry limit must be between 0 and 10")
  else if nextAttemptAt ≠ none ∧ (retryable = false ∨ automaticRetryLimit < job.attemptCount) then
    .error (.domainValidationError policy.texts.retryUnavailable)
  else .ok { job with
    status := .failed
    result := if policy.forgetsResult then none else job.result
    failureReason := some (Text.strip reason)
    failureCode := some code
    failureRetryable := some retryable
    automaticRetryLimit := automaticRetryLimit
    nextAttemptAt := nextAttemptAt
    leaseExpiresAt := none
    completedAt := some at_
    updatedAt := at_ }

end Job

/-! ## 3. Attempts -/

namespace Attempt

variable {Code : Type} (policy : Policy Code) (attempt : Attempt Code)

/-- The constructor with `__post_init__`. -/
def create (jobId : UUID) (attemptNumber : ℕ) (trigger : AttemptTrigger) (workerId : String)
    (leaseToken : UUID) (startedAt : Instant) : Except DomainError (Attempt Code) :=
  if Text.isBlank workerId then .error (.domainValidationError policy.texts.attemptWorker)
  else if attemptNumber = 0 then .error (.domainValidationError policy.texts.attemptNumber)
  else .ok { jobId, attemptNumber, trigger, workerId := Text.strip workerId, leaseToken, startedAt }

/-- `_require_claim`. -/
def owned (leaseToken : UUID) : Bool :=
  attempt.status = .claimed && attempt.leaseToken = leaseToken

def succeed (leaseToken : UUID) (result : JsonObject) (at_ : Instant) :
    Except DomainError (Attempt Code) :=
  if attempt.owned leaseToken = false then
    .error (.invalidStateTransition policy.texts.attemptNotOwned)
  else .ok { attempt with status := .succeeded, result := some result, finishedAt := some at_ }

def fail (leaseToken : UUID) (reason : String) (code : Code) (retryable : Bool) (at_ : Instant) :
    Except DomainError (Attempt Code) :=
  if attempt.owned leaseToken = false then
    .error (.invalidStateTransition policy.texts.attemptNotOwned)
  else if Text.isBlank reason then
    .error (.domainValidationError policy.texts.attemptEmptyReason)
  else .ok { attempt with
    status := .failed
    failureReason := some (Text.strip reason)
    failureCode := some code
    failureRetryable := some retryable
    finishedAt := some at_ }

end Attempt

/-! ## 4. Tables -/

/-- A job with what it is about. -/
structure Entry (Code Info : Type) where
  job : Job Code
  info : Info

structure Table (Code Info : Type) where
  jobs : Dict UUID (Entry Code Info) := .empty
  attempts : List (Attempt Code) := []

namespace Table

variable {Code Info : Type} (table : Table Code Info)

/-- The attempts of a job, in the order in which they were added. -/
def ledger (jobId : UUID) : List (Attempt Code) :=
  table.attempts.filter fun attempt => attempt.jobId = jobId

def attempt (jobId : UUID) (attemptNumber : ℕ) : Option (Attempt Code) :=
  table.attempts.find? fun attempt =>
    attempt.jobId = jobId ∧ attempt.attemptNumber = attemptNumber

def saveJob (entry : Entry Code Info) : Table Code Info :=
  { table with jobs := table.jobs.set entry.job.id entry }

/-- `add` of an attempt, whose number is unique for its job. -/
def addAttempt (attempt : Attempt Code) : Except ServiceError (Table Code Info) :=
  match table.attempt attempt.jobId attempt.attemptNumber with
  | some _ => .error .integrityError
  | none => .ok { table with attempts := table.attempts ++ [attempt] }

def saveAttempt (attempt : Attempt Code) : Table Code Info :=
  { table with attempts := table.attempts.map fun other =>
      if other.jobId = attempt.jobId ∧ other.attemptNumber = attempt.attemptNumber then attempt
      else other }

/-- `try_add`: an insert that does nothing where a job agrees in the unique columns, which `same`
compares. -/
def tryAdd (same : Info → Bool) (entry : Entry Code Info) :
    Except ServiceError (Bool × Table Code Info) :=
  if table.jobs.values.any fun other => same other.info then .ok (false, table)
  else if (table.jobs.get? entry.job.id).isSome then .error .integrityError
  else .ok (true, table.saveJob entry)

/-- The job that the query of `claim_next` locks: the oldest claimable one that `eligible` accepts and
that no other transaction has locked. -/
def candidate (eligible : Info → Bool) (locked : UUID → Bool) (at_ : Instant) :
    Option (Entry Code Info) :=
  (((table.jobs.keys.filterMap table.jobs.get?).filter fun entry =>
    eligible entry.info && entry.job.claimable at_ && !locked entry.job.id).insertionSort
      fun a b => a.job.createdAt < b.job.createdAt ∨
        a.job.createdAt = b.job.createdAt ∧ a.job.id ≤ b.job.id).head?

end Table

/-! ## 5. Services -/

/-- How a worker finishes its attempt. -/
inductive Completion (Code : Type) where
  | success (result : JsonObject)
  | failure (reason : String) (code : Code) (retryable : Bool) (automaticRetryLimit : ℤ)
      (nextAttemptAt : Option Instant)

section

variable {Code Info : Type} (policy : Policy Code) (table : Table Code Info)

def raiseDomain {α : Type} : Except DomainError α → Except ServiceError α
  | .ok value => .ok value
  | .error error => .error (.domain error)

/-- `retry` on the job that it has locked; `true` where it leaves the job as it is. -/
def retry (entry : Entry Code Info) (at_ : Instant) :
    Except ServiceError ((Entry Code Info × Bool) × Table Code Info) :=
  match entry.job.status with
  | .pending | .claimed => .ok ((entry, true), table)
  | .succeeded => .error (.resourceConflict policy.texts.retrySucceeded)
  | .failed => do
    let job ← raiseDomain (entry.job.retry policy at_)
    .ok (({ entry with job }, false), table.saveJob { entry with job })

/-- `cancel_automatic_retry` on the job that it has locked. -/
def cancelAutomaticRetry (entry : Entry Code Info) (at_ : Instant) :
    Except ServiceError ((Entry Code Info × Bool) × Table Code Info) :=
  match entry.job.status with
  | .pending | .claimed => .error (.resourceConflict policy.texts.cancelActive)
  | .succeeded => .error (.resourceConflict policy.texts.cancelSucceeded)
  | .failed => do
    match ← raiseDomain (entry.job.cancelAutomaticRetry policy at_) with
    | none => .ok ((entry, true), table)
    | some job => .ok (({ entry with job }, false), table.saveJob { entry with job })

/-- Close the attempt of an expired lease. -/
def closeExpired (job : Job Code) : Except ServiceError (Table Code Info) :=
  match policy.closesExpired with
  | none => .ok table
  | some (code, reason) =>
    match table.attempt job.id (job.attemptCount - 1) with
    | none => .ok table
    | some previous =>
      if previous.status = .claimed then do
        let closed ← raiseDomain
          (previous.fail policy previous.leaseToken reason code false job.updatedAt)
        .ok (table.saveAttempt closed)
      else .ok table

/-- `claim_next` on the job that its query has locked. -/
def claimEntry (entry : Entry Code Info) (workerId : String) (leaseSeconds : ℤ) (token : UUID)
    (at_ : Instant) : Except ServiceError (Entry Code Info × Table Code Info) := do
  let (job, trigger) ← raiseDomain (entry.job.claim policy workerId leaseSeconds token at_)
  let claimed := table.saveJob { entry with job }
  match job.leaseToken with
  | none => .error (.runtimeError policy.texts.noToken)
  | some leaseToken => do
    let closed ←
      (if trigger = .leaseRecovery then closeExpired policy claimed job else .ok claimed)
    let attempt ← raiseDomain (Attempt.create policy job.id job.attemptCount trigger
      (job.workerId.getD workerId) leaseToken job.updatedAt)
    let added ← closed.addAttempt attempt
    .ok ({ entry with job }, added)

def claimNext (eligible : Info → Bool) (locked : UUID → Bool) (workerId : String)
    (leaseSeconds : ℤ) (token : UUID) (at_ : Instant) :
    Except ServiceError (Option (Entry Code Info) × Table Code Info) :=
  match table.candidate eligible locked at_ with
  | none => .ok (none, table)
  | some entry => do
    let (entry, table) ← claimEntry policy table entry workerId leaseSeconds token at_
    .ok (some entry, table)

/-- The attempt that `_finish` closes; a claim from before the ledger gets its attempt here. -/
def currentAttempt (job : Job Code) (leaseToken : UUID) :
    Except ServiceError (Attempt Code × Table Code Info) :=
  match table.attempt job.id job.attemptCount with
  | some attempt => .ok (attempt, table)
  | none =>
    match job.workerId with
    | none => .error (.resourceConflict policy.texts.noWorker)
    | some workerId => do
      let attempt ← raiseDomain (Attempt.create policy job.id job.attemptCount .leaseRecovery
        workerId leaseToken job.updatedAt)
      let table ← table.addAttempt attempt
      .ok (attempt, table)

/-- `_finish` on the job that it has locked. -/
def finish (entry : Entry Code Info) (leaseToken : UUID) (completion : Completion Code)
    (at_ : Instant) : Except ServiceError (Entry Code Info × Table Code Info) := do
  let (attempt, table) ← currentAttempt policy table entry.job leaseToken
  match completion with
  | .success result => do
    let job ← raiseDomain (entry.job.succeed policy leaseToken result at_)
    let attempt ← raiseDomain (attempt.succeed policy leaseToken result at_)
    .ok ({ entry with job }, (table.saveJob { entry with job }).saveAttempt attempt)
  | .failure reason code retryable automaticRetryLimit nextAttemptAt => do
    let job ← raiseDomain (entry.job.fail policy leaseToken reason code retryable
      automaticRetryLimit nextAttemptAt at_)
    let attempt ← raiseDomain (attempt.fail policy leaseToken reason code retryable at_)
    .ok ({ entry with job }, (table.saveJob { entry with job }).saveAttempt attempt)

end

end JbOrchestrator.Outbox
