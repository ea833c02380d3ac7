import JbOrchestrator.Outbox.Eligibility
import JbOrchestrator.Scm.Publications

/-!
# Workspace operations — requests for maintenance of a workspace

`WorkspaceOperation` with its lease, the query of its `claim_next`, and what the domain operation
accepts beyond that query; SCM publications accept the same.
-/

open Lib

namespace JbOrchestrator.WorkspaceOperations

open Domain Workflows Application Outbox

/-! ## 1. Operations -/

inductive WorkspaceOperationKind where
  | inspect | cleanup
  deriving DecidableEq, Repr

inductive WorkspaceOperationStatus where
  | pending | claimed | succeeded | failed
  deriving DecidableEq, Repr

structure WorkspaceOperation where
  externalExecutionId : UUID
  kind : WorkspaceOperationKind
  targetRef : String
  workspaceScope : String
  idempotencyKey : String
  requestedBy : String
  id : UUID
  status : WorkspaceOperationStatus := .pending
  workerId : Option String := none
  leaseToken : Option UUID := none
  leaseExpiresAt : Option Instant := none
  result : Option JsonObject := none
  failureReason : Option String := none
  createdAt : Instant
  updatedAt : Instant
  completedAt : Option Instant := none

namespace WorkspaceOperation

def requireText (label value : String) : Except DomainError String :=
  if Text.isBlank value then
    .error (.domainValidationError ("workspace operation " ++ label ++ " must not be empty"))
  else .ok (Text.strip value)

variable (operation : WorkspaceOperation)

/-- `__post_init__`. -/
def postInit : Except DomainError WorkspaceOperation := do
  let targetRef ← requireText "target_ref" operation.targetRef
  let workspaceScope ← requireText "workspace_scope" operation.workspaceScope
  let idempotencyKey ← requireText "idempotency_key" operation.idempotencyKey
  let requestedBy ← requireText "requested_by" operation.requestedBy
  .ok { operation with targetRef, workspaceScope, idempotencyKey, requestedBy }

def isTerminal : Bool := operation.status = .succeeded || operation.status = .failed

/-- `claim`.  The token that `uuid4` draws is an argument. -/
def claim (workerId : String) (leaseSeconds : ℤ) (token : UUID) (at_ : Instant) :
    Except DomainError WorkspaceOperation :=
  if operation.isTerminal then
    .error (.invalidStateTransition "terminal workspace operation cannot be claimed")
  else if Text.isBlank workerId ∨ leaseSeconds ≤ 0 then
    .error (.domainValidationError "workspace operation claim requires worker and positive lease")
  else .ok { operation with
    status := .claimed
    workerId := some (Text.strip workerId)
    leaseToken := some token
    leaseExpiresAt := some (at_ + 1000000 * leaseSeconds)
    updatedAt := at_ }

/-- `_require_claim`. -/
def requireClaim (leaseToken : UUID) : Except DomainError Unit :=
  if operation.status ≠ .claimed ∨ operation.leaseToken ≠ some leaseToken then
    .error (.invalidStateTransition "workspace operation lease is not owned by this worker")
  else .ok ()

def succeed (leaseToken : UUID) (result : JsonObject) (at_ : Instant) :
    Except DomainError WorkspaceOperation := do
  operation.requireClaim leaseToken
  .ok { operation with
    status := .succeeded
    result := some result
    failureReason := none
    leaseExpiresAt := none
    completedAt := some at_
    updatedAt := at_ }

def fail (leaseToken : UUID) (reason : String) (at_ : Instant) :
    Except DomainError WorkspaceOperation := do
  operation.requireClaim leaseToken
  if Text.isBlank reason then
    .error (.domainValidationError "workspace operation failure reason must not be empty")
  else .ok { operation with
    status := .failed
    failureReason := some (Text.strip reason)
    leaseExpiresAt := none
    completedAt := some at_
    updatedAt := at_ }

/-- The `or_` of the repository's `claim_next`. -/
def claimCondition (now : Instant) : Sql.Truth :=
  Sql.disj (Sql.eq (some operation.status) (some .pending))
    (Sql.conj (Sql.eq (some operation.status) (some .claimed))
      (Sql.le operation.leaseExpiresAt (some now)))

/-- The operation is claimed, and its lease is not over. -/
def LeaseRuns (at_ : Instant) : Prop :=
  operation.status = .claimed ∧
    ∀ expiresAt, operation.leaseExpiresAt = some expiresAt → at_ < expiresAt

end WorkspaceOperation

/-! ## 2. Claims of operations -/

section

variable {operation : WorkspaceOperation} {workerId : String} {leaseSeconds : ℤ} {token : UUID}
  {at_ : Instant}

namespace WorkspaceOperation

theorem claim_ok_iff (hworker : Text.isBlank workerId = false) (hlease : 0 < leaseSeconds) :
    (∃ claimed, operation.claim workerId leaseSeconds token at_ = .ok claimed) ↔
      operation.status = .pending ∨ operation.status = .claimed := by
  have hargs : ¬(Text.isBlank workerId = true ∨ leaseSeconds ≤ 0) := by
    simp [hworker, hlease]
  unfold claim isTerminal
  cases operation.status with
  | pending | claimed =>
    rw [if_neg (by decide), if_neg hargs]
    simp
  | succeeded | failed =>
    rw [if_pos (by decide)]
    simp

theorem selects_claimCondition :
    Sql.selects (operation.claimCondition at_) = true ↔
      operation.status = .pending ∨ operation.status = .claimed ∧ ¬operation.LeaseRuns at_ := by
  unfold claimCondition LeaseRuns
  simp only [Sql.selects_disj, Sql.selects_conj, Sql.selects_eq, Sql.selects_le, Bool.or_eq_true,
    Bool.and_eq_true, decide_eq_true_eq, Option.any_eq_true]
  apply or_congr_right
  apply and_congr_right
  intro hclaimed
  simp [hclaimed]

/-- The domain operation accepts what the query selects. -/
def Agrees (operation : WorkspaceOperation) (workerId : String) (leaseSeconds : ℤ) (token : UUID)
    (at_ : Instant) : Prop :=
  (∃ claimed, operation.claim workerId leaseSeconds token at_ = .ok claimed) ↔
    Sql.selects (operation.claimCondition at_) = true

theorem agrees_iff (hworker : Text.isBlank workerId = false) (hlease : 0 < leaseSeconds) :
    operation.Agrees workerId leaseSeconds token at_ ↔ ¬operation.LeaseRuns at_ := by
  unfold Agrees
  rw [claim_ok_iff hworker hlease, selects_claimCondition]
  by_cases hruns : operation.LeaseRuns at_
  · -- the query leaves it alone and the operation does not
    have hclaimed := hruns.1
    simp [hruns, hclaimed]
  · simp [hruns]

end WorkspaceOperation

end

/-! ## 3. Claims of publications -/

section

variable {publication : Job Scm.ScmPublicationFailureCode} {workerId : String} {leaseSeconds : ℤ}
  {token : UUID} {at_ : Instant}

/-- The publication is claimed, and its lease is not over. -/
def LeaseRuns (publication : Job Scm.ScmPublicationFailureCode) (at_ : Instant) : Prop :=
  publication.status = .claimed ∧
    ∀ expiresAt, publication.leaseExpiresAt = some expiresAt → at_ < expiresAt

/-- `ScmPublication.claim` accepts what the query selects, and the trigger says whether the claim takes
over a lease or follows a manual retry. -/
def Agrees (publication : Job Scm.ScmPublicationFailureCode) (workerId : String)
    (leaseSeconds : ℤ) (token : UUID) (at_ : Instant) : Prop :=
  ((∃ claimed, publication.claim Scm.policy workerId leaseSeconds token at_ = .ok claimed) ↔
    Sql.selects (publication.claimCondition at_) = true) ∧
  ∀ claimed trigger,
    publication.claim Scm.policy workerId leaseSeconds token at_ = .ok (claimed, trigger) →
      (trigger = .leaseRecovery ↔ publication.status = .claimed) ∧
      (trigger = .manual ↔ publication.status = .pending ∧ 0 < publication.attemptCount)

theorem expired_iff_not_leaseRuns (hclaimed : publication.status = .claimed) :
    publication.expired at_ = true ↔ ¬LeaseRuns publication at_ := by
  rw [Job.expired_iff]
  unfold LeaseRuns
  simp [hclaimed]

theorem claim_trigger {claimed : Job Scm.ScmPublicationFailureCode} {trigger : AttemptTrigger}
    (h : publication.claim Scm.policy workerId leaseSeconds token at_ = .ok (claimed, trigger)) :
    trigger = publication.claimTrigger at_ := by
  unfold Job.claim at h
  split at h
  · cases h
  split at h
  · cases h
  · exact (Prod.mk.inj (Except.ok.inj h)).2.symm

/-- What the query does not select of the claimable statuses is a running lease. -/
theorem claimable_of_status (hruns : ¬LeaseRuns publication at_)
    (h : publication.claimable at_ = true ∨ publication.status = .claimed) :
    publication.claimable at_ = true := by
  rcases h with hclaimable | hclaimed
  · exact hclaimable
  · unfold Job.claimable
    rw [(expired_iff_not_leaseRuns hclaimed).mpr hruns]
    simp

theorem agrees_iff (hworker : Text.isBlank workerId = false) (hlease : 0 < leaseSeconds) :
    Agrees publication workerId leaseSeconds token at_ ↔ ¬LeaseRuns publication at_ := by
  have hok : (∃ claimed, publication.claim Scm.policy workerId leaseSeconds token at_ =
      .ok claimed) ↔ publication.claimable at_ = true ∨ publication.status = .claimed := by
    rw [Job.claim_ok_iff]
    have hleased : Scm.policy.claimsLeased = true := rfl
    simp [hleased, hworker, hlease]
  unfold Agrees
  rw [hok, Job.selects_claimCondition]
  constructor
  · rintro ⟨hagrees, -⟩ hruns
    have hclaimable := hagrees.mp (.inr hruns.1)
    obtain ⟨hexpired, -⟩ := Job.due_of_claimable hclaimable
    obtain ⟨expiresAt, hexpires, hle⟩ := hexpired hruns.1
    exact absurd (hruns.2 expiresAt hexpires) (not_lt.mpr hle)
  · intro hruns
    refine ⟨⟨claimable_of_status hruns, .inl⟩, ?_⟩
    intro claimed trigger hclaim
    have hclaimable := claimable_of_status hruns (hok.mp ⟨_, hclaim⟩)
    rw [claim_trigger hclaim]
    rcases Job.claimTrigger_cases hclaimable with ⟨htrigger, hstatus⟩ | ⟨htrigger, hstatus, -⟩ |
      ⟨htrigger, hstatus, hcount⟩ | ⟨htrigger, hstatus, hcount⟩
    · simp [htrigger, hstatus]
    · simp [htrigger, hstatus]
    · simp [htrigger, hstatus, hcount]
    · simp [htrigger, hstatus, hcount]

end

/-- Publications and operations are claimed as their queries say, except that the domain operations also
take a lease that still runs. -/
theorem eligibility_agrees_iff (workerId : String) (leaseSeconds : ℤ)
    (hworker : Text.isBlank workerId = false) (hlease : 0 < leaseSeconds) :
    (∀ publication token at_, Agrees publication workerId leaseSeconds token at_ ↔
      ¬LeaseRuns publication at_) ∧
    ∀ (operation : WorkspaceOperation) token at_,
      operation.Agrees workerId leaseSeconds token at_ ↔ ¬operation.LeaseRuns at_ :=
  ⟨fun _ _ _ => agrees_iff hworker hlease,
    fun _ _ _ => WorkspaceOperation.agrees_iff hworker hlease⟩

/-- Claimed until the end of the first minute. -/
def leasedPublication : Job Scm.ScmPublicationFailureCode where
  id := 1
  status := .claimed
  workerId := some "first"
  leaseToken := some 6
  leaseExpiresAt := some 60000000
  attemptCount := 1
  createdAt := 0
  updatedAt := 0

def leasedOperation : WorkspaceOperation where
  externalExecutionId := 3
  kind := .cleanup
  targetRef := "task"
  workspaceScope := "host"
  idempotencyKey := "key"
  requestedBy := "user"
  id := 2
  status := .claimed
  workerId := some "first"
  leaseToken := some 6
  leaseExpiresAt := some 60000000
  createdAt := 0
  updatedAt := 0

theorem eligibility_agrees_iff_leased :
    ¬Agrees leasedPublication "second" 60 7 1000000 ∧
      ¬leasedOperation.Agrees "second" 60 7 1000000 := by
  have heligible := eligibility_agrees_iff "second" 60 (by decide) (by decide)
  have hlater : ∀ expiresAt, some (60000000 : Instant) = some expiresAt →
      (1000000 : Instant) < expiresAt := by
    intro expiresAt hexpires
    rw [← Option.some.inj hexpires]
    decide
  rw [heligible.1, heligible.2, not_not, not_not]
  exact ⟨⟨rfl, hlater⟩, ⟨rfl, hlater⟩⟩

/-- A second worker claims both within the lease of the first, and the attempt reads `MANUAL`. -/
theorem running_lease_claimed :
    ¬((∀ publication workerId leaseSeconds token at_, Text.isBlank workerId = false →
        0 < leaseSeconds → Agrees publication workerId leaseSeconds token at_) ∧
      ∀ (operation : WorkspaceOperation) workerId leaseSeconds token at_,
        Text.isBlank workerId = false → 0 < leaseSeconds →
          operation.Agrees workerId leaseSeconds token at_) := by
  rintro ⟨hclaim, -⟩
  obtain ⟨hagrees, -⟩ := hclaim leasedPublication "second" 60 7 1000000 (by decide) (by decide)
  have hselected := hagrees.mp ⟨_, rfl⟩
  revert hselected
  decide

end JbOrchestrator.WorkspaceOperations
