import JbOrchestrator.Application.Records
import JbOrchestrator.Lib.Rounding

/-!
# Budgets — accounts, reservations and usage records

The rest of `budgets/models.py`: the amounts are rounded to a millionth of a dollar.
-/

open Lib

namespace JbOrchestrator.Budgets

open Domain Workflows Application

/-- `money`. -/
def money (value : Decimal) : Decimal := quantize 6 value

/-- An amount that `money` leaves as it is. -/
def Micro (value : Decimal) : Prop := Exact 6 value

theorem micro_money (value : Decimal) : Micro (money value) := exact_quantize 6 value

theorem Micro.money_eq {value : Decimal} (h : Micro value) : money value = value :=
  Exact.quantize_eq h

inductive BudgetError where
  | service (error : ServiceError)
  /-- `BudgetLimitExceeded`. -/
  | limitExceeded (amount available : Decimal)
  /-- `BudgetUsageRequired`. -/
  | usageRequired (message : String)
  deriving DecidableEq

def validation (message : String) : BudgetError := .service (.domain (.domainValidationError message))

/-! ## 1. Accounts -/

namespace Account

variable (account : BudgetAccount)

/-- The constructor with `__post_init__`. -/
def create (id projectId : UUID) (limitUsd : Decimal) (updatedAt : Instant) :
    Except BudgetError BudgetAccount :=
  if money limitUsd < 0 then .error (validation "budget amounts must not be negative")
  else .ok { id, projectId, limitUsd := money limitUsd, updatedAt }

def availableUsd : Decimal := money (account.limitUsd - account.reservedUsd - account.spentUsd)

def setLimit (limitUsd : Decimal) (changedAt : Instant) : Except BudgetError BudgetAccount :=
  if money limitUsd < account.reservedUsd + account.spentUsd then
    .error (validation "budget limit cannot be below current commitments")
  else .ok { account with
    limitUsd := money limitUsd, version := account.version + 1, updatedAt := changedAt }

def reserve (amountUsd : Decimal) (changedAt : Instant) : Except BudgetError BudgetAccount :=
  if money amountUsd < 0 then .error (validation "reservation amount must not be negative")
  else if availableUsd account < money amountUsd then
    .error (.limitExceeded (money amountUsd) (availableUsd account))
  else .ok { account with
    reservedUsd := money (account.reservedUsd + money amountUsd)
    version := account.version + 1
    updatedAt := changedAt }

def settle (reservedUsd actualUsd : Decimal) (changedAt : Instant) :
    Except BudgetError BudgetAccount :=
  if money actualUsd < 0 ∨ money reservedUsd < 0 ∨ account.reservedUsd < money reservedUsd then
    .error (validation "budget settlement amounts are invalid")
  else .ok { account with
    reservedUsd := money (account.reservedUsd - money reservedUsd)
    spentUsd := money (account.spentUsd + money actualUsd)
    version := account.version + 1
    updatedAt := changedAt }

def release (amountUsd : Decimal) (changedAt : Instant) : Except BudgetError BudgetAccount :=
  if money amountUsd < 0 ∨ account.reservedUsd < money amountUsd then
    .error (validation "budget release amount is invalid")
  else .ok { account with
    reservedUsd := money (account.reservedUsd - money amountUsd)
    version := account.version + 1
    updatedAt := changedAt }

end Account

/-! ## 2. Reservations -/

namespace Reservation

variable (reservation : BudgetReservation)

/-- The constructor with `__post_init__`. -/
def create (id accountId projectId : UUID) (claim : TaskClaim) (reservedUsd : Decimal) :
    Except BudgetError BudgetReservation :=
  if money reservedUsd < 0 then .error (validation "reserved_usd must not be negative")
  else if Text.isBlank claim.nodeKey ∨ Text.isBlank claim.idempotencyKey then
    .error (validation "reservation keys must not be empty")
  else .ok { id, accountId, projectId, runId := claim.runId, executionId := claim.executionId,
             nodeKey := claim.nodeKey, idempotencyKey := claim.idempotencyKey,
             reservedUsd := money reservedUsd }

/-- `_finalize`. -/
def finalize (status : BudgetReservationStatus) (actualUsd : Decimal) (changedAt : Instant) :
    Except BudgetError BudgetReservation :=
  if reservation.status ≠ .reserved then
    .error (.service (.domain (.invalidStateTransition
      ("cannot finalize reservation from " ++ reservation.status.value))))
  else if money actualUsd < 0 then .error (validation "actual_usd must not be negative")
  else .ok { reservation with
    status, actualUsd := some (money actualUsd), finalizedAt := some changedAt }

def settle (actualUsd : Decimal) (changedAt : Instant) : Except BudgetError BudgetReservation :=
  finalize reservation .settled actualUsd changedAt

def forfeit (changedAt : Instant) : Except BudgetError BudgetReservation :=
  finalize reservation .forfeited reservation.reservedUsd changedAt

def release (changedAt : Instant) : Except BudgetError BudgetReservation :=
  finalize reservation .released 0 changedAt

end Reservation

/-! ## 3. Usage -/

inductive UsageKind where
  | actual | estimatedForfeit
  deriving DecidableEq, Repr

/-- `TokenUsage`, whose constructor refuses negative counts. -/
structure TokenUsage where
  inputTokens : ℕ
  outputTokens : ℕ

structure UsageRecord where
  id : UUID
  reservationId : UUID
  accountId : UUID
  projectId : UUID
  runId : UUID
  executionId : UUID
  nodeKey : String
  kind : UsageKind
  inputTokens : ℕ
  outputTokens : ℕ
  costUsd : Decimal
  modelProfileKey : String
  modelProfileVersion : ℕ

/-- The constructor with `__post_init__`. -/
def UsageRecord.create (id : UUID) (stored : BudgetReservation) (kind : UsageKind)
    (usage : TokenUsage) (costUsd : Decimal) (profile : ModelProfile) :
    Except BudgetError UsageRecord :=
  if money costUsd < 0 then .error (validation "usage cost must not be negative")
  else .ok { id, reservationId := stored.id, accountId := stored.accountId,
             projectId := stored.projectId, runId := stored.runId,
             executionId := stored.executionId, nodeKey := stored.nodeKey, kind,
             inputTokens := usage.inputTokens, outputTokens := usage.outputTokens,
             costUsd := money costUsd, modelProfileKey := profile.key,
             modelProfileVersion := profile.version }

/-- The cost of the reported tokens. -/
def actualCost (profile : ModelProfile) (usage : TokenUsage) : Decimal :=
  money ((usage.inputTokens * profile.inputCostPerMillion +
    usage.outputTokens * profile.outputCostPerMillion) / 1000000)

end JbOrchestrator.Budgets
