import JbOrchestrator.Budgets.Models
import JbOrchestrator.Lib.Dict
import JbOrchestrator.Lib.Keyed
import JbOrchestrator.Lib.Machine

/-!
# Budget services — reserving and finalizing amounts

`application/budget_services.py` on the three tables of the ledger.  The row lock of the account
serializes the transactions, so a call is one step.
-/

open Lib

namespace JbOrchestrator.Budgets

open Domain Workflows Application

/-! ## 1. Tables -/

/-- The accounts under their projects, the reservations and the usage records. -/
structure Books where
  accounts : Dict UUID BudgetAccount := .empty
  reservations : List BudgetReservation := []
  usage : List UsageRecord := []

namespace Books

variable (books : Books)

/-- `get_by_key`. -/
def reservation (idempotencyKey : String) : Option BudgetReservation :=
  books.reservations.find? fun reservation => reservation.idempotencyKey = idempotencyKey

/-- `get_by_reservation`. -/
def usageOf (reservationId : UUID) : Option UsageRecord :=
  books.usage.find? fun record => record.reservationId = reservationId

/-- `list_reserved_by_run`. -/
def reservedByRun (runId : UUID) : List BudgetReservation :=
  books.reservations.filter fun reservation =>
    reservation.runId = runId ∧ reservation.status = .reserved

def saveAccount (account : BudgetAccount) : Books :=
  { books with accounts := books.accounts.set account.projectId account }

def saveReservation (reservation : BudgetReservation) : Books :=
  { books with reservations := put BudgetReservation.id reservation books.reservations }

/-- The id and the idempotency key of a reservation are unique. -/
def addReservation (reservation : BudgetReservation) : Except BudgetError Books :=
  if books.reservations.any fun other =>
      other.id = reservation.id || other.idempotencyKey = reservation.idempotencyKey then
    .error (.service .integrityError)
  else .ok { books with reservations := books.reservations ++ [reservation] }

/-- The id and the reservation of a usage record are unique. -/
def addUsage (record : UsageRecord) : Except BudgetError Books :=
  if books.usage.any fun other =>
      other.id = record.id || other.reservationId = record.reservationId then
    .error (.service .integrityError)
  else .ok { books with usage := books.usage ++ [record] }

end Books

/-- The rows of other tables that a transaction reads. -/
structure Surroundings where
  /-- The request of a run. -/
  runs : UUID → Option UUID
  /-- The project of a request. -/
  requests : UUID → Option UUID
  projects : UUID → Bool

/-- `_project_id`. -/
def Surroundings.projectId (view : Surroundings) (runId : UUID) : Except BudgetError UUID :=
  match view.runs runId with
  | none => .error (.service (notFound "run" runId))
  | some requestId =>
    match view.requests requestId with
    | none => .error (.service (notFound "request" requestId))
    | some projectId => .ok projectId

/-! ## 2. Services -/

variable (books : Books)

def configure (view : Surroundings) (projectId : UUID) (limitUsd : Decimal) (id : UUID)
    (at_ : Instant) : Except BudgetError (BudgetAccount × Books) :=
  if view.projects projectId = false then .error (.service (notFound "project" projectId))
  else match books.accounts.get? projectId with
    | none => do
      let account ← Account.create id projectId limitUsd at_
      .ok (account, books.saveAccount account)
    | some account => do
      let account ← Account.setLimit account limitUsd at_
      .ok (account, books.saveAccount account)

/-- The part of `reserve` for an account and a claim without a reservation. -/
def openReservation (account : BudgetAccount) (projectId : UUID) (claim : TaskClaim)
    (selection : ModelSelection) (id : UUID) (at_ : Instant) :
    Except BudgetError (BudgetReservation × Books) := do
  let amount := money selection.estimatedCostUsd
  let account ← Account.reserve account amount at_
  let reservation ← Reservation.create id account.id projectId claim amount
  let books ← (books.saveAccount account).addReservation reservation
  .ok (reservation, books)

def reserve (view : Surroundings) (claim : TaskClaim) (id : UUID) (at_ : Instant) :
    Except BudgetError (Option BudgetReservation × Books) :=
  match claim.modelSelection with
  | none => .ok (none, books)
  | some selection =>
    match books.reservation claim.idempotencyKey with
    | some existing => .ok (some existing, books)
    | none => do
      let projectId ← view.projectId claim.runId
      match books.accounts.get? projectId with
      | none => .ok (none, books)
      | some account => do
        let (reservation, books) ←
          openReservation books account projectId claim selection id at_
        .ok (some reservation, books)

/-- The cost of a finalized reservation, and the reservation. -/
def closeReservation (stored : BudgetReservation) (profile : ModelProfile) (usage : TokenUsage)
    (kind : UsageKind) (at_ : Instant) : Except BudgetError (Decimal × BudgetReservation) :=
  match kind with
  | .actual => do
    let closed ← Reservation.settle stored (actualCost profile usage) at_
    .ok (actualCost profile usage, closed)
  | .estimatedForfeit => do
    let closed ← Reservation.forfeit stored at_
    .ok (stored.reservedUsd, closed)

/-- `_finalize`. -/
def finalize (claim : TaskClaim) (reservation : BudgetReservation) (usage : TokenUsage)
    (kind : UsageKind) (id : UUID) (at_ : Instant) : Except BudgetError (UsageRecord × Books) :=
  match claim.modelSelection with
  | none => .error (.usageRequired "budget reservation has no model selection")
  | some selection =>
    match books.reservation reservation.idempotencyKey with
    | none => .error (.service (notFound "budget reservation" reservation.id))
    | some stored =>
      match books.accounts.get? stored.projectId with
      | none => .error (.service (notFound "budget account" stored.accountId))
      | some account =>
        match books.usageOf stored.id with
        | some existing => .ok (existing, books)
        | none =>
          if stored.status ≠ .reserved then .error (.service (.runtimeError
            ("reservation finalized without usage record: " ++ toString stored.id)))
          else do
            let (cost, closed) ← closeReservation stored selection.profile usage kind at_
            let account ← Account.settle account stored.reservedUsd cost at_
            let record ← UsageRecord.create id stored kind usage cost selection.profile
            let books ← ((books.saveAccount account).saveReservation closed).addUsage record
            .ok (record, books)

def settle (claim : TaskClaim) (reservation : Option BudgetReservation)
    (usage : Option TokenUsage) (id : UUID) (at_ : Instant) :
    Except BudgetError (Option UsageRecord × Books) :=
  match reservation, usage with
  | none, _ => .ok (none, books)
  | some _, none =>
    .error (.usageRequired "model-backed task result must report token usage")
  | some reservation, some usage => do
    let (record, books) ← finalize books claim reservation usage .actual id at_
    .ok (some record, books)

def forfeit (claim : TaskClaim) (reservation : Option BudgetReservation) (id : UUID)
    (at_ : Instant) : Except BudgetError (Option UsageRecord × Books) :=
  match reservation with
  | none => .ok (none, books)
  | some reservation => do
    let (record, books) ← finalize books claim reservation ⟨0, 0⟩ .estimatedForfeit id at_
    .ok (some record, books)

/-- The loop of `release_run_reservations`; the account is saved after it. -/
def releaseAll (runId projectId : UUID) (at_ : Instant) :
    BudgetAccount → Books → List BudgetReservation → Except BudgetError (BudgetAccount × Books)
  | account, books, [] => .ok (account, books)
  | account, books, reservation :: reservations =>
    if reservation.projectId ≠ projectId then .error (.service (.runtimeError
      ("run has reservations from multiple projects: " ++ toString runId)))
    else do
      let account ← Account.release account reservation.reservedUsd at_
      let released ← Reservation.release reservation at_
      releaseAll runId projectId at_ account (books.saveReservation released) reservations

def releaseRunReservations (runId : UUID) (at_ : Instant) : Except BudgetError (ℕ × Books) :=
  match books.reservedByRun runId with
  | [] => .ok (0, books)
  | first :: rest =>
    match books.accounts.get? first.projectId with
    | none => .error (.service (.resourceNotFound
      ("budget account not found for reserved run: " ++ toString runId)))
    | some account => do
      let (account, books) ←
        releaseAll runId first.projectId at_ account books (first :: rest)
      .ok ((first :: rest).length, books.saveAccount account)

/-! ## 3. Calls -/

/-- A call, with what its transaction reads elsewhere and the id that it draws. -/
inductive Call where
  | configure (view : Surroundings) (projectId : UUID) (limitUsd : Decimal) (id : UUID)
      (at_ : Instant)
  | reserve (view : Surroundings) (claim : TaskClaim) (id : UUID) (at_ : Instant)
  | settle (claim : TaskClaim) (reservation : Option BudgetReservation)
      (usage : Option TokenUsage) (id : UUID) (at_ : Instant)
  | forfeit (claim : TaskClaim) (reservation : Option BudgetReservation) (id : UUID)
      (at_ : Instant)
  | releaseRunReservations (runId : UUID) (at_ : Instant)

inductive Answer where
  | account (account : BudgetAccount)
  | reservation (reservation : Option BudgetReservation)
  | usage (record : Option UsageRecord)
  | released (count : ℕ)

def Call.perform (books : Books) : Call → Except BudgetError (Answer × Books)
  | .configure view projectId limitUsd id at_ => do
    let (account, books) ← Budgets.configure books view projectId limitUsd id at_
    .ok (.account account, books)
  | .reserve view claim id at_ => do
    let (reservation, books) ← Budgets.reserve books view claim id at_
    .ok (.reservation reservation, books)
  | .settle claim reservation usage id at_ => do
    let (record, books) ← Budgets.settle books claim reservation usage id at_
    .ok (.usage record, books)
  | .forfeit claim reservation id at_ => do
    let (record, books) ← Budgets.forfeit books claim reservation id at_
    .ok (.usage record, books)
  | .releaseRunReservations runId at_ => do
    let (count, books) ← Budgets.releaseRunReservations books runId at_
    .ok (.released count, books)

/-- A call that raises is rolled back. -/
def Call.step (books : Books) (call : Call) : Except BudgetError Answer × Books :=
  match call.perform books with
  | .ok (answer, books') => (.ok answer, books')
  | .error error => (.error error, books)

def budgets : Machine Books Call (Except BudgetError Answer) := ⟨Call.step⟩

end JbOrchestrator.Budgets
