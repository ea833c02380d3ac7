import JbOrchestrator.ExternalExecutions.Models
import JbOrchestrator.Lib.Indexes
import JbOrchestrator.WorkspaceOperations.Models

/-!
# Requests — the service of workspace operations

`WorkspaceOperationService` as calls on a table of operations.  A request is answered with the operation
that has its execution and idempotency key, or adds one.
-/

open Lib

namespace JbOrchestrator.WorkspaceOperations

open Domain Workflows Application Outbox ExternalExecutions

/-! ## 1. The service -/

/-- A row of `external_executions`. -/
structure ManagedExecution extends ExternalExecution where
  id : UUID
  workspaceReleasedAt : Option Instant := none

namespace ManagedExecution

/-- What `ScmPublicationService` reads of a row. -/
def scm (row : ManagedExecution) : Scm.ExternalExecution where
  id := row.id
  runId := row.runId
  isTerminal := row.isTerminal
  workspaceBranch := row.workspaceBranch
  workspaceScope := row.workspaceScope
  workspaceReleasedAt := row.workspaceReleasedAt

def releaseWorkspace (row : ManagedExecution) (at_ : Instant) : Except Raised ManagedExecution :=
  if row.isTerminal = false then
    .error (.invalidStateTransition "cannot release workspace before external execution ends")
  else if given row.workspacePath = false then
    .error (.domainValidation "external execution has no workspace to release")
  else if row.workspaceReleasedAt ≠ none then .ok row
  else .ok { row with workspaceReleasedAt := some at_ }

end ManagedExecution

abbrev OperationTable := Dict UUID WorkspaceOperation

/-- The arguments of `request`. -/
structure OperationArguments where
  kind : WorkspaceOperationKind
  targetRef : String
  idempotencyKey : String
  requestedBy : String
  confirmation : Option String := none

section

variable (table : OperationTable) (executions : UUID → Option ManagedExecution)

/-- `_execution`. -/
def execution (executionId : UUID) : Except ServiceError ManagedExecution :=
  match executions executionId with
  | none => .error (notFound "external execution" executionId)
  | some row => .ok row

def getByIdempotencyKey (externalExecutionId : UUID) (idempotencyKey : String) :
    Option WorkspaceOperation :=
  table.values.find? fun operation =>
    operation.externalExecutionId = externalExecutionId ∧ operation.idempotencyKey = idempotencyKey

/-- `try_add`: an insert that does nothing where an operation agrees in the unique columns. -/
def tryAdd (operation : WorkspaceOperation) : Except ServiceError (Bool × OperationTable) :=
  if (getByIdempotencyKey table operation.externalExecutionId operation.idempotencyKey).isSome then
    .ok (false, table)
  else if (table.get? operation.id).isSome then .error .integrityError
  else .ok (true, table.set operation.id operation)

/-- The answer to a request whose key is taken. -/
def replay (existing : WorkspaceOperation) (arguments : OperationArguments) :
    Except ServiceError ((WorkspaceOperation × Bool) × OperationTable) :=
  if existing.kind ≠ arguments.kind ∨ existing.targetRef ≠ Text.strip arguments.targetRef then
    .error (.resourceConflict "idempotency key was already used for another command")
  else .ok ((existing, true), table)

/-- The operation that a request adds, before its `__post_init__`. -/
def newOperation (externalExecutionId : UUID) (row : ManagedExecution) (arguments : OperationArguments)
    (id : UUID) (at_ : Instant) : WorkspaceOperation where
  externalExecutionId := externalExecutionId
  kind := arguments.kind
  targetRef := arguments.targetRef
  workspaceScope := row.workspaceScope.getD ""
  idempotencyKey := Text.strip arguments.idempotencyKey
  requestedBy := arguments.requestedBy
  id := id
  createdAt := at_
  updatedAt := at_

def request (externalExecutionId : UUID) (arguments : OperationArguments) (id : UUID) (at_ : Instant) :
    Except ServiceError ((WorkspaceOperation × Bool) × OperationTable) :=
  if Text.isBlank arguments.idempotencyKey then
    .error (.domain (.domainValidationError "workspace operation idempotency key must not be empty"))
  else if arguments.kind = .cleanup ∧ arguments.confirmation ≠ some (toString externalExecutionId) then
    .error (.domain (.domainValidationError
      "cleanup confirmation must equal the external execution UUID"))
  else do
    let row ← execution executions externalExecutionId
    if given row.workspacePath = false ∨ given row.workspaceScope = false then
      .error (.resourceConflict "external execution has no managed workspace scope")
    else if arguments.kind = .cleanup ∧ row.isTerminal = false then
      .error (.resourceConflict "workspace cleanup requires a terminal external execution")
    else
      match getByIdempotencyKey table externalExecutionId (Text.strip arguments.idempotencyKey) with
      | some existing => replay table existing arguments
      | none => do
        let operation ← raiseDomain (newOperation externalExecutionId row arguments id at_).postInit
        let (added, table) ← tryAdd table operation
        if added then .ok ((operation, false), table)
        else
          match getByIdempotencyKey table externalExecutionId (Text.strip arguments.idempotencyKey) with
          | some existing => replay table existing arguments
          | none => .error (.runtimeError "workspace operation idempotency claim disappeared")

/-- The operation that the query of `claim_next` locks: the oldest one in its scope that no other
transaction has locked. -/
def candidate (workspaceScope : String) (locked : UUID → Bool) (now : Instant) :
    Option WorkspaceOperation :=
  (((table.keys.filterMap table.get?).filter fun operation =>
    operation.workspaceScope = workspaceScope && Sql.selects (operation.claimCondition now) &&
      !locked operation.id).insertionSort fun a b => a.createdAt < b.createdAt ∨
        a.createdAt = b.createdAt ∧ a.id ≤ b.id).head?

def claimNext (workerId workspaceScope : String) (leaseSeconds : ℤ) (token : UUID)
    (locked : UUID → Bool) (now : Instant) :
    Except ServiceError (Option WorkspaceOperation × OperationTable) :=
  match candidate table workspaceScope locked now with
  | none => .ok (none, table)
  | some operation => do
    let claimed ← raiseDomain (operation.claim workerId leaseSeconds token now)
    let _ ← execution executions claimed.externalExecutionId
    .ok (some claimed, table.set claimed.id claimed)

/-- `_finish`, with what the worker reports. -/
def finish (operationId : UUID)
    (report : WorkspaceOperation → Except DomainError WorkspaceOperation) :
    Except ServiceError (WorkspaceOperation × OperationTable) :=
  match table.get? operationId with
  | none => .error (notFound "workspace operation" operationId)
  | some operation => do
    let finished ← raiseDomain (report operation)
    let _ ← execution executions finished.externalExecutionId
    .ok (finished, table.set finished.id finished)

def succeed (operationId leaseToken : UUID) (result : JsonObject) (at_ : Instant) :
    Except ServiceError (WorkspaceOperation × OperationTable) :=
  finish table executions operationId fun operation => operation.succeed leaseToken result at_

def fail (operationId leaseToken : UUID) (reason : String) (at_ : Instant) :
    Except ServiceError (WorkspaceOperation × OperationTable) :=
  finish table executions operationId fun operation => operation.fail leaseToken reason at_

end

/-! ## 2. What a call does to the table -/

def operationKey (operation : WorkspaceOperation) : UUID × String :=
  (operation.externalExecutionId, operation.idempotencyKey)

/-- The operation is the same command, whatever has become of it. -/
structure SameCommand (operation operation' : WorkspaceOperation) : Prop where
  id : operation'.id = operation.id
  kind : operation'.kind = operation.kind
  targetRef : operation'.targetRef = operation.targetRef
  column : operationKey operation' = operationKey operation

theorem SameCommand.refl (operation : WorkspaceOperation) : SameCommand operation operation :=
  ⟨rfl, rfl, rfl, rfl⟩

theorem SameCommand.trans {operation operation' operation'' : WorkspaceOperation}
    (h : SameCommand operation operation') (h' : SameCommand operation' operation'') :
    SameCommand operation operation'' :=
  ⟨h'.id.trans h.id, h'.kind.trans h.kind, h'.targetRef.trans h.targetRef, h'.column.trans h.column⟩

theorem WorkspaceOperation.claim_sameCommand {operation claimed : WorkspaceOperation} {workerId : String}
    {leaseSeconds : ℤ} {token : UUID} {at_ : Instant}
    (h : operation.claim workerId leaseSeconds token at_ = .ok claimed) :
    SameCommand operation claimed := by
  unfold claim at h
  split at h
  · cases h
  split at h
  · cases h
  · obtain rfl := Except.ok.inj h
    exact ⟨rfl, rfl, rfl, rfl⟩

theorem WorkspaceOperation.succeed_sameCommand {operation finished : WorkspaceOperation}
    {leaseToken : UUID} {result : JsonObject} {at_ : Instant}
    (h : operation.succeed leaseToken result at_ = .ok finished) : SameCommand operation finished := by
  obtain ⟨-, -, h⟩ := bind_ok h
  obtain rfl := Except.ok.inj h
  exact ⟨rfl, rfl, rfl, rfl⟩

theorem WorkspaceOperation.fail_sameCommand {operation finished : WorkspaceOperation}
    {leaseToken : UUID} {reason : String} {at_ : Instant}
    (h : operation.fail leaseToken reason at_ = .ok finished) : SameCommand operation finished := by
  obtain ⟨-, -, h⟩ := bind_ok h
  split at h
  · cases h
  · obtain rfl := Except.ok.inj h
    exact ⟨rfl, rfl, rfl, rfl⟩

/-- Every operation is under its own id, and found by its key. -/
structure Consistent (table : OperationTable) : Prop where
  indexed : table.Indexed operationKey
  id : ∀ id operation, table.get? id = some operation → operation.id = id

theorem Consistent.empty : Consistent .empty := ⟨.empty, fun _ _ h => by cases h⟩

/-- Operations stay, as the commands that they are. -/
def Keeps (table table' : OperationTable) : Prop :=
  ∀ id operation, table.get? id = some operation → ∃ operation',
    table'.get? id = some operation' ∧ SameCommand operation operation'

theorem Keeps.refl (table : OperationTable) : Keeps table table :=
  fun _ operation h => ⟨operation, h, .refl operation⟩

theorem Keeps.trans {table table' table'' : OperationTable} (h : Keeps table table')
    (h' : Keeps table' table'') : Keeps table table'' := by
  intro id operation hrow
  obtain ⟨operation', hrow', hsame⟩ := h id operation hrow
  obtain ⟨operation'', hrow'', hsame'⟩ := h' id operation' hrow'
  exact ⟨operation'', hrow'', hsame.trans hsame'⟩

section

variable {table table' : OperationTable} {executions : UUID → Option ManagedExecution}
  {externalExecutionId id : UUID} {row : ManagedExecution} {arguments : OperationArguments}
  {at_ : Instant} {operation operation' existing : WorkspaceOperation} {replayed : Bool}

theorem getByIdempotencyKey_eq (table : OperationTable) (externalExecutionId : UUID)
    (idempotencyKey : String) : getByIdempotencyKey table externalExecutionId idempotencyKey =
      table.findBy operationKey (externalExecutionId, idempotencyKey) := by
  unfold getByIdempotencyKey Dict.findBy operationKey
  simp only [Prod.mk.injEq]

/-- An operation is saved again as the command that it is. -/
theorem Consistent.save (h : Consistent table) (hrow : table.get? id = some operation)
    (hsame : SameCommand operation operation') :
    Consistent (table.set operation'.id operation') ∧
      Keeps table (table.set operation'.id operation') := by
  have hid : operation'.id = id := hsame.id.trans (h.id id operation hrow)
  rw [hid]
  refine ⟨⟨h.indexed.replace hrow hsame.column, ?_⟩, ?_⟩
  · intro id' other hother
    rw [Dict.get?_set] at hother
    split at hother
    · rename_i hid'
      obtain rfl := Option.some.inj hother
      exact hid.trans hid'.symm
    · exact h.id id' other hother
  · intro id' other hother
    rw [Dict.get?_set]
    split
    · rename_i hid'
      subst hid'
      obtain rfl := Option.some.inj (hrow.symm.trans hother)
      exact ⟨operation', rfl, hsame⟩
    · exact ⟨other, hother, .refl other⟩

/-- The rows that let a request pass. -/
structure Admits (executions : UUID → Option ManagedExecution) (externalExecutionId : UUID)
    (row : ManagedExecution) (kind : WorkspaceOperationKind) : Prop where
  stored : executions externalExecutionId = some row
  path : given row.workspacePath = true
  scope : given row.workspaceScope = true
  terminal : kind = .cleanup → row.isTerminal = true

/-- What a request that succeeds found or added. -/
inductive RequestOk (table : OperationTable) (externalExecutionId : UUID)
    (arguments : OperationArguments) (operation : WorkspaceOperation) : Bool → OperationTable → Prop where
  | replayed (hfound : table.findBy operationKey
      (externalExecutionId, Text.strip arguments.idempotencyKey) = some operation) :
    RequestOk table externalExecutionId arguments operation true table
  | created (hnone : table.findBy operationKey
      (externalExecutionId, Text.strip arguments.idempotencyKey) = none)
    (hcolumn : operationKey operation = (externalExecutionId, Text.strip arguments.idempotencyKey))
    (hnew : table.get? operation.id = none) :
    RequestOk table externalExecutionId arguments operation false (table.set operation.id operation)

theorem execution_some (h : execution executions externalExecutionId = .ok row) :
    executions externalExecutionId = some row := by
  unfold execution at h
  split at h
  · cases h
  · rename_i found hfound
    obtain rfl := Except.ok.inj h
    exact hfound

theorem replay_same {answer : WorkspaceOperation × Bool}
    (h : replay table existing arguments = .ok (answer, table')) :
    answer = (existing, true) ∧ table' = table ∧ existing.kind = arguments.kind ∧
      existing.targetRef = Text.strip arguments.targetRef := by
  unfold replay at h
  split at h
  · cases h
  · rename_i hsame
    obtain ⟨hkind, htarget⟩ := not_or.mp hsame
    obtain ⟨rfl, rfl⟩ := Prod.mk.inj (Except.ok.inj h)
    exact ⟨rfl, rfl, not_not.mp hkind, not_not.mp htarget⟩

theorem requireText_ok {label value text : String}
    (h : WorkspaceOperation.requireText label value = .ok text) : text = Text.strip value := by
  unfold WorkspaceOperation.requireText at h
  split at h
  · cases h
  · exact (Except.ok.inj h).symm

theorem postInit_ok (h : operation.postInit = .ok operation') :
    operation' = { operation with
      targetRef := Text.strip operation.targetRef
      workspaceScope := Text.strip operation.workspaceScope
      idempotencyKey := Text.strip operation.idempotencyKey
      requestedBy := Text.strip operation.requestedBy } := by
  obtain ⟨targetRef, htargetRef, h⟩ := bind_ok h
  obtain ⟨workspaceScope, hworkspaceScope, h⟩ := bind_ok h
  obtain ⟨idempotencyKey, hidempotencyKey, h⟩ := bind_ok h
  obtain ⟨requestedBy, hrequestedBy, h⟩ := bind_ok h
  obtain rfl := Except.ok.inj h
  rw [requireText_ok htargetRef, requireText_ok hworkspaceScope, requireText_ok hidempotencyKey,
    requireText_ok hrequestedBy]

theorem request_ok
    (h : request table executions externalExecutionId arguments id at_ =
      .ok ((operation, replayed), table')) :
    Text.isBlank arguments.idempotencyKey = false ∧
      (arguments.kind = .cleanup → arguments.confirmation = some (toString externalExecutionId)) ∧
      (∃ row, Admits executions externalExecutionId row arguments.kind) ∧
      operation.kind = arguments.kind ∧ operation.targetRef = Text.strip arguments.targetRef ∧
      RequestOk table externalExecutionId arguments operation replayed table' := by
  unfold request at h
  split at h
  · cases h
  rename_i hkey
  split at h
  · cases h
  rename_i hconfirmed
  obtain ⟨row, hexecution, h⟩ := bind_ok h
  split at h
  · cases h
  rename_i hworkspace
  split at h
  · cases h
  rename_i hterminal
  obtain ⟨hpath, hscope⟩ := not_or.mp hworkspace
  have hadmits : Admits executions externalExecutionId row arguments.kind :=
    ⟨execution_some hexecution, by simpa using hpath, by simpa using hscope,
      fun hcleanup => by simpa [hcleanup] using hterminal⟩
  refine ⟨by simpa using hkey, fun hcleanup => by simpa [hcleanup] using hconfirmed, ⟨row, hadmits⟩, ?_⟩
  rw [getByIdempotencyKey_eq] at h
  split at h
  · rename_i existing hfound
    obtain ⟨hanswer, rfl, hkind, htarget⟩ := replay_same h
    obtain ⟨rfl, rfl⟩ := Prod.mk.inj hanswer
    exact ⟨hkind, htarget, .replayed hfound⟩
  · rename_i hnone
    obtain ⟨created, hcreate, h⟩ := bind_ok h
    have hcreated := postInit_ok (raiseDomain_ok hcreate)
    have hcolumn : operationKey created = (externalExecutionId, Text.strip arguments.idempotencyKey) := by
      rw [hcreated]
      exact Prod.ext rfl (Text.strip_strip _)
    obtain ⟨⟨added, grown⟩, hadd, h⟩ := bind_ok h
    unfold tryAdd at hadd
    rw [getByIdempotencyKey_eq, ← operationKey, hcolumn, hnone, if_neg (by decide)] at hadd
    split at hadd
    · cases hadd
    · rename_i hnew
      obtain ⟨rfl, rfl⟩ := Prod.mk.inj (Except.ok.inj hadd)
      obtain ⟨hanswer, rfl⟩ := Prod.mk.inj (Except.ok.inj h)
      obtain ⟨rfl, rfl⟩ := Prod.mk.inj hanswer
      refine ⟨by rw [hcreated]; rfl, by rw [hcreated]; rfl, ?_⟩
      exact .created hnone hcolumn (by simpa using hnew)

/-- A request that finds its key is answered with the operation, or with a conflict. -/
theorem request_found (hkey : Text.isBlank arguments.idempotencyKey = false)
    (hconfirmed : arguments.kind = .cleanup →
      arguments.confirmation = some (toString externalExecutionId))
    (hadmits : Admits executions externalExecutionId row arguments.kind)
    (hfound : table.findBy operationKey
      (externalExecutionId, Text.strip arguments.idempotencyKey) = some existing) :
    request table executions externalExecutionId arguments id at_ =
      replay table existing arguments := by
  have hexecution : execution executions externalExecutionId = .ok row := by
    unfold execution
    rw [hadmits.stored]
  unfold request
  rw [hkey, if_neg (by decide), if_neg fun h => h.2 (hconfirmed h.1), hexecution]
  simp only [bind, Except.bind]
  rw [if_neg (by rw [hadmits.path, hadmits.scope]; decide),
    if_neg fun h => by simp [hadmits.terminal h.1] at h, getByIdempotencyKey_eq, hfound]

theorem RequestOk.keeps (h : Consistent table)
    (hok : RequestOk table externalExecutionId arguments operation replayed table') :
    Consistent table' ∧ Keeps table table' := by
  cases hok with
  | replayed => exact ⟨h, .refl table⟩
  | created hnone hcolumn hnew =>
    refine ⟨⟨h.indexed.add (by rw [hcolumn]; exact hnone), ?_⟩, ?_⟩
    · intro id other hother
      rw [Dict.get?_set] at hother
      split at hother
      · rename_i hid
        obtain rfl := Option.some.inj hother
        exact hid.symm
      · exact h.id id other hother
    · intro id other hother
      rw [Dict.get?_set]
      split
      · rename_i hid
        rw [hid, hnew] at hother
        cases hother
      · exact ⟨other, hother, .refl other⟩

theorem claimNext_keeps {workerId workspaceScope : String} {leaseSeconds : ℤ} {token : UUID}
    {locked : UUID → Bool} {now : Instant} {answer : Option WorkspaceOperation} (h : Consistent table)
    (hclaim : claimNext table executions workerId workspaceScope leaseSeconds token locked now =
      .ok (answer, table')) : Consistent table' ∧ Keeps table table' := by
  unfold claimNext at hclaim
  split at hclaim
  · obtain ⟨-, rfl⟩ := Prod.mk.inj (Except.ok.inj hclaim)
    exact ⟨h, .refl table⟩
  · rename_i operation hcandidate
    obtain ⟨claimed, hclaimed, hclaim⟩ := bind_ok hclaim
    obtain ⟨row, -, hclaim⟩ := bind_ok hclaim
    obtain ⟨-, rfl⟩ := Prod.mk.inj (Except.ok.inj hclaim)
    have hmem := List.mem_of_mem_head? hcandidate
    rw [List.mem_insertionSort, List.mem_filter, List.mem_filterMap] at hmem
    obtain ⟨⟨id, -, hrow⟩, -⟩ := hmem
    exact h.save hrow (WorkspaceOperation.claim_sameCommand (raiseDomain_ok hclaimed))

theorem finish_keeps {operationId : UUID}
    {report : WorkspaceOperation → Except DomainError WorkspaceOperation} {answer : WorkspaceOperation}
    (hreport : ∀ operation finished, report operation = .ok finished → SameCommand operation finished)
    (h : Consistent table)
    (hfinish : finish table executions operationId report = .ok (answer, table')) :
    Consistent table' ∧ Keeps table table' := by
  unfold finish at hfinish
  split at hfinish
  · cases hfinish
  · rename_i operation hrow
    obtain ⟨finished, hfinished, hfinish⟩ := bind_ok hfinish
    obtain ⟨row, -, hfinish⟩ := bind_ok hfinish
    obtain ⟨-, rfl⟩ := Prod.mk.inj (Except.ok.inj hfinish)
    exact h.save hrow (hreport operation finished (raiseDomain_ok hfinished))

end

end JbOrchestrator.WorkspaceOperations
