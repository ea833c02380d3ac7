import JbOrchestrator.Application.Records
import JbOrchestrator.Infrastructure.Selection
import JbOrchestrator.Lib.Transaction

/-!
# Database — tables, units of work and the statements of the repositories

A statement reads the rows that are committed when it runs (READ COMMITTED); a row that the unit of
work has loaded before keeps the attributes it was loaded with.  Changes stay in the unit of work
until it commits: then an insert meets the unique constraints, an update of a versioned row its
version, and an update writes the columns whose value differs from the loaded one.
-/

open Lib

namespace JbOrchestrator.Infrastructure

open Domain Workflows Application

/-! ## 1. Tables -/

/-- The registered definitions and versioned records, which no service below changes. -/
structure Registry where
  definitions : List AcceptedDefinition := []
  phasePacks : List PhasePackDefinition := []
  skills : List SkillDefinition := []
  modelProfiles : List ModelProfile := []

/-- The committed rows.  A `WorkflowExecution` stands for its row and its node rows, which statements
read separately; an account is kept under its project. -/
structure Database where
  registry : Registry
  projects : Dict UUID Project := .empty
  requests : Dict UUID UserRequest := .empty
  runs : Dict UUID Run := .empty
  executions : Dict UUID WorkflowExecution := .empty
  artifacts : List TaskArtifact := []
  accounts : Dict UUID BudgetAccount := .empty
  reservations : Dict UUID BudgetReservation := .empty
  events : List DomainEvent := []

/-- The row of an execution without its node rows. -/
structure WorkflowExecutionRecord where
  id : UUID
  snapshot : WorkflowSnapshot
  status : WorkflowStatus
  failureReason : Option String
  startedAt : Option Instant
  completedAt : Option Instant
  updatedAt : Instant
  version : ℕ

namespace WorkflowExecutionRecord

def ofExecution (execution : WorkflowExecution) : WorkflowExecutionRecord where
  id := execution.id
  snapshot := execution.snapshot
  status := execution.status
  failureReason := execution.failureReason
  startedAt := execution.startedAt
  completedAt := execution.completedAt
  updatedAt := execution.updatedAt
  version := execution.version

/-- `_to_execution`. -/
def toExecution (record : WorkflowExecutionRecord) (nodes : Dict NodeKey NodeExecution) :
    WorkflowExecution where
  snapshot := record.snapshot
  id := record.id
  status := record.status
  nodes := nodes
  failureReason := record.failureReason
  startedAt := record.startedAt
  completedAt := record.completedAt
  updatedAt := record.updatedAt
  version := record.version

@[simp] theorem ofExecution_id (execution : WorkflowExecution) :
    (ofExecution execution).id = execution.id := rfl

@[simp] theorem ofExecution_snapshot (execution : WorkflowExecution) :
    (ofExecution execution).snapshot = execution.snapshot := rfl

@[simp] theorem toExecution_ofExecution (execution : WorkflowExecution) :
    (ofExecution execution).toExecution execution.nodes = execution := rfl

end WorkflowExecutionRecord

/-- A row of the join of the node executions with their workflow executions. -/
structure Candidate where
  executionId : UUID
  node : NodeExecution

namespace Database

variable (db : Database)

/-- The execution with the run id, which is unique. -/
def executionOf (runId : UUID) : Option WorkflowExecution :=
  (db.executions.keys.filterMap db.executions.get?).find? fun execution =>
    execution.snapshot.runId = runId

/-- The rows of the join that pass the filter. -/
def join (filter : WorkflowExecution → NodeExecution → Bool) : List Candidate :=
  db.executions.keys.flatMap fun id =>
    match db.executions.get? id with
    | none => []
    | some execution =>
      ((execution.nodes.keys.filterMap execution.nodes.get?).filter (filter execution)).map
        fun node => ⟨id, node⟩

/-- The candidates of `get_ready_for_update`, oldest update first. -/
def readyCandidates (executorKeys : Option (List String)) : List Candidate :=
  (db.join (readyForUpdate executorKeys)).insertionSort fun a b =>
    a.node.updatedAt < b.node.updatedAt ∨
      a.node.updatedAt = b.node.updatedAt ∧ a.node.id ≤ b.node.id

/-- The candidates of `get_expired_for_update`, earliest expiry first. -/
def expiredCandidates (changedAt : Instant) : List Candidate :=
  (db.join (expiredForUpdate changedAt)).insertionSort fun a b =>
    a.node.leaseExpiresAt.getD 0 < b.node.leaseExpiresAt.getD 0 ∨
      a.node.leaseExpiresAt = b.node.leaseExpiresAt ∧ a.node.id ≤ b.node.id

/-- `list_latest_for_nodes`. -/
def latestArtifacts (executionId : UUID) (nodeKeys : List NodeKey) : List TaskArtifact :=
  (db.artifacts.filter fun artifact => artifact.executionId = executionId ∧
      artifact.producerNodeKey ∈ nodeKeys ∧
      ∀ other ∈ db.artifacts, other.executionId = executionId →
        other.producerNodeKey = artifact.producerNodeKey →
        other.visitCount ≤ artifact.visitCount).insertionSort
    fun a b => a.producerNodeKey ≤ b.producerNodeKey

/-- `workflow_definitions.get`; without a version the latest one. -/
def definition (key : String) (version : Option ℕ) : Option AcceptedDefinition :=
  (db.registry.definitions.filter fun d => d.definition.key = key).find? fun d =>
    match version with
    | some version => d.definition.version = version
    | none => (db.registry.definitions.filter fun d => d.definition.key = key).all fun other =>
        other.definition.version ≤ d.definition.version

def phasePack (reference : PhasePackReference) : Option PhasePackDefinition :=
  db.registry.phasePacks.find? fun value => value.reference = reference

def skill (reference : SkillReference) : Option SkillDefinition :=
  db.registry.skills.find? fun value => value.reference = reference

/-- `model_profiles.list_latest`. -/
def latestModelProfiles : List ModelProfile :=
  (db.registry.modelProfiles.filter fun profile => db.registry.modelProfiles.all fun other =>
      other.key ≠ profile.key ∨ other.version ≤ profile.version).insertionSort
    fun a b => a.key ≤ b.key

/-- `list_reserved_by_run`. -/
def reservedByRun (runId : UUID) : List BudgetReservation :=
  (db.reservations.keys.filterMap db.reservations.get?).filter fun reservation =>
    reservation.runId = runId ∧ reservation.status = .reserved

end Database

/-! ## 2. Writing -/

/-- What an update leaves in a column: a value that did not change is not written. -/
def column {α : Type} [DecidableEq α] (stored loaded current : α) : α :=
  if current = loaded then stored else current

@[simp] theorem column_self {α : Type} [DecidableEq α] (stored current : α) :
    column stored stored current = current := by
  unfold column
  split
  · rename_i h
    exact h.symm
  · rfl

def mergeNode (stored loaded current : NodeExecution) : NodeExecution :=
  { current with
    executorKey := column stored.executorKey loaded.executorKey current.executorKey
    status := column stored.status loaded.status current.status
    visitCount := column stored.visitCount loaded.visitCount current.visitCount
    attemptCount := column stored.attemptCount loaded.attemptCount current.attemptCount
    outcome := column stored.outcome loaded.outcome current.outcome
    output := column stored.output loaded.output current.output
    workerId := column stored.workerId loaded.workerId current.workerId
    leaseToken := column stored.leaseToken loaded.leaseToken current.leaseToken
    leaseExpiresAt := column stored.leaseExpiresAt loaded.leaseExpiresAt current.leaseExpiresAt
    startedAt := column stored.startedAt loaded.startedAt current.startedAt
    completedAt := column stored.completedAt loaded.completedAt current.completedAt
    updatedAt := column stored.updatedAt loaded.updatedAt current.updatedAt }

@[simp] theorem mergeNode_self (stored current : NodeExecution) :
    mergeNode stored stored current = current := by
  simp [mergeNode]

/-- The rows of an execution after `save`, whose node rows are written one by one. -/
def mergeExecution (stored loaded current : WorkflowExecution) : WorkflowExecution where
  snapshot := stored.snapshot
  id := stored.id
  status := current.status
  nodes := current.nodes.mapEntries fun key node =>
    match stored.nodes.get? key, loaded.nodes.get? key with
    | some storedNode, some loadedNode => mergeNode storedNode loadedNode node
    | _, _ => node
  failureReason := current.failureReason
  startedAt := current.startedAt
  completedAt := current.completedAt
  updatedAt := current.updatedAt
  version := current.version

theorem mergeExecution_self {stored current : WorkflowExecution}
    (hsnapshot : current.snapshot = stored.snapshot) (hid : current.id = stored.id) :
    mergeExecution stored stored current = current := by
  have hnodes : (mergeExecution stored stored current).nodes = current.nodes := by
    simp only [mergeExecution]
    refine Dict.mapEntries_of_eq _ _ fun key node _ => ?_
    cases stored.nodes.get? key <;> simp
  obtain ⟨snapshot, id, status, nodes, failureReason, startedAt, completedAt, updatedAt, version⟩ :=
    current
  obtain rfl : snapshot = stored.snapshot := hsnapshot
  obtain rfl : id = stored.id := hid
  exact congrArg (fun nodes => (⟨stored.snapshot, stored.id, status, nodes, failureReason,
    startedAt, completedAt, updatedAt, version⟩ : WorkflowExecution)) hnodes

/-- The pending changes of a unit of work.  An update keeps the attributes that were loaded; where the
version of a row matches, they are those of the row. -/
inductive Write where
  | insertRequest (request : UserRequest)
  | insertRun (run : Run)
  | insertExecution (execution : WorkflowExecution)
  | insertArtifact (artifact : TaskArtifact)
  | updateRequest (loaded current : UserRequest)
  | updateRun (loaded current : Run)
  | updateExecution (loaded current : WorkflowExecution)
  | updateAccount (loaded current : BudgetAccount)
  | updateReservation (current : BudgetReservation)

def Write.apply (db : Database) : Write → Except ServiceError Database
  | .insertRequest request =>
    match db.requests.get? request.id with
    | some _ => .error .integrityError
    | none => .ok { db with requests := db.requests.set request.id request }
  | .insertRun run =>
    match db.runs.get? run.id with
    | some _ => .error .integrityError
    | none => .ok { db with runs := db.runs.set run.id run }
  | .insertExecution execution =>
    match db.executions.get? execution.id, db.executionOf execution.snapshot.runId with
    | none, none => .ok { db with executions := db.executions.set execution.id execution }
    | _, _ => .error .integrityError
  | .insertArtifact artifact =>
    if ∃ other ∈ db.artifacts, other.key = artifact.key then .error .integrityError
    else .ok { db with artifacts := db.artifacts ++ [artifact] }
  | .updateRequest loaded current =>
    match db.requests.get? current.id with
    | none => .error .staleDataError
    | some stored => .ok { db with requests := db.requests.set current.id { stored with
        status := column stored.status loaded.status current.status
        updatedAt := column stored.updatedAt loaded.updatedAt current.updatedAt } }
  | .updateRun loaded current =>
    match db.runs.get? current.id with
    | none => .error .staleDataError
    | some stored =>
      if stored.version = loaded.version then
        .ok { db with runs := db.runs.set current.id current }
      else .error .staleDataError
  | .updateExecution loaded current =>
    match db.executions.get? current.id with
    | none => .error .staleDataError
    | some stored =>
      if stored.version = loaded.version then
        .ok { db with
          executions := db.executions.set current.id (mergeExecution stored loaded current) }
      else .error .staleDataError
  | .updateAccount loaded current =>
    match db.accounts.get? current.projectId with
    | none => .error .staleDataError
    | some stored =>
      if stored.version = loaded.version then
        .ok { db with accounts := db.accounts.set current.projectId current }
      else .error .staleDataError
  | .updateReservation current =>
    match db.reservations.get? current.id with
    | none => .error .staleDataError
    | some _ => .ok { db with reservations := db.reservations.set current.id current }

/-! ## 3. Units of work -/

/-- The identity map and the pending changes of a session. -/
structure UnitOfWork where
  requests : Dict UUID UserRequest := .empty
  runs : Dict UUID Run := .empty
  executions : Dict UUID WorkflowExecutionRecord := .empty
  nodes : Dict UUID (Dict NodeKey NodeExecution) := .empty
  accounts : Dict UUID BudgetAccount := .empty
  writes : List Write := []
  events : List DomainEvent := []

def UnitOfWork.flush (unitOfWork : UnitOfWork) (db : Database) : Except ServiceError Database :=
  (unitOfWork.writes.foldlM Write.apply db).map fun db =>
    { db with events := db.events ++ unitOfWork.events }

/-! ## 4. Statements -/

inductive RowLock where
  | request (id : UUID)
  | run (id : UUID)
  | execution (id : UUID)
  | account (projectId : UUID)
  | reservation (id : UUID)
  deriving DecidableEq, Repr

inductive Statement where
  | project (id : UUID)
  | request (id : UUID) (forUpdate : Bool)
  | run (id : UUID) (forUpdate : Bool)
  | execution (id : UUID) (forUpdate : Bool)
  | executionByRun (runId : UUID) (forUpdate : Bool)
  | nodes (executionId : UUID)
  | readyCandidates (executorKeys : Option (List String))
  | expiredCandidates (changedAt : Instant)
  | lockCandidate (candidate : Candidate)
  | latestArtifacts (executionId : UUID) (nodeKeys : List NodeKey)
  | definition (key : String) (version : Option ℕ)
  | phasePack (reference : PhasePackReference)
  | skill (reference : SkillReference)
  | latestModelProfiles
  | account (projectId : UUID)
  | reservedByRun (runId : UUID) (forUpdate : Bool)
  | addRequest (request : UserRequest)
  | addRun (run : Run)
  | addExecution (execution : WorkflowExecution)
  | addArtifact (artifact : TaskArtifact)
  | saveRequest (request : UserRequest)
  | saveRun (run : Run)
  | saveExecution (execution : WorkflowExecution)
  | saveAccount (account : BudgetAccount)
  | saveReservation (reservation : BudgetReservation)
  | append (event : DomainEvent)

namespace Statement

abbrev Reply : Statement → Type
  | .project _ => Option Project
  | .request _ _ => Option UserRequest
  | .run _ _ => Option Run
  | .execution _ _ => Option WorkflowExecutionRecord
  | .executionByRun _ _ => Option WorkflowExecutionRecord
  | .nodes _ => Dict NodeKey NodeExecution
  | .readyCandidates _ => List Candidate
  | .expiredCandidates _ => List Candidate
  | .lockCandidate _ => Bool
  | .latestArtifacts _ _ => List TaskArtifact
  | .definition _ _ => Option AcceptedDefinition
  | .phasePack _ => Option PhasePackDefinition
  | .skill _ => Option SkillDefinition
  | .latestModelProfiles => List ModelProfile
  | .account _ => Option BudgetAccount
  | .reservedByRun _ _ => List BudgetReservation
  | _ => Unit

/-- The row locks that a statement takes.  `FOR UPDATE` waits for a row that is locked, and the
candidate queries skip it. -/
def locks (db : Database) (taken : RowLock → Bool) : Statement → List RowLock
  | .request id true => if (db.requests.get? id).isSome then [.request id] else []
  | .run id true => if (db.runs.get? id).isSome then [.run id] else []
  | .execution id true => if (db.executions.get? id).isSome then [.execution id] else []
  | .executionByRun runId true =>
    match db.executionOf runId with
    | some row => [.execution row.id]
    | none => []
  | .lockCandidate candidate =>
    if taken (.execution candidate.executionId) then [] else [.execution candidate.executionId]
  | .account projectId => if (db.accounts.get? projectId).isSome then [.account projectId] else []
  | .reservedByRun runId true => (db.reservedByRun runId).map fun row => .reservation row.id
  | _ => []

/-- A row that is already loaded keeps its attributes; otherwise the committed row is loaded. -/
def load {α : Type} (loaded : Dict UUID α) (id : UUID) (stored : Option α) :
    Option α × Dict UUID α :=
  match loaded.get? id with
  | some row => (some row, loaded)
  | none =>
    match stored with
    | some row => (some row, loaded.set id row)
    | none => (none, loaded)

/-- The node rows of an execution, among them the loaded ones as they were loaded. -/
def overlay (stored loaded : Dict NodeKey NodeExecution) : Dict NodeKey NodeExecution :=
  stored.mapEntries fun key node => (loaded.get? key).getD node

/-- The reply and the unit of work after it. -/
def answer (db : Database) (taken : RowLock → Bool) (unitOfWork : UnitOfWork) :
    (statement : Statement) → statement.Reply × UnitOfWork
  | .project id => (db.projects.get? id, unitOfWork)
  | .request id _ =>
    let row := load unitOfWork.requests id (db.requests.get? id)
    (row.1, { unitOfWork with requests := row.2 })
  | .run id _ =>
    let row := load unitOfWork.runs id (db.runs.get? id)
    (row.1, { unitOfWork with runs := row.2 })
  | .execution id _ =>
    let row := load unitOfWork.executions id
      ((db.executions.get? id).map WorkflowExecutionRecord.ofExecution)
    (row.1, { unitOfWork with executions := row.2 })
  | .executionByRun runId _ =>
    match db.executionOf runId with
    | none => (none, unitOfWork)
    | some stored =>
      let row := load unitOfWork.executions stored.id
        (some (WorkflowExecutionRecord.ofExecution stored))
      (row.1, { unitOfWork with executions := row.2 })
  | .nodes executionId =>
    let stored := ((db.executions.get? executionId).map WorkflowExecution.nodes).getD .empty
    let rows := overlay stored ((unitOfWork.nodes.get? executionId).getD .empty)
    (rows, { unitOfWork with nodes := unitOfWork.nodes.set executionId rows })
  | .readyCandidates executorKeys => (db.readyCandidates executorKeys, unitOfWork)
  | .expiredCandidates changedAt => (db.expiredCandidates changedAt, unitOfWork)
  | .lockCandidate candidate =>
    -- the locked execution row is read again, its node row is the one of the statement's snapshot
    if taken (.execution candidate.executionId) ∨
        (db.executions.get? candidate.executionId).all fun row => row.status ≠ .running then
      (false, unitOfWork)
    else (true, { unitOfWork with
      nodes := unitOfWork.nodes.set candidate.executionId
        ⟨[(candidate.node.nodeKey, candidate.node)]⟩ })
  | .latestArtifacts executionId nodeKeys => (db.latestArtifacts executionId nodeKeys, unitOfWork)
  | .definition key version => (db.definition key version, unitOfWork)
  | .phasePack reference => (db.phasePack reference, unitOfWork)
  | .skill reference => (db.skill reference, unitOfWork)
  | .latestModelProfiles => (db.latestModelProfiles, unitOfWork)
  | .account projectId =>
    let row := load unitOfWork.accounts projectId (db.accounts.get? projectId)
    (row.1, { unitOfWork with accounts := row.2 })
  | .reservedByRun runId _ => (db.reservedByRun runId, unitOfWork)
  | .addRequest row => ((), { unitOfWork with
      requests := unitOfWork.requests.set row.id row
      writes := unitOfWork.writes ++ [.insertRequest row] })
  | .addRun row => ((), { unitOfWork with
      runs := unitOfWork.runs.set row.id row
      writes := unitOfWork.writes ++ [.insertRun row] })
  | .addExecution row => ((), { unitOfWork with
      executions := unitOfWork.executions.set row.id
        (WorkflowExecutionRecord.ofExecution row)
      nodes := unitOfWork.nodes.set row.id row.nodes
      writes := unitOfWork.writes ++ [.insertExecution row] })
  | .addArtifact row => ((), { unitOfWork with
      writes := unitOfWork.writes ++ [.insertArtifact row] })
  | .saveRequest row =>
    match (load unitOfWork.requests row.id (db.requests.get? row.id)).1 with
    | none => ((), { unitOfWork with
        requests := unitOfWork.requests.set row.id row
        writes := unitOfWork.writes ++ [.insertRequest row] })
    | some loaded => ((), { unitOfWork with
        requests := unitOfWork.requests.set row.id row
        writes := unitOfWork.writes ++ [.updateRequest loaded row] })
  | .saveRun row =>
    match (load unitOfWork.runs row.id (db.runs.get? row.id)).1 with
    | none => ((), { unitOfWork with
        runs := unitOfWork.runs.set row.id row
        writes := unitOfWork.writes ++ [.insertRun row] })
    | some loaded => ((), { unitOfWork with
        runs := unitOfWork.runs.set row.id row
        writes := unitOfWork.writes ++ [.updateRun loaded row] })
  | .saveExecution row =>
    let stored := db.executions.get? row.id
    let rows := overlay ((stored.map WorkflowExecution.nodes).getD .empty)
      ((unitOfWork.nodes.get? row.id).getD .empty)
    let saved := { unitOfWork with
      executions := unitOfWork.executions.set row.id
        (WorkflowExecutionRecord.ofExecution row)
      nodes := unitOfWork.nodes.set row.id row.nodes }
    match (load unitOfWork.executions row.id
      (stored.map WorkflowExecutionRecord.ofExecution)).1 with
    | none => ((), { saved with
        writes := unitOfWork.writes ++ [.insertExecution row] })
    | some loaded => ((), { saved with
        writes := unitOfWork.writes ++ [.updateExecution (loaded.toExecution rows) row] })
  | .saveAccount row => ((), { unitOfWork with
      accounts := unitOfWork.accounts.set row.projectId row
      writes := unitOfWork.writes ++
        [.updateAccount ((unitOfWork.accounts.get? row.projectId).getD row) row] })
  | .saveReservation row => ((), { unitOfWork with
      writes := unitOfWork.writes ++ [.updateReservation row] })
  | .append row => ((), { unitOfWork with events := unitOfWork.events ++ [row] })

/-- A statement waits while a lock it takes is taken. -/
def exec (db : Database) (taken : RowLock → Bool) (unitOfWork : UnitOfWork)
    (statement : Statement) : Option (statement.Reply × UnitOfWork × List RowLock) :=
  if (statement.locks db taken).any taken then none
  else
    some ((statement.answer db taken unitOfWork).1, (statement.answer db taken unitOfWork).2,
      statement.locks db taken)

theorem exec_eq_some {db : Database} {taken : RowLock → Bool} {unitOfWork after : UnitOfWork}
    {statement : Statement} {reply : statement.Reply} {acquired : List RowLock}
    (h : statement.exec db taken unitOfWork = some (reply, after, acquired)) :
    reply = (statement.answer db taken unitOfWork).1 ∧
      after = (statement.answer db taken unitOfWork).2 ∧ acquired = statement.locks db taken ∧
      ∀ lock ∈ acquired, taken lock = false := by
  unfold exec at h
  split at h
  · cases h
  · rename_i hfree
    obtain ⟨rfl, rfl, rfl⟩ := by simpa using h
    exact ⟨rfl, rfl, rfl, by simpa using hfree⟩

theorem exec_isSome (db : Database) (unitOfWork : UnitOfWork) (statement : Statement) :
    (statement.exec db (fun _ => false) unitOfWork).isSome := by
  simp [exec]

end Statement

end JbOrchestrator.Infrastructure
