import JbOrchestrator.Domain.Aggregates
import JbOrchestrator.Lib.Keyed
import JbOrchestrator.Lib.Machine
import JbOrchestrator.Lib.Rounding
import JbOrchestrator.Workflows.Models

/-!
# Readiness — diagnosing READY tasks and keeping their alerts

`WorkerReadinessService.evaluate_project` over the tables it reads and the ledger of alerts it
writes.  The identifiers that `uuid4` draws and what the last inspection of an evaluation reads are
arguments.
-/

open Lib

namespace JbOrchestrator.WorkerPresence

open Domain Workflows

inductive ReadinessError where
  | resourceNotFound (message : String)
  | domainError (error : DomainError)
  | valueError (message : String)
  | lookupError (message : String)
  | integrityError
  deriving DecidableEq, Repr

/-- `timedelta(seconds=...)` in microseconds. -/
def timedelta (seconds : ℚ) : ℤ := roundHalfEven (1000000 * seconds)

/-! ## 1. Workers -/

inductive WorkerKind where
  | execution | workspace | scm | readinessMonitor | notification
  deriving DecidableEq, Repr

inductive WorkerLifecycleStatus where
  | running | stopped
  deriving DecidableEq, Repr

inductive WorkerObservedStatus where
  | online | stale | stopped
  deriving DecidableEq, Repr

structure WorkerInstance where
  id : UUID
  workerId : String
  kind : WorkerKind
  capabilities : List String
  status : WorkerLifecycleStatus := .running
  lastSeenAt : Instant
  deriving DecidableEq

def WorkerInstance.observedStatus (worker : WorkerInstance) (staleAfterSeconds : ℚ)
    (observedAt : Instant) : Except ReadinessError WorkerObservedStatus :=
  if staleAfterSeconds ≤ 0 then
    .error (.domainError (.domainValidationError "worker stale threshold must be positive"))
  else if worker.status = .stopped then .ok .stopped
  else if timedelta staleAfterSeconds < observedAt - worker.lastSeenAt then .ok .stale
  else .ok .online

/-- `_latest_execution_workers`: the first row of every worker wins. -/
def latestExecutionWorkers : List WorkerInstance → List WorkerInstance → List WorkerInstance
  | latest, [] => latest
  | latest, worker :: workers =>
    if worker.kind = .execution ∧ ∀ known ∈ latest, known.workerId ≠ worker.workerId then
      latestExecutionWorkers (latest ++ [worker]) workers
    else latestExecutionWorkers latest workers

structure WorkerCapabilityCoverage where
  executorKey : String
  onlineWorkerIds : List String
  staleWorkerIds : List String
  stoppedWorkerIds : List String
  deriving DecidableEq

/-- `_coverage`. -/
def coverage (executorKey : String) (workers : List WorkerInstance) (staleAfterSeconds : ℚ)
    (checkedAt : Instant) : Except ReadinessError WorkerCapabilityCoverage := do
  let capable := workers.filter fun worker => executorKey ∈ worker.capabilities
  let observed ← capable.mapM fun worker => do
    let status ← worker.observedStatus staleAfterSeconds checkedAt
    return (worker.workerId, status)
  let byStatus status := ((observed.filter fun entry => entry.2 = status).map Prod.fst
    ).insertionSort (· ≤ ·)
  return ⟨executorKey, byStatus .online, byStatus .stale, byStatus .stopped⟩

/-! ## 2. Issues and alerts -/

inductive WorkerReadinessIssueReason where
  | noCapableWorker | capableWorkersOffline
  deriving DecidableEq, Repr

inductive WorkerReadinessAlertStatus where
  | active | resolved
  deriving DecidableEq, Repr

/-- What identifies a READY visit of a node. -/
structure Occurrence where
  workflowExecutionId : UUID
  nodeKey : NodeKey
  readySince : Instant
  deriving DecidableEq

structure WorkerReadinessIssue extends Occurrence where
  runId : UUID
  executorKey : String
  reason : WorkerReadinessIssueReason
  deriving DecidableEq

structure WorkerReadinessAlert extends Occurrence where
  id : UUID
  projectId : UUID
  runId : UUID
  executorKey : String
  reason : WorkerReadinessIssueReason
  status : WorkerReadinessAlertStatus := .active
  firstDetectedAt : Instant
  lastObservedAt : Instant
  criticalAt : Option Instant := none
  resolvedAt : Option Instant := none
  deriving DecidableEq

namespace WorkerReadinessAlert

def observe (alert : WorkerReadinessAlert) (reason : WorkerReadinessIssueReason)
    (observedAt : Instant) : Bool × WorkerReadinessAlert :=
  (decide (alert.reason ≠ reason), { alert with reason, lastObservedAt := observedAt })

def resolve (alert : WorkerReadinessAlert) (resolvedAt : Instant) : WorkerReadinessAlert :=
  if alert.status = .resolved then alert
  else { alert with
    status := .resolved, lastObservedAt := resolvedAt, resolvedAt := some resolvedAt }

def escalate (alert : WorkerReadinessAlert) (criticalAfterSeconds : ℚ) (escalatedAt : Instant) :
    Except ReadinessError (Bool × WorkerReadinessAlert) :=
  if criticalAfterSeconds ≤ 0 then
    .error (.valueError "worker readiness critical threshold must be positive")
  else if alert.status ≠ .active ∨ alert.criticalAt ≠ none then .ok (false, alert)
  else if escalatedAt - alert.firstDetectedAt < timedelta criticalAfterSeconds then
    .ok (false, alert)
  else .ok (true, { alert with criticalAt := some escalatedAt })

/-- `order_by(first_detected_at.desc(), id)`. -/
def upTo (a b : WorkerReadinessAlert) : Prop :=
  b.firstDetectedAt < a.firstDetectedAt ∨ (a.firstDetectedAt = b.firstDetectedAt ∧ a.id ≤ b.id)

instance : DecidableRel upTo := fun a b =>
  inferInstanceAs (Decidable (b.firstDetectedAt < a.firstDetectedAt ∨
    (a.firstDetectedAt = b.firstDetectedAt ∧ a.id ≤ b.id)))

end WorkerReadinessAlert

structure ProjectWorkerReadiness where
  projectId : UUID
  checkedAt : Instant
  onlineExecutionWorkers : ℕ
  coverage : List WorkerCapabilityCoverage
  issues : List WorkerReadinessIssue
  alerts : List WorkerReadinessAlert := []
  deriving DecidableEq

/-! ## 3. Queries -/

/-- The tables an evaluation only reads. -/
structure Tables where
  projects : List UUID := []
  executions : List WorkflowExecution := []
  workers : List WorkerInstance := []

/-- `WorkflowExecutionRepository.list_by_project`; `projectOf` is the project of the request behind
the run of an execution, which no transaction changes. -/
def listExecutions (projectOf : UUID → UUID) (executions : List WorkflowExecution)
    (projectId : UUID) (status : WorkflowStatus) (limit : ℕ) : List WorkflowExecution :=
  let selected := executions.filter fun execution =>
    projectOf execution.id = projectId ∧ execution.status = status
  (selected.insertionSort fun a b =>
    b.updatedAt < a.updatedAt ∨ (a.updatedAt = b.updatedAt ∧ a.id ≤ b.id)).take limit

/-- `WorkerInstanceRepository.list`. -/
def listWorkers (workers : List WorkerInstance) (limit : ℕ) : List WorkerInstance :=
  (workers.insertionSort fun a b =>
    b.lastSeenAt < a.lastSeenAt ∨ (a.lastSeenAt = b.lastSeenAt ∧ b.id ≤ a.id)).take limit

/-- `WorkerReadinessAlertRepository.list_by_project`. -/
def listAlerts (alerts : List WorkerReadinessAlert) (projectId : UUID)
    (status : Option WorkerReadinessAlertStatus) (limit : ℕ) : List WorkerReadinessAlert :=
  let selected := alerts.filter fun alert => alert.projectId = projectId
  let selected := selected.filter fun alert => status.all fun status => alert.status = status
  (selected.insertionSort WorkerReadinessAlert.upTo).take limit

def getOccurrence (alerts : List WorkerReadinessAlert) (occurrence : Occurrence) :
    Option WorkerReadinessAlert :=
  alerts.find? fun alert => alert.toOccurrence = occurrence

/-! ## 4. The inspection -/

def readyNodes (executions : List WorkflowExecution) : List (WorkflowExecution × NodeExecution) :=
  executions.flatMap fun execution =>
    (execution.nodes.values.filter fun node => node.status = .ready).map fun node =>
      (execution, node)

/-- The issue of a READY node, unless a worker that can run it is online. -/
def issueOf (coverages : List WorkerCapabilityCoverage) (execution : WorkflowExecution)
    (node : NodeExecution) : Option WorkerReadinessIssue :=
  match coverages.find? fun item => item.executorKey = node.executorKey with
  | none => none
  | some item =>
    if item.onlineWorkerIds = [] then
      some {
        workflowExecutionId := execution.id
        nodeKey := node.nodeKey
        readySince := node.updatedAt
        runId := execution.snapshot.runId
        executorKey := node.executorKey
        reason :=
          if item.staleWorkerIds ≠ [] ∨ item.stoppedWorkerIds ≠ [] then .capableWorkersOffline
          else .noCapableWorker }
    else none

/-- `_inspect_project`. -/
def inspectProject (projectOf : UUID → UUID) (tables : Tables)
    (alerts : List WorkerReadinessAlert) (projectId : UUID) (staleAfterSeconds : ℚ)
    (checkedAt : Instant) : Except ReadinessError ProjectWorkerReadiness :=
  if projectId ∉ tables.projects then
    .error (.resourceNotFound ("project not found: " ++ toString projectId))
  else do
    let executions := listExecutions projectOf tables.executions projectId .running 500
    let workers := latestExecutionWorkers [] (listWorkers tables.workers 1000)
    let ready := readyNodes executions
    let executorKeys := (ready.map fun entry => entry.2.executorKey).dedup.insertionSort (· ≤ ·)
    let coverages ← executorKeys.mapM fun key => coverage key workers staleAfterSeconds checkedAt
    let sorted := ready.insertionSort fun a b => a.2.updatedAt ≤ b.2.updatedAt
    let statuses ← workers.mapM fun worker => worker.observedStatus staleAfterSeconds checkedAt
    return {
      projectId, checkedAt
      onlineExecutionWorkers := statuses.count .online
      coverage := coverages
      issues := sorted.filterMap fun entry => issueOf coverages entry.1 entry.2
      alerts := listAlerts alerts projectId none 500 }

/-! ## 5. The evaluation -/

/-- The project event about an alert. -/
structure AlertEvent where
  eventType : String
  alert : WorkerReadinessAlert
  deriving DecidableEq

/-- What a unit of work has written so far. -/
structure Session where
  alerts : List WorkerReadinessAlert
  events : List AlertEvent := []

namespace Session

variable (session : Session)

/-- A row that repeats a primary key or an occurrence is refused. -/
def add (alert : WorkerReadinessAlert) : Except ReadinessError Session :=
  if ∃ row ∈ session.alerts, row.id = alert.id ∨ row.toOccurrence = alert.toOccurrence then
    .error .integrityError
  else .ok { session with alerts := session.alerts ++ [alert] }

def save (alert : WorkerReadinessAlert) : Except ReadinessError Session :=
  if ∀ row ∈ session.alerts, row.id ≠ alert.id then
    .error (.lookupError ("worker readiness alert not found: " ++ toString alert.id))
  else .ok { session with alerts := put (fun row => row.id) alert session.alerts }

/-- `_append_alert_event`. -/
def appendAlertEvent (alert : WorkerReadinessAlert) (eventType : String) : Session :=
  { session with events := session.events ++ [⟨eventType, alert⟩] }

end Session

/-- One call of `evaluate_project` with what it meets: whether the advisory lock is free, the
identifiers of new alerts, and the tables as the final report finds them. -/
structure Evaluation where
  projectId : UUID
  staleAfterSeconds : ℚ := 90
  criticalAfterSeconds : ℚ := 300
  checkedAt : Instant
  acquired : Bool := true
  newId : Occurrence → UUID
  finalTables : Tables

namespace Evaluation

variable (evaluation : Evaluation)

def openAlert (issue : WorkerReadinessIssue) : WorkerReadinessAlert where
  toOccurrence := issue.toOccurrence
  id := evaluation.newId issue.toOccurrence
  projectId := evaluation.projectId
  runId := issue.runId
  executorKey := issue.executorKey
  reason := issue.reason
  firstDetectedAt := evaluation.checkedAt
  lastObservedAt := evaluation.checkedAt

/-- The body of the loop over the issues. -/
def observeIssue (session : Session) (issue : WorkerReadinessIssue) :
    Except ReadinessError Session :=
  match getOccurrence session.alerts issue.toOccurrence with
  | none => do
    let alert := evaluation.openAlert issue
    let session ← session.add alert
    return session.appendAlertEvent alert "worker.readiness_alerted"
  | some alert => do
    let (reasonChanged, alert) := alert.observe issue.reason evaluation.checkedAt
    let (escalated, alert) ←
      alert.escalate evaluation.criticalAfterSeconds evaluation.checkedAt
    let session ← session.save alert
    let session := if reasonChanged then
      session.appendAlertEvent alert "worker.readiness_alert_reason_changed" else session
    return if escalated then
      session.appendAlertEvent alert "worker.readiness_critical" else session

def observeIssues : List WorkerReadinessIssue → Session → Except ReadinessError Session
  | [], session => .ok session
  | issue :: issues, session => do
    let session ← evaluation.observeIssue session issue
    observeIssues issues session

/-- The body of the loop over the active alerts. -/
def resolveAlert (current : List Occurrence) (session : Session) (alert : WorkerReadinessAlert) :
    Except ReadinessError Session :=
  if alert.toOccurrence ∈ current then .ok session
  else do
    let alert := alert.resolve evaluation.checkedAt
    let session ← session.save alert
    return session.appendAlertEvent alert "worker.readiness_resolved"

def resolveAlerts (current : List Occurrence) :
    List WorkerReadinessAlert → Session → Except ReadinessError Session
  | [], session => .ok session
  | alert :: alerts, session => do
    let session ← evaluation.resolveAlert current session alert
    resolveAlerts current alerts session

/-- `evaluate_project`; what it leaves is committed. -/
def run (projectOf : UUID → UUID) (tables : Tables) (alerts : List WorkerReadinessAlert) :
    Except ReadinessError (ProjectWorkerReadiness × Session) := do
  let report ← inspectProject projectOf tables alerts evaluation.projectId
    evaluation.staleAfterSeconds evaluation.checkedAt
  if evaluation.acquired then
    let current := report.issues.map fun issue => issue.toOccurrence
    let session ← evaluation.observeIssues report.issues { alerts := alerts }
    let activeAlerts := listAlerts session.alerts evaluation.projectId (some .active) 500
    let session ← evaluation.resolveAlerts current activeAlerts session
    let finalReport ← inspectProject projectOf evaluation.finalTables session.alerts
      evaluation.projectId evaluation.staleAfterSeconds evaluation.checkedAt
    return (finalReport, session)
  else return (report, { alerts := alerts })

end Evaluation

/-! ## 6. Histories -/

structure World where
  tables : Tables := {}
  alerts : List WorkerReadinessAlert := []
  events : List AlertEvent := []

/-- Workflow steps, heartbeats, stops and registrations of workers change the tables in any way;
leases and presences expire with the clock of the evaluations. -/
inductive Happening where
  | change (tables : Tables)
  | evaluate (evaluation : Evaluation)

def World.step (projectOf : UUID → UUID) (world : World) :
    Happening → Option (Except ReadinessError ProjectWorkerReadiness) × World
  | .change tables => (none, { world with tables })
  | .evaluate evaluation =>
    match evaluation.run projectOf world.tables world.alerts with
    | .error error => (some (.error error), world)
    | .ok (report, session) =>
      (some (.ok report),
        { tables := evaluation.finalTables
          alerts := session.alerts
          events := world.events ++ session.events })

def readiness (projectOf : UUID → UUID) :
    Machine World Happening (Option (Except ReadinessError ProjectWorkerReadiness)) where
  step := World.step projectOf

end JbOrchestrator.WorkerPresence
