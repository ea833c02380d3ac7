import JbOrchestrator.Application.Services
import JbOrchestrator.Workflows.Statuses

/-!
# Commits — what a committed transaction does

`Commits` lists what the transactions of the services do to the committed rows, each as one step, and
`Refuses` when they raise an `InvalidStateTransition`.  Two fields of `Isolation` say which anomalies
of READ COMMITTED are excluded.
-/

open Lib

namespace JbOrchestrator

open Domain Workflows Infrastructure

/-! ## 1. Consistent tables -/

namespace Infrastructure

/-- What holds of every stored execution, also after a stale node row was written. -/
structure Stored (execution : WorkflowExecution) : Prop where
  sound : execution.Sound
  keys : execution.nodes.keys.Nodup
  active : execution.ActiveLive
  started : execution.status ≠ .pending
  context : execution.snapshot.requestContext ≠ none

namespace Database

variable (db : Database)

/-- No execution belongs to the run. -/
def Unstarted (runId : UUID) : Prop :=
  ∀ id execution, db.executions.get? id = some execution → execution.snapshot.runId ≠ runId

/-- Identities, references and the statuses of the runs without an execution. -/
structure Consistent : Prop where
  runId : ∀ id run, db.runs.get? id = some run → run.id = id
  requestId : ∀ id request, db.requests.get? id = some request → request.id = id
  executionId : ∀ id execution, db.executions.get? id = some execution → execution.id = id
  runRequest : ∀ id run, db.runs.get? id = some run → (db.requests.get? run.requestId).isSome
  requestRun : ∀ id id' run run', db.runs.get? id = some run → db.runs.get? id' = some run' →
    run.requestId = run'.requestId → id = id'
  executionRun : ∀ id execution, db.executions.get? id = some execution →
    (db.runs.get? execution.snapshot.runId).isSome
  executionUnique : ∀ id id' execution execution', db.executions.get? id = some execution →
    db.executions.get? id' = some execution' →
    execution.snapshot.runId = execution'.snapshot.runId → id = id'
  stored : ∀ id execution, db.executions.get? id = some execution → Stored execution
  unstarted : ∀ id run, db.runs.get? id = some run → db.Unstarted id →
    run.status = .queued ∨ run.status = .cancelled

variable {db}

theorem executionOf_eq_none {runId : UUID} : db.executionOf runId = none ↔ db.Unstarted runId := by
  simp only [executionOf, List.find?_eq_none, List.mem_filterMap, decide_eq_true_eq, Unstarted]
  constructor
  · intro h id execution hexecution
    exact h execution ⟨id, (db.executions.mem_keys_iff id).mpr (by simp [hexecution]), hexecution⟩
  · rintro h execution ⟨id, -, hexecution⟩
    exact h id execution hexecution

theorem executionOf_eq_some {runId : UUID} {execution : WorkflowExecution}
    (h : db.executionOf runId = some execution) :
    execution.snapshot.runId = runId ∧ ∃ id, db.executions.get? id = some execution := by
  obtain ⟨id, -, hexecution⟩ := List.mem_filterMap.mp (List.mem_of_find?_eq_some h)
  exact ⟨by simpa using List.find?_some h, id, hexecution⟩

theorem Consistent.executionOf (hdb : db.Consistent) {runId : UUID} {execution : WorkflowExecution}
    (h : db.executionOf runId = some execution) :
    execution.snapshot.runId = runId ∧ db.executions.get? execution.id = some execution := by
  obtain ⟨hrun, id, hid⟩ := executionOf_eq_some h
  refine ⟨hrun, ?_⟩
  rw [hdb.executionId id execution hid]
  exact hid

end Database

end Infrastructure

namespace Application

open Infrastructure.Database

/-! ## 2. Commits -/

/-- The anomalies of READ COMMITTED that a group of results excludes: a candidate whose node row
changed between the snapshot of the query and the lock of its execution, and a `cancel_run` that has
found no execution and locks the run row after one was committed. -/
structure Isolation where
  freshNodes : Prop
  settledRuns : Prop

/-- The node of the operations that a transaction applies to its candidate. -/
def candidateKey : Operation → Option NodeKey
  | .claimTask key _ _ _ _ => some key
  | .expireTask key _ => some key
  | _ => none

/-- The execution that a transaction loads: the committed one, with the node row of its candidate as
the query found it. -/
inductive Loads (isolation : Isolation) (stored : WorkflowExecution) :
    Operation → WorkflowExecution → Prop where
  | locked (operation : Operation) : Loads isolation stored operation stored
  | candidate {operation : Operation} {row : NodeExecution}
    (hkey : candidateKey operation = some row.nodeKey) (hrunning : stored.status = .running)
    (hfresh : isolation.freshNodes → stored.nodes.get? row.nodeKey = some row) :
    Loads isolation stored operation { stored with
      nodes := Statement.overlay stored.nodes ⟨[(row.nodeKey, row)]⟩ }

/-- What `projectRun` makes of the run. -/
inductive RunFollows (execution : WorkflowExecution) (run : Run) :
    Option Run → List DomainEvent → Prop where
  | same (hsame : run.status = runStatusByWorkflow execution.status) :
    RunFollows execution run none []
  | changed {after : Run} (hne : run.status ≠ runStatusByWorkflow execution.status)
    (hafter : followExecution execution run = .ok after) :
    RunFollows execution run (some after)
      [.runStatusChanged run.id run.status after.status execution.id]

/-- What `projectRequest` makes of the request. -/
inductive RequestFollows (execution : WorkflowExecution) (run : Run) (request : UserRequest) :
    Option UserRequest → List DomainEvent → Prop where
  | completed {after : UserRequest} (hsucceeded : execution.status = .succeeded)
    (hactive : request.status = .active)
    (hafter : request.complete execution.updatedAt = .ok after) :
    RequestFollows execution run request (some after)
      [.requestCompleted request.id run.id execution.id]
  | cancelled {after : UserRequest} (hcancelled : execution.status = .cancelled)
    (hopen : request.status = .received ∨ request.status = .active)
    (hafter : request.cancel execution.updatedAt = .ok after) :
    RequestFollows execution run request (some after)
      [.requestCancelled request.id run.id execution.id]
  | same (hcompleted : ¬(execution.status = .succeeded ∧ request.status = .active))
    (hcancelled : ¬(execution.status = .cancelled ∧
      (request.status = .received ∨ request.status = .active))) :
    RequestFollows execution run request none []

/-- `synchronize_execution_lifecycle` on committed rows that the session has locked. -/
inductive Synchronized (held : Set RowLock) (db : Database) (execution : WorkflowExecution) :
    Option Run → Option UserRequest → List DomainEvent → Prop where
  | mk {run : Run} {request : UserRequest} {run' : Option Run} {request' : Option UserRequest}
    {runEvents requestEvents : List DomainEvent}
    (hrun : db.runs.get? execution.snapshot.runId = some run)
    (hheld : .run execution.snapshot.runId ∈ held)
    (hrequest : db.requests.get? run.requestId = some request)
    (hheld' : .request run.requestId ∈ held)
    (hfollows : RunFollows execution run run' runEvents)
    (hfollows' : RequestFollows execution run request request' requestEvents) :
    Synchronized held db execution run' request' (runEvents ++ requestEvents)

/-- The operation of a call on an execution: its identity, the operation, whether the lifecycle is
synchronized, the artifacts and the event. -/
inductive Performs (loaded after : WorkflowExecution) :
    Call → Result → Operation → Bool → List TaskArtifact → DomainEvent → Prop where
  | beginTask {key : NodeKey} {now : Instant} :
    Performs loaded after (.beginTask loaded.id key now) (.execution after) (.beginTask key now) false
      [] (.workflowNodeStarted after.id after.status key)
  | completeTask {key : NodeKey} {outcome outcome' : NodeOutcome}
    {output output' : Option JsonObject} {artifactId : UUID} {now : Instant} {node : NodeExecution}
    {artifact : TaskArtifact} {rejected : Bool} (hnode : loaded.nodes.get? key = some node)
    (hartifact : artifact.key = (loaded.id, key, node.visitCount)) :
    Performs loaded after (.completeTask loaded.id key outcome output artifactId now)
      (.execution after) (.completeTask key outcome' output' none now) true [artifact]
      (.workflowNodeCompleted after.id after.status key outcome' artifact.id rejected)
  | failTask {key : NodeKey} {reason : String} {now : Instant} :
    Performs loaded after (.failTask loaded.id key reason now) (.execution after)
      (.failTask key reason none now) true []
      (.workflowNodeFailed after.id after.status key reason)
  | resolveApproval {key : NodeKey} {approved : Bool} {now : Instant} :
    Performs loaded after (.resolveApproval loaded.id key approved now) (.execution after)
      (.resolveApproval key approved now) true []
      (.workflowApprovalResolved after.id after.status key approved)
  | cancel {now : Instant} :
    Performs loaded after (.cancel loaded.id now) (.execution after) (.cancel now) true []
      (.workflowCancelled after.id after.status none)
  | cancelRun {run : Run} {now : Instant} :
    Performs loaded after (.cancelRun loaded.snapshot.runId now) (.run run) (.cancel now) true []
      (.workflowCancelled after.id after.status (some "run"))
  | claimNext {workerId : String} {executorKeys : Option (List String)} {token : UUID}
    {now : Instant} {key : NodeKey} {leaseSeconds : ℕ} {node : NodeExecution} {claim : TaskClaim}
    (hnode : after.nodes.get? key = some node)
    (hattempt : claim.attempt = (loaded.id, key, node.visitCount, node.attemptCount))
    (htoken : claim.leaseToken = token) :
    Performs loaded after (.claimNext workerId executorKeys token now) (.claim (some claim))
      (.claimTask key workerId leaseSeconds token now) false []
      (.taskClaimed after.id after.status key workerId token node.attemptCount)
  | heartbeat {claim : TaskClaim} {now : Instant} {leaseSeconds : ℕ}
    (hid : loaded.id = claim.executionId) :
    Performs loaded after (.heartbeat claim now) (.execution after)
      (.renewLease claim.nodeKey claim.leaseToken leaseSeconds now) false []
      (.taskLeaseRenewed after.id after.status claim.nodeKey claim.workerId)
  | complete {claim : TaskClaim} {result : TaskResult} {artifactId : UUID} {now : Instant}
    {outcome : NodeOutcome} {output : Option JsonObject} {artifact : TaskArtifact} {rejected : Bool}
    (hid : loaded.id = claim.executionId)
    (hartifact : artifact.key = (claim.executionId, claim.nodeKey, claim.visitCount)) :
    Performs loaded after (.complete claim result artifactId now) (.execution after)
      (.completeTask claim.nodeKey outcome output (some claim.leaseToken) now) true [artifact]
      (.taskCompleted after.id after.status claim.nodeKey claim.workerId outcome artifact.id
        rejected)
  | fail {claim : TaskClaim} {reason : String} {now : Instant}
    (hid : loaded.id = claim.executionId) :
    Performs loaded after (.fail claim reason now) (.execution after)
      (.failTask claim.nodeKey reason (some claim.leaseToken) now) true []
      (.taskFailed after.id after.status claim.nodeKey claim.workerId reason)
  | recoverExpired {key : NodeKey} {now : Instant} {worker : Option String} :
    Performs loaded after (.recoverExpired now) (.recovered true) (.expireTask key now) true []
      (.taskLeaseExpired after.id after.status key worker)

def setRun (runs : Dict UUID Run) : Option Run → Dict UUID Run
  | none => runs
  | some run => runs.set run.id run

def setRequest (requests : Dict UUID UserRequest) : Option UserRequest → Dict UUID UserRequest
  | none => requests
  | some request => requests.set request.id request

/-- The rows that a commit changes. -/
structure Updates (db db' : Database) (executions : Dict UUID WorkflowExecution)
    (run : Option Run) (request : Option UserRequest) (artifacts : List TaskArtifact)
    (events : List DomainEvent) : Prop where
  executions : db'.executions = executions
  runs : db'.runs = setRun db.runs run
  requests : db'.requests = setRequest db.requests request
  artifacts : db'.artifacts = db.artifacts ++ artifacts
  events : db'.events = db.events ++ events

def DomainEvent.isBudget : DomainEvent → Bool
  | .budgetReleased _ _ _ => true
  | _ => false

/-- The transactions that commit, by what they change. -/
inductive Commits (isolation : Isolation) (held : Set RowLock) (db db' : Database) :
    Call → Result → Prop where
  | idle {call : Call} {result : Result} (hresult : result = .claim none ∨ result = .recovered false)
    (hupdates : Updates db db' db.executions none none [] []) :
    Commits isolation held db db' call result
  | requested {projectId project : UUID} {prompt : String} {title : Option String} {now : Instant}
    {request : UserRequest} {run : Run} (hrequest : db.requests.get? request.id = none)
    (hrun : db.runs.get? run.id = none) (hreference : run.requestId = request.id)
    (hactive : request.status = .active) (hqueued : run.status = .queued)
    (hupdates : Updates db db' db.executions (some run) (some request) []
      [.requestCreated request.id project run.id]) :
    Commits isolation held db db' (.createRequest projectId prompt title request.id run.id now)
      (.created ⟨request, run⟩)
  | started {key : String} {version : Option ℕ} {nodeId : NodeKey → UUID} {now : Instant}
    {definition : AcceptedDefinition} {created after : WorkflowExecution} {calls : List ActivateCall}
    {selections : List NodeModelSelection} {run : Option Run} {request : Option UserRequest}
    {events : List DomainEvent} (hcreates : definition.Creates created)
    (hcontext : created.snapshot.requestContext ≠ none)
    (hstep : engine.step created (.start now) = (⟨.ok (), calls⟩, after))
    (hnew : db.executions.get? created.id = none)
    (hunstarted : db.Unstarted created.snapshot.runId)
    (hsync : Synchronized held db after run request events)
    (hupdates : Updates db db' (db.executions.set created.id after) run request []
      (.workflowStarted after.id after.status "explicit" selections :: events)) :
    Commits isolation held db db' (.start created.snapshot.runId key version created.id nodeId now)
      (.execution after)
  | cancelled {now : Instant} {runId : UUID} {run run' : Run} {request request' : UserRequest}
    {budget : List DomainEvent} (hrun : db.runs.get? runId = some run)
    (hheld : .run runId ∈ held) (hrequest : db.requests.get? run.requestId = some request)
    (hheld' : .request run.requestId ∈ held)
    (hsettled : isolation.settledRuns → db.Unstarted runId)
    (hrun' : run.transitionTo .cancelled now = .ok run')
    (hrequest' : request.cancel now = .ok request')
    (hbudget : ∀ event ∈ budget, event.isBudget = true)
    (hupdates : Updates db db' db.executions (some run') (some request') []
      (budget ++ [.runCancelled runId run.requestId])) :
    Commits isolation held db db' (.cancelRun runId now) (.run run')
  | operated {call : Call} {result : Result} {operation : Operation} {synchronizes : Bool}
    {artifacts : List TaskArtifact} {event : DomainEvent} {stored loaded after : WorkflowExecution}
    {calls : List ActivateCall} {run : Option Run} {request : Option UserRequest}
    {budget events : List DomainEvent} (hstored : db.executions.get? stored.id = some stored)
    (hheld : .execution stored.id ∈ held) (hloads : Loads isolation stored operation loaded)
    (hstep : engine.step loaded operation = (⟨.ok (), calls⟩, after))
    (hperforms : Performs loaded after call result operation synchronizes artifacts event)
    (hsync : synchronizes = true ∧ Synchronized held db after run request events ∨
      synchronizes = false ∧ run = none ∧ request = none ∧ events = [])
    (hbudget : ∀ event ∈ budget, event.isBudget = true)
    (hunique : ∀ artifact ∈ artifacts, ∀ other ∈ db.artifacts, other.key ≠ artifact.key)
    (hupdates : Updates db db' (db.executions.set stored.id (mergeExecution stored loaded after))
      run request artifacts (budget ++ event :: events)) :
    Commits isolation held db db' call result

/-- The calls that can raise an `InvalidStateTransition`, and on which rows. -/
inductive Refuses (isolation : Isolation) (db : Database) : Call → Prop where
  | approveRun (runId : UUID) (now : Instant) : Refuses isolation db (.approveRun runId now)
  | start {runId : UUID} {key : String} {version : Option ℕ} {id : UUID} {nodeId : NodeKey → UUID}
    {now : Instant} {run : Run} (hrun : db.runs.get? runId = some run)
    (hterminal : run.status.isTerminal = true) (hunstarted : db.Unstarted runId) :
    Refuses isolation db (.start runId key version id nodeId now)
  | cancelRun {runId : UUID} {now : Instant}
    (hsettled : isolation.settledRuns → db.Unstarted runId) :
    Refuses isolation db (.cancelRun runId now)
  | operation {call : Call} {operation : Operation} {stored loaded after : WorkflowExecution}
    {calls : List ActivateCall} {run : Run} (hstored : db.executions.get? stored.id = some stored)
    (hloads : Loads isolation stored operation loaded)
    (hstep : engine.step loaded operation = (⟨.ok (), calls⟩, after))
    (hrun : db.runs.get? stored.snapshot.runId = some run)
    (hne : run.status ≠ runStatusByWorkflow after.status)
    (hnot : runStatusByWorkflow after.status ∉ allowedRunTransitions run.status) :
    Refuses isolation db call

end Application

end JbOrchestrator
