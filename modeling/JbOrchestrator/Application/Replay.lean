import JbOrchestrator.Application.Fencing

/-!
# Replay — the ledger of events determines the statuses

A reader of the ledger that knows nothing but the events keeps the status of every request, run and
workflow execution, and the artifact of every completion.  `replay_replicates` says that it agrees
with the rows after every run of the sessions.
-/

open Lib

namespace JbOrchestrator.Application

open Domain Workflows Infrastructure Infrastructure.Database

/-! ## 1. Reading events -/

/-- What a reader of the ledger keeps. -/
structure Replica where
  requests : Dict UUID RequestStatus := .empty
  runs : Dict UUID RunStatus := .empty
  executions : Dict UUID WorkflowStatus := .empty
  completions : List (UUID × NodeKey × UUID) := []

namespace Replica

variable (replica : Replica)

def setExecution (id : UUID) (status : WorkflowStatus) : Replica :=
  { replica with executions := replica.executions.set id status }

def complete (executionId : UUID) (nodeKey : NodeKey) (artifactId : UUID) : Replica :=
  { replica with completions := replica.completions ++ [(executionId, nodeKey, artifactId)] }

def read : DomainEvent → Replica
  | .requestCreated request _ run => { replica with
      requests := replica.requests.set request .active
      runs := replica.runs.set run .queued }
  | .requestCompleted request _ _ => { replica with
      requests := replica.requests.set request .completed }
  | .requestCancelled request _ _ => { replica with
      requests := replica.requests.set request .cancelled }
  | .runStatusChanged run _ status _ => { replica with runs := replica.runs.set run status }
  | .runApproved run status => { replica with runs := replica.runs.set run status }
  | .runCancelled run request => { replica with
      requests := replica.requests.set request .cancelled
      runs := replica.runs.set run .cancelled }
  | .workflowStarted execution status _ _ => replica.setExecution execution status
  | .workflowNodeStarted execution status _ => replica.setExecution execution status
  | .workflowNodeCompleted execution status node _ artifact _ =>
    (replica.setExecution execution status).complete execution node artifact
  | .workflowNodeFailed execution status _ _ => replica.setExecution execution status
  | .workflowApprovalResolved execution status _ _ => replica.setExecution execution status
  | .workflowCancelled execution status _ => replica.setExecution execution status
  | .taskClaimed execution status _ _ _ _ => replica.setExecution execution status
  | .taskLeaseRenewed execution status _ _ => replica.setExecution execution status
  | .taskCompleted execution status node _ _ artifact _ =>
    (replica.setExecution execution status).complete execution node artifact
  | .taskFailed execution status _ _ _ => replica.setExecution execution status
  | .taskLeaseExpired execution status _ _ => replica.setExecution execution status
  | .budgetReleased _ _ _ => replica

end Replica

def replayFrom (replica : Replica) (events : List DomainEvent) : Replica :=
  events.foldl Replica.read replica

def replay (events : List DomainEvent) : Replica := replayFrom {} events

theorem replayFrom_append (replica : Replica) (events events' : List DomainEvent) :
    replayFrom replica (events ++ events') = replayFrom (replayFrom replica events) events' :=
  List.foldl_append

theorem replayFrom_budget {events : List DomainEvent} (h : ∀ event ∈ events, event.isBudget = true)
    (replica : Replica) : replayFrom replica events = replica := by
  induction events with
  | nil => rfl
  | cons event events ih =>
    rw [List.forall_mem_cons] at h
    cases event with
    | budgetReleased => exact ih h.2
    | _ => cases h.1

/-! ## 2. Replicas of the rows -/

def TaskArtifact.completion (artifact : TaskArtifact) : UUID × NodeKey × UUID :=
  (artifact.executionId, artifact.producerNodeKey, artifact.id)

/-- The replica agrees with the rows. -/
structure Replicates (replica : Replica) (requests : Dict UUID UserRequest) (runs : Dict UUID Run)
    (executions : Dict UUID WorkflowExecution) (artifacts : List TaskArtifact) : Prop where
  requests : ∀ id, replica.requests.get? id = (requests.get? id).map UserRequest.status
  runs : ∀ id, replica.runs.get? id = (runs.get? id).map Run.status
  executions : ∀ id, replica.executions.get? id = (executions.get? id).map WorkflowExecution.status
  completions : replica.completions = artifacts.map TaskArtifact.completion

theorem get?_set_map {α β : Type} {replica : Dict UUID β} {rows : Dict UUID α} {status : α → β}
    (h : ∀ id, replica.get? id = (rows.get? id).map status) (key : UUID) (row : α) (id : UUID) :
    (replica.set key (status row)).get? id = ((rows.set key row).get? id).map status := by
  rw [Dict.get?_set, Dict.get?_set]
  split
  · rfl
  · exact h id

section

variable {replica : Replica} {requests : Dict UUID UserRequest} {runs : Dict UUID Run}
  {executions : Dict UUID WorkflowExecution} {artifacts : List TaskArtifact}
  (h : Replicates replica requests runs executions artifacts)
include h

theorem Replicates.setRequest (request : UserRequest) :
    Replicates { replica with requests := replica.requests.set request.id request.status }
      (requests.set request.id request) runs executions artifacts :=
  { h with requests := get?_set_map h.requests request.id request }

theorem Replicates.setRun (run : Run) :
    Replicates { replica with runs := replica.runs.set run.id run.status } requests
      (runs.set run.id run) executions artifacts :=
  { h with runs := get?_set_map h.runs run.id run }

theorem Replicates.setExecution (id : UUID) (execution : WorkflowExecution) :
    Replicates (replica.setExecution id execution.status) requests runs
      (executions.set id execution) artifacts :=
  { h with executions := get?_set_map h.executions id execution }

theorem Replicates.complete (artifact : TaskArtifact) :
    Replicates (replica.complete artifact.executionId artifact.producerNodeKey artifact.id) requests
      runs executions (artifacts ++ [artifact]) := by
  refine { h with completions := ?_ }
  show replica.completions ++ [artifact.completion] = _
  rw [h.completions, List.map_append]
  rfl

/-! ## 3. What a commit appends -/

/-- The events of a synchronization. -/
theorem Replicates.synchronized {held : Set RowLock} {db : Database} {execution : WorkflowExecution}
    {run : Option Run} {request : Option UserRequest} {events : List DomainEvent}
    (hsync : Synchronized held db execution run request events) :
    Replicates (replayFrom replica events) (Application.setRequest requests request)
      (Application.setRun runs run) executions artifacts := by
  cases hsync with
  | @mk before owner _ _ runEvents requestEvents _ _ _ _ hfollows hfollows' =>
    have hrun : Replicates (replayFrom replica runEvents) requests (Application.setRun runs run)
        executions artifacts := by
      cases hfollows with
      | same => exact h
      | @changed after _ hafter =>
        have hchanged := h.setRun after
        obtain ⟨-, hid, -⟩ := followExecution_ok hafter
        rw [hid] at hchanged
        show Replicates _ _ (runs.set after.id after) _ _
        rw [hid]
        exact hchanged
    rw [replayFrom_append]
    have hset : ∀ {changed : UserRequest} {status : RequestStatus} {changedAt : Instant},
        owner.setStatus status changedAt = .ok changed →
        Replicates { replayFrom replica runEvents with
          requests := (replayFrom replica runEvents).requests.set owner.id status }
          (requests.set changed.id changed) (Application.setRun runs run) executions artifacts := by
      intro changed status changedAt hchanged
      obtain ⟨-, rfl, hid⟩ := UserRequest.setStatus_ok hchanged
      have hnext := hrun.setRequest changed
      rw [hid] at hnext ⊢
      exact hnext
    cases hfollows' with
    | completed _ _ hafter => exact hset hafter
    | cancelled _ _ hafter => exact hset hafter
    | same => exact hrun

/-- The event of an operation on an execution. -/
theorem Replicates.performed {loaded after : WorkflowExecution} {call : Call} {result : Result}
    {operation : Operation} {synchronizes : Bool} {added : List TaskArtifact} {event : DomainEvent}
    (hperforms : Performs loaded after call result operation synchronizes added event)
    (hid : after.id = loaded.id) {execution : WorkflowExecution}
    (hstatus : execution.status = after.status) :
    Replicates (replica.read event) requests runs (executions.set loaded.id execution)
      (artifacts ++ added) := by
  have hset := h.setExecution loaded.id execution
  rw [hstatus, ← hid] at hset
  have hkey : ∀ {artifact : TaskArtifact} {key : NodeKey} {visitCount : ℕ},
      artifact.key = (loaded.id, key, visitCount) →
      Replicates ((replica.setExecution after.id after.status).complete after.id key artifact.id)
        requests runs (executions.set loaded.id execution) (artifacts ++ [artifact]) := by
    intro artifact key visitCount hkey
    obtain ⟨hexecution, hrest⟩ := Prod.mk.inj hkey
    obtain ⟨hnode, -⟩ := Prod.mk.inj hrest
    have hdone := hset.complete artifact
    rw [hexecution, hnode, ← hid] at hdone
    rw [← hid]
    exact hdone
  rw [← hid] at hkey ⊢
  cases hperforms with
  | completeTask _ hartifact => exact hkey (hid ▸ hartifact)
  | complete hclaim hartifact => exact hkey (by rw [hid, hclaim]; exact hartifact)
  | _ =>
    rw [List.append_nil]
    exact hset

end

/-- A commit that finds a replica of the rows leaves one. -/
theorem Commits.replicates {isolation : Isolation} {held : Set RowLock} {db db' : Database} {call : Call}
    {result : Result} (h : Commits isolation held db db' call result) (hdb : db.Consistent)
    (hreplica : Replicates (replay db.events) db.requests db.runs db.executions db.artifacts) :
    Replicates (replay db'.events) db'.requests db'.runs db'.executions db'.artifacts := by
  have happend : ∀ events, replay (db.events ++ events) = replayFrom (replay db.events) events :=
    replayFrom_append {} db.events
  cases h with
  | idle _ hupdates =>
    rw [hupdates.events, hupdates.requests, hupdates.runs, hupdates.executions, hupdates.artifacts,
      happend, List.append_nil]
    exact hreplica
  | @requested projectId project _ _ _ request run _ _ _ hactive hqueued hupdates =>
    rw [hupdates.events, hupdates.requests, hupdates.runs, hupdates.executions, hupdates.artifacts,
      happend, List.append_nil]
    have hboth := (hreplica.setRequest request).setRun run
    rw [hactive, hqueued] at hboth
    exact hboth
  | @started _ _ _ _ _ created after _ _ _ _ _ hcreates hcontext hstep _ _ hsync hupdates =>
    obtain ⟨-, -, hid, -⟩ := Stored.of_start hcreates hcontext hstep
    rw [hupdates.events, hupdates.requests, hupdates.runs, hupdates.executions, hupdates.artifacts,
      happend, List.append_nil]
    have hstarted := (hreplica.setExecution created.id after).synchronized hsync
    rw [← hid] at hstarted ⊢
    exact hstarted
  | @cancelled _ runId run run' request request' budget hrun _ hrequest _ _ hrun' hrequest' hbudget
      hupdates =>
    rw [hupdates.events, hupdates.requests, hupdates.runs, hupdates.executions, hupdates.artifacts,
      happend, List.append_nil, replayFrom_append, replayFrom_budget hbudget]
    obtain ⟨-, hstatus, hid, -⟩ := Run.transitionTo_ok hrun'
    obtain ⟨-, hstatus', hid'⟩ := UserRequest.setStatus_ok hrequest'
    have hboth := (hreplica.setRequest request').setRun run'
    rw [hstatus, hstatus', hid, hid', hdb.runId _ _ hrun, hdb.requestId _ _ hrequest] at hboth
    show Replicates _ (db.requests.set request'.id request') (db.runs.set run'.id run') _ _
    rw [hid, hid', hdb.runId _ _ hrun, hdb.requestId _ _ hrequest]
    exact hboth
  | @operated _ _ operation _ added event stored loaded after _ run request budget events hstored _
      hloads hstep hperforms hsync hbudget _ hupdates =>
    have hrow := hdb.stored _ _ hstored
    have hloaded := hloads.isStored hrow
    have hshape := (effect_of_step hloaded.sound hloaded.active hstep).sameShape
    have hid := (hloads.sameShape hrow.sound).id
    have hstatus : (mergeExecution stored loaded after).status = after.status := rfl
    have hdone := hreplica.performed hperforms hshape.id hstatus
    rw [hupdates.events, hupdates.requests, hupdates.runs, hupdates.executions, hupdates.artifacts,
      happend, replayFrom_append, replayFrom_budget hbudget, ← hid]
    rcases hsync with ⟨-, hsync⟩ | ⟨-, rfl, rfl, rfl⟩
    · exact hdone.synchronized hsync
    · exact hdone

/-! ## 4. Runs -/

/-- Whatever the sessions interleave, the events alone give the status of every request, run and
execution, and the artifacts in the order in which they were completed. -/
theorem replay_replicates (settings : Settings) {world : World} (hblank : Blank world.database)
    (hartifacts : world.database.artifacts = []) (inputs : List (Store.Input Call)) :
    Replicates
      (replay ((services settings).machine.run ((services settings).initial world)
        inputs).shared.database.events)
      ((services settings).machine.run ((services settings).initial world)
        inputs).shared.database.requests
      ((services settings).machine.run ((services settings).initial world)
        inputs).shared.database.runs
      ((services settings).machine.run ((services settings).initial world)
        inputs).shared.database.executions
      ((services settings).machine.run ((services settings).initial world)
        inputs).shared.database.artifacts := by
  have htrace := (@interleaved_spec settings ⟨False, False⟩ world hblank.aligned.consistent inputs
    (fun h => h.elim) fun h => h.elim).2
  refine ((services settings).machine.trace_keeps
    (Q := fun config => Replicates (replay config.shared.database.events)
      config.shared.database.requests config.shared.database.runs config.shared.database.executions
      config.shared.database.artifacts) ?_ ?_).1
  · rw [show ((services settings).initial world).shared = world from rfl, hblank.events,
      hblank.requests, hblank.runs, hblank.executions, hartifacts]
    exact ⟨fun _ => rfl, fun _ => rfl, fun _ => rfl, rfl⟩
  · intro t ht hbefore
    obtain ⟨hconsistent, hstep⟩ := htrace t ht
    unfold SessionStep Store.Respects at hstep
    split at hstep
    · obtain ⟨held, hcommits⟩ := hstep
      exact hcommits.2.replicates hconsistent hbefore
    · rw [hstep.2]
      exact hbefore
    · rw [hstep]
      exact hbefore

/-- The task is requested, started, begun and completed in one session after the other. -/
def taskInputs : List (Store.Input Call) :=
  taskCalls.zipIdx.flatMap fun (call, i) => .«open» i call :: List.replicate 14 (.advance i)

/-- The replica knows that the task has succeeded. -/
theorem replay_replicates_task :
    (replay ((services lenient).machine.run ((services lenient).initial oneProject)
      taskInputs).shared.database.events).executions.get? 30 = some .succeeded ∧
    (((services lenient).machine.run ((services lenient).initial oneProject)
      taskInputs).shared.database.executions.get? 30).map WorkflowExecution.status =
        some .succeeded := by
  have hreplicates := replay_replicates lenient blank_oneProject rfl taskInputs
  have hread : (replay ((services lenient).machine.run ((services lenient).initial oneProject)
      taskInputs).shared.database.events).executions.get? 30 = some .succeeded := by decide +kernel
  exact ⟨hread, (hreplicates.executions 30).symm.trans hread⟩

end JbOrchestrator.Application
