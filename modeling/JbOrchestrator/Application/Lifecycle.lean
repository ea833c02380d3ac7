import JbOrchestrator.Application.Disciplines
import JbOrchestrator.Workflows.Bounds

/-!
# Lifecycle — runs and requests follow their executions

After every commit the status of a run is the projection of the status of its execution, and the
status of its request follows.  Serial calls keep this; interleaved sessions keep it as long as a
`cancel_run` that has found no execution locks a run that still has none.
-/

open Lib

namespace JbOrchestrator.Application

open Domain Workflows Infrastructure Infrastructure.Database

/-! ## 1. Agreement -/

/-- The status of the request of an execution. -/
def requestStatusByWorkflow : WorkflowStatus → RequestStatus
  | .succeeded => .completed
  | .cancelled => .cancelled
  | _ => .active

/-- The run and the request of an execution have the statuses that its status asks for. -/
structure Projects (db : Database) (execution : WorkflowExecution) : Prop where
  run : ∀ run, db.runs.get? execution.snapshot.runId = some run →
    run.status = runStatusByWorkflow execution.status
  request : ∀ run request, db.runs.get? execution.snapshot.runId = some run →
    db.requests.get? run.requestId = some request →
    request.status = requestStatusByWorkflow execution.status

/-- Runs and requests agree with the executions; without an execution they are open or cancelled
together. -/
structure Agreed (db : Database) : Prop where
  projects : ∀ id execution, db.executions.get? id = some execution → Projects db execution
  unstarted : ∀ id run request, db.runs.get? id = some run →
    db.requests.get? run.requestId = some request → db.Unstarted id →
    run.status = .queued ∧ request.status = .active ∨
      run.status = .cancelled ∧ request.status = .cancelled

section

variable {isolation : Isolation} {held : Set RowLock} {db db' : Database}

/-- The run and the request rows after a commit that synchronizes an execution. -/
structure Rows (db db' : Database) (runId requestId : UUID) (run : Run) (request : UserRequest) :
    Prop where
  runs : ∀ id, db'.runs.get? id = if id = runId then some run else db.runs.get? id
  requests : ∀ id, db'.requests.get? id =
    if id = requestId then some request else db.requests.get? id

/-- A commit that changes one run and its request only. -/
theorem Agreed.of_rows (hdb : db.Consistent) (hagreed : Agreed db)
    {runId : UUID} {run run' : Run} (request' : UserRequest)
    (hrun : db.runs.get? runId = some run) (hrequestId : run'.requestId = run.requestId)
    (hrows : Rows db db' runId run.requestId run' request')
    (hkept : ∀ id execution, db'.executions.get? id = some execution →
      execution.snapshot.runId ≠ runId → db.executions.get? id = some execution)
    (hunstarted : ∀ id, db'.Unstarted id → db.Unstarted id)
    (hprojects : ∀ id execution, db'.executions.get? id = some execution →
      execution.snapshot.runId = runId → run'.status = runStatusByWorkflow execution.status ∧
        request'.status = requestStatusByWorkflow execution.status)
    (hnone : db'.Unstarted runId → run'.status = .queued ∧ request'.status = .active ∨
      run'.status = .cancelled ∧ request'.status = .cancelled) : Agreed db' := by
  have hother : ∀ {id run₀}, db.runs.get? id = some run₀ → id ≠ runId →
      run₀.requestId ≠ run.requestId := fun hrow hne heq =>
    hne (hdb.requestRun _ _ _ _ hrow hrun heq)
  refine ⟨fun id execution hrow => ?_, fun id run₀ request₀ hrun₀ hrequest₀ hunstarted₀ => ?_⟩
  · by_cases hid : execution.snapshot.runId = runId
    · obtain ⟨hstatus, hstatus'⟩ := hprojects id execution hrow hid
      refine ⟨fun run₀ hrun₀ => ?_, fun run₀ request₀ hrun₀ hrequest₀ => ?_⟩
      · rw [hid, hrows.runs, if_pos rfl] at hrun₀
        rw [← Option.some.inj hrun₀]
        exact hstatus
      · rw [hid, hrows.runs, if_pos rfl] at hrun₀
        rw [← Option.some.inj hrun₀, hrequestId, hrows.requests, if_pos rfl] at hrequest₀
        rw [← Option.some.inj hrequest₀]
        exact hstatus'
    · have hbefore := hagreed.projects id execution (hkept id execution hrow hid)
      refine ⟨fun run₀ hrun₀ => ?_, fun run₀ request₀ hrun₀ hrequest₀ => ?_⟩
      · rw [hrows.runs, if_neg hid] at hrun₀
        exact hbefore.run run₀ hrun₀
      · rw [hrows.runs, if_neg hid] at hrun₀
        rw [hrows.requests, if_neg (hother hrun₀ hid)] at hrequest₀
        exact hbefore.request run₀ request₀ hrun₀ hrequest₀
  · by_cases hid : id = runId
    · subst hid
      rw [hrows.runs, if_pos rfl] at hrun₀
      obtain rfl := Option.some.inj hrun₀
      rw [hrequestId, hrows.requests, if_pos rfl] at hrequest₀
      obtain rfl := Option.some.inj hrequest₀
      exact hnone hunstarted₀
    · rw [hrows.runs, if_neg hid] at hrun₀
      rw [hrows.requests, if_neg (hother hrun₀ hid)] at hrequest₀
      exact hagreed.unstarted id run₀ request₀ hrun₀ hrequest₀ (hunstarted id hunstarted₀)

/-- What a synchronization makes of an open request and its run. -/
theorem Synchronized.rows {execution : WorkflowExecution} {run : Option Run}
    {request : Option UserRequest} {events : List DomainEvent}
    {executions : Dict UUID WorkflowExecution} {artifacts : List TaskArtifact}
    {allEvents : List DomainEvent} (hdb : db.Consistent)
    (h : Synchronized held db execution run request events)
    (hupdates : Updates db db' executions run request artifacts allEvents)
    (hactive : ∀ run request, db.runs.get? execution.snapshot.runId = some run →
      db.requests.get? run.requestId = some request → request.status = .active) :
    ∃ before after request', db.runs.get? execution.snapshot.runId = some before ∧
      after.requestId = before.requestId ∧
      Rows db db' execution.snapshot.runId before.requestId after request' ∧
      after.status = runStatusByWorkflow execution.status ∧
      request'.status = requestStatusByWorkflow execution.status := by
  cases h with
  | @mk before request₀ _ _ _ _ hrun _ hrequest _ hfollows hfollows' =>
    have hid := hdb.runId _ _ hrun
    have hid' := hdb.requestId _ _ hrequest
    have hopen := hactive _ _ hrun hrequest
    refine ⟨before, run.getD before, request.getD request₀, hrun, ?_, ⟨fun id => ?_, fun id => ?_⟩,
      ?_, ?_⟩
    · cases hfollows with
      | same => rfl
      | changed hne hafter => exact (followExecution_ok hafter).2.2.1
    · rw [hupdates.runs]
      cases hfollows with
      | same =>
        show db.runs.get? id = _
        split
        · rename_i h
          rw [h, hrun]
          rfl
        · rfl
      | @changed after _ hafter =>
        show (db.runs.set after.id after).get? id = _
        rw [Dict.get?_set, (followExecution_ok hafter).2.1, hid]
        rfl
    · rw [hupdates.requests]
      cases hrequest' : request with
      | none =>
        show db.requests.get? id = _
        split
        · rename_i h
          rw [h, hrequest]
          rfl
        · rfl
      | some changed =>
        show (db.requests.set changed.id changed).get? id = _
        rw [Dict.get?_set, hfollows'.id_eq hrequest', hid']
        rfl
    · cases hfollows with
      | same hsame => exact hsame
      | changed _ hafter => exact (followExecution_ok hafter).1
    · cases hfollows' with
      | completed hsucceeded _ hafter =>
        rw [hsucceeded]
        exact (UserRequest.setStatus_ok hafter).2.1
      | cancelled hcancelled _ hafter =>
        rw [hcancelled]
        exact (UserRequest.setStatus_ok hafter).2.1
      | same hcompleted hcancelled =>
        show request₀.status = _
        rw [hopen] at hcompleted hcancelled ⊢
        cases hstatus : execution.status <;> simp_all [requestStatusByWorkflow]

theorem Loads.status {operation : Operation} {stored loaded : WorkflowExecution}
    (h : Loads isolation stored operation loaded) : loaded.status = stored.status := by
  cases h <;> rfl

/-- Beginning, claiming and renewing a task leave the status of the execution. -/
theorem Performs.status {loaded after : WorkflowExecution} {call : Call} {result : Result}
    {operation : Operation} {artifacts : List TaskArtifact} {event : DomainEvent}
    {calls : List ActivateCall} (h : Performs loaded after call result operation false artifacts event)
    (heffect : Effect loaded operation calls after) : after.status = loaded.status := by
  cases h <;> cases heffect <;> rfl

theorem requestStatus_of_live {status : WorkflowStatus} (h : status.isTerminal = false) :
    requestStatusByWorkflow status = .active := by
  cases status <;> first | rfl | cases h

variable (hdb : db.Consistent) (hagreed : Agreed db)
include hagreed

/-- An execution that is not terminal has an open request. -/
theorem Agreed.request_active {execution : WorkflowExecution} {id : UUID}
    (hrow : db.executions.get? id = some execution) (hlive : execution.status.isTerminal = false) :
    ∀ run request, db.runs.get? execution.snapshot.runId = some run →
      db.requests.get? run.requestId = some request → request.status = .active := by
  intro run request hrun hrequest
  rw [(hagreed.projects id execution hrow).request run request hrun hrequest]
  exact requestStatus_of_live hlive

include hdb

/-- A commit on an execution, with the run and the request that follow its status. -/
theorem Agreed.of_operation (execution : WorkflowExecution) {run run' : Run} (request' : UserRequest)
    (hexecutions : db'.executions = db.executions.set execution.id execution)
    (hkept : ∀ id, db'.Unstarted id → db.Unstarted id)
    (hunique : ∀ id other, db.executions.get? id = some other →
      other.snapshot.runId = execution.snapshot.runId → id = execution.id)
    (hrun : db.runs.get? execution.snapshot.runId = some run)
    (hrequestId : run'.requestId = run.requestId)
    (hrows : Rows db db' execution.snapshot.runId run.requestId run' request')
    (hstatus : run'.status = runStatusByWorkflow execution.status)
    (hstatus' : request'.status = requestStatusByWorkflow execution.status) : Agreed db' := by
  have hself : db'.executions.get? execution.id = some execution := by
    rw [hexecutions, Dict.get?_set_self]
  refine hagreed.of_rows hdb request' hrun hrequestId hrows ?_ hkept ?_ ?_
  · intro id other hother hne
    rw [hexecutions, Dict.get?_set] at hother
    split at hother
    · obtain rfl := Option.some.inj hother
      exact absurd rfl hne
    · exact hother
  · intro id other hother heq
    have hid : id = execution.id := by
      by_contra hne
      rw [hexecutions, Dict.get?_set_of_ne _ _ hne] at hother
      exact hne (hunique id other hother heq)
    rw [hid, hself] at hother
    obtain rfl := Option.some.inj hother
    exact ⟨hstatus, hstatus'⟩
  · intro hnone
    exact absurd hnone (Database.not_unstarted hself)

/-- A commit keeps runs and requests in agreement with the executions. -/
theorem Commits.agreed {call : Call} {result : Result}
    (h : Commits isolation held db db' call result) (hsettled : isolation.settledRuns) :
    Agreed db' := by
  have hkept : ∀ id, db'.Unstarted id → db.Unstarted id :=
    ((h.spec hdb).2 ∅ (Set.disjoint_empty held)).unstarted
  cases h with
  | idle _ hupdates =>
    have hruns : db'.runs = db.runs := hupdates.runs
    have hrequests : db'.requests = db.requests := hupdates.requests
    refine ⟨fun id execution hrow => ?_, fun id run request hrun hrequest hnone => ?_⟩
    · obtain ⟨hrun, hrequest⟩ := hagreed.projects id execution (hupdates.executions ▸ hrow)
      exact ⟨hruns ▸ hrun, hruns ▸ hrequests ▸ hrequest⟩
    · exact hagreed.unstarted id run request (hruns ▸ hrun) (hrequests ▸ hrequest) (hkept id hnone)
  | @requested _ _ _ _ _ request run hrequest hrun hreference hactive hqueued hupdates =>
    refine ⟨fun id execution hrow => ?_, fun id run₀ request₀ hrun₀ hrequest₀ hnone => ?_⟩
    · rw [hupdates.executions] at hrow
      have hbefore := hagreed.projects id execution hrow
      have hne : execution.snapshot.runId ≠ run.id := by
        intro heq
        have hsome := hdb.executionRun id execution hrow
        rw [heq, hrun] at hsome
        cases hsome
      refine ⟨fun run₀ hrun₀ => ?_, fun run₀ request₀ hrun₀ hrequest₀ => ?_⟩
      · rw [hupdates.get?_run, if_neg hne] at hrun₀
        exact hbefore.run run₀ hrun₀
      · rw [hupdates.get?_run, if_neg hne] at hrun₀
        rw [hupdates.get?_request, if_neg (requestId_ne_of_new hdb hrequest hrun₀)] at hrequest₀
        exact hbefore.request run₀ request₀ hrun₀ hrequest₀
    · rw [hupdates.get?_run] at hrun₀
      split at hrun₀
      · obtain rfl := Option.some.inj hrun₀
        rw [hupdates.get?_request, if_pos hreference] at hrequest₀
        obtain rfl := Option.some.inj hrequest₀
        exact .inl ⟨hqueued, hactive⟩
      · rw [hupdates.get?_request, if_neg (requestId_ne_of_new hdb hrequest hrun₀)] at hrequest₀
        exact hagreed.unstarted id run₀ request₀ hrun₀ hrequest₀ (hkept id hnone)
  | @started _ _ _ _ _ created after _ _ _ _ _ hcreates hcontext hstep hnew hunstarted hsync
      hupdates =>
    obtain ⟨-, hsnapshot, hid, hmoving⟩ := Stored.of_start hcreates hcontext hstep
    rw [← hid] at hupdates
    rw [← hsnapshot] at hunstarted
    obtain ⟨⟨queued, hqueued, hstatus⟩, -⟩ := hsync.of_start hdb hmoving hunstarted
    obtain ⟨before, after', request', hrun, hrequestId, hrows, hrunStatus, hrequestStatus⟩ :=
      hsync.rows hdb hupdates (fun run request hrun hrequest => by
        obtain rfl := Option.some.inj (hrun.symm.trans hqueued)
        rcases hagreed.unstarted _ _ _ hrun hrequest hunstarted with h | h
        · exact h.2
        · rw [hstatus] at h
          cases h.1)
    refine hagreed.of_operation hdb after request' hupdates.executions hkept ?_ hrun hrequestId hrows
      hrunStatus hrequestStatus
    exact fun id other hother heq => absurd heq (hunstarted id other hother)
  | @cancelled now runId run run' request request' _ hrun _ hrequest _ hnone hrun' hrequest' _
      hupdates =>
    obtain ⟨-, hstatus, hid, hrequestId, -⟩ := Run.transitionTo_ok hrun'
    obtain ⟨-, hstatus', hid'⟩ := UserRequest.setStatus_ok hrequest'
    rw [hdb.runId _ _ hrun] at hid
    rw [hdb.requestId _ _ hrequest] at hid'
    have hunstarted := hnone hsettled
    refine hagreed.of_rows hdb request' hrun hrequestId ⟨fun id => ?_, fun id => ?_⟩ ?_
      hkept ?_ fun _ => .inr ⟨hstatus, hstatus'⟩
    · rw [hupdates.get?_run, hid]
    · rw [hupdates.get?_request, hid']
    · exact fun id execution hrow _ => hupdates.executions ▸ hrow
    · intro id execution hrow heq
      rw [hupdates.executions] at hrow
      exact absurd heq (hunstarted id execution hrow)
  | @operated _ _ operation synchronizes _ _ stored loaded after _ _ _ _ _ hrow _ hloads hstep
      hperforms hsync _ _ hupdates =>
    have hstored := hdb.stored _ _ hrow
    have hloaded := hloads.isStored hstored
    have heffect := effect_of_step hloaded.sound hloaded.active hstep
    have hlive : stored.status.isTerminal = false := by
      rw [← hloads.status]
      exact heffect.live hloaded.active
    have hsnapshot := ((hloads.sameShape hstored.sound).trans heffect.sameShape).snapshot
    have hactive := hagreed.request_active hrow hlive
    have hunique : ∀ id other, db.executions.get? id = some other →
        other.snapshot.runId = stored.snapshot.runId → id = stored.id :=
      fun id other hother heq => hdb.executionUnique _ _ _ _ hother hrow heq
    rcases hsync with ⟨-, hsync⟩ | ⟨rfl, rfl, rfl, -⟩
    · rw [← hsnapshot] at hactive
      obtain ⟨before, after', request', hrun, hrequestId, hrows, hrunStatus, hrequestStatus⟩ :=
        hsync.rows hdb hupdates hactive
      rw [hsnapshot] at hrun hrows
      exact hagreed.of_operation hdb (mergeExecution stored loaded after) request'
        hupdates.executions hkept hunique hrun hrequestId hrows hrunStatus hrequestStatus
    · -- the status is the one before, and neither the run nor the request changed
      have hstatus : after.status = stored.status :=
        (hperforms.status heffect).trans hloads.status
      obtain ⟨run, hrun⟩ := Option.isSome_iff_exists.mp (hdb.executionRun _ _ hrow)
      obtain ⟨request, hrequest⟩ := Option.isSome_iff_exists.mp (hdb.runRequest _ _ hrun)
      have hbefore := hagreed.projects _ _ hrow
      refine hagreed.of_operation hdb (mergeExecution stored loaded after) request
        hupdates.executions hkept hunique hrun rfl ⟨fun id => ?_, fun id => ?_⟩ ?_ ?_
      · rw [hupdates.runs]
        show db.runs.get? id = _
        split
        · rename_i h
          rw [h]
          exact hrun
        · rfl
      · rw [hupdates.requests]
        show db.requests.get? id = _
        split
        · rename_i h
          rw [h]
          exact hrequest
        · rfl
      · show _ = runStatusByWorkflow after.status
        rw [hstatus]
        exact hbefore.run run hrun
      · show _ = requestStatusByWorkflow after.status
        rw [hstatus]
        exact hbefore.request run request hrun hrequest

end

/-! ## 2. Refused calls -/

/-- The calls that raise an `InvalidStateTransition` of their own.  Only `start` synchronizes a
lifecycle, and it leaves no execution behind. -/
inductive MayRefuse (db : Database) : Call → Prop where
  | approveRun (runId : UUID) (now : Instant) : MayRefuse db (.approveRun runId now)
  | start {runId : UUID} {key : String} {version : Option ℕ} {id : UUID} {nodeId : NodeKey → UUID}
    {now : Instant} {run : Run} (hrun : db.runs.get? runId = some run)
    (hterminal : run.status.isTerminal = true) (hunstarted : db.Unstarted runId) :
    MayRefuse db (.start runId key version id nodeId now)
  | cancelRun {runId : UUID} {now : Instant} (hunstarted : db.Unstarted runId) :
    MayRefuse db (.cancelRun runId now)

/-- The two statuses that follow a workflow can follow it from one status to the next. -/
structure Follows (status status' : WorkflowStatus) : Prop where
  run : runStatusByWorkflow status' = runStatusByWorkflow status ∨
    runStatusByWorkflow status' ∈ allowedRunTransitions (runStatusByWorkflow status)
  request : requestStatusByWorkflow status' = requestStatusByWorkflow status ∨
    requestStatusByWorkflow status' ∈ allowedRequestTransitions (requestStatusByWorkflow status)

theorem follows_of_started {status status' : WorkflowStatus} (hlive : status.isTerminal = false)
    (hstarted : status' ≠ .pending) : Follows status status' := by
  constructor <;> cases status <;> cases status' <;>
    simp_all [WorkflowStatus.isTerminal, runStatusByWorkflow, requestStatusByWorkflow,
      allowedRunTransitions, allowedRequestTransitions]

/-- Every status that an operation leads to can be followed. -/
theorem Effect.follows {execution after : WorkflowExecution} {operation : Operation}
    {calls : List ActivateCall} (hstored : Stored execution)
    (h : Effect execution operation calls after) : Follows execution.status after.status :=
  follows_of_started (h.live hstored.active) (h.started hstored.sound hstored.active hstored.started)

theorem Refuses.mayRefuse {isolation : Isolation} {db : Database} {call : Call} (hdb : db.Consistent)
    (hagreed : Agreed db) (hsettled : isolation.settledRuns) (h : Refuses isolation db call) :
    MayRefuse db call := by
  cases h with
  | approveRun runId now => exact .approveRun runId now
  | start hrun hterminal hunstarted => exact .start hrun hterminal hunstarted
  | cancelRun hnone => exact .cancelRun (hnone hsettled)
  | @operation _ operation stored loaded after _ run hrow hloads hstep hrun hne hnot =>
    have hloaded := hloads.isStored (hdb.stored _ _ hrow)
    have hfollows := Effect.follows hloaded (effect_of_step hloaded.sound hloaded.active hstep)
    rw [hloads.status] at hfollows
    rw [(hagreed.projects _ _ hrow).run run hrun] at hne hnot
    rcases hfollows.run with hsame | hallowed
    · exact absurd hsame.symm hne
    · exact absurd hallowed hnot

/-! ## 3. Chains of status changes -/

/-- The `run.status_changed` events of the run, as their `from` and `to`. -/
def statusChanges (db : Database) (runId : UUID) : List (RunStatus × RunStatus) :=
  db.events.filterMap (DomainEvent.statusChange runId)

/-- The changes lead from the first status to the last, each from where the one before ended. -/
def Connects : RunStatus → List (RunStatus × RunStatus) → RunStatus → Prop
  | status, [], last => status = last
  | status, change :: changes, last => change.1 = status ∧ Connects change.2 changes last

theorem Connects.append {first middle last : RunStatus} {changes changes' : List (RunStatus × RunStatus)}
    (h : Connects first changes middle) (h' : Connects middle changes' last) :
    Connects first (changes ++ changes') last := by
  induction changes generalizing first with
  | nil =>
    obtain rfl : first = middle := h
    exact h'
  | cons change changes ih => exact ⟨h.1, ih h.2⟩

structure Chained (db : Database) : Prop where
  started : ∀ id run, db.runs.get? id = some run → ¬db.Unstarted id →
    Connects .queued (statusChanges db id) run.status
  unstarted : ∀ id, db.Unstarted id → statusChanges db id = []

section

variable {isolation : Isolation} {held : Set RowLock} {db db' : Database}

theorem statusChange_budget {runId : UUID} {events : List DomainEvent}
    (h : ∀ event ∈ events, DomainEvent.isBudget event = true) :
    events.filterMap (DomainEvent.statusChange runId) = [] := by
  rw [List.filterMap_eq_nil_iff]
  intro event hevent
  have hbudget := h event hevent
  cases event <;> first | rfl | cases hbudget

theorem RequestFollows.statusChange {execution : WorkflowExecution} {run : Run}
    {request : UserRequest} {request' : Option UserRequest} {events : List DomainEvent}
    (h : RequestFollows execution run request request' events) (runId : UUID) :
    events.filterMap (DomainEvent.statusChange runId) = [] := by
  cases h <;> rfl

theorem Performs.statusChange {loaded after : WorkflowExecution} {call : Call} {result : Result}
    {operation : Operation} {synchronizes : Bool} {artifacts : List TaskArtifact}
    {event : DomainEvent} (h : Performs loaded after call result operation synchronizes artifacts event)
    (runId : UUID) : event.statusChange runId = none := by
  cases h <;> rfl

/-- The run after a synchronization, with the changes it recorded. -/
theorem Synchronized.changes {execution : WorkflowExecution} {run : Option Run}
    {request : Option UserRequest} {events : List DomainEvent} (hdb : db.Consistent)
    (h : Synchronized held db execution run request events) :
    ∃ before after changes, db.runs.get? execution.snapshot.runId = some before ∧
      (∀ id, (setRun db.runs run).get? id =
        if id = execution.snapshot.runId then some after else db.runs.get? id) ∧
      (∀ id, events.filterMap (DomainEvent.statusChange id) =
        if id = execution.snapshot.runId then changes else []) ∧
      Connects before.status changes after.status := by
  cases h with
  | @mk before _ _ _ _ _ hrun _ _ _ hfollows hfollows' =>
    have hid := hdb.runId _ _ hrun
    cases hfollows with
    | same =>
      refine ⟨before, before, [], hrun, fun id => ?_, fun id => ?_, rfl⟩
      · show db.runs.get? id = _
        split
        · rename_i h
          rw [h, hrun]
        · rfl
      · rw [List.nil_append, hfollows'.statusChange, ite_self]
    | @changed after _ hafter =>
      have hafterId := (followExecution_ok hafter).2.1
      refine ⟨before, after, [(before.status, after.status)], hrun, fun id => ?_, fun id => ?_,
        rfl, rfl⟩
      · show (db.runs.set after.id after).get? id = _
        rw [Dict.get?_set, hafterId, hid]
      · rw [List.filterMap_append, hfollows'.statusChange, List.append_nil]
        simp only [List.filterMap_cons, List.filterMap_nil, DomainEvent.statusChange, hid, eq_comm]
        by_cases h : id = execution.snapshot.runId <;> simp [h]

theorem Chained.of_same (h : Chained db) (hevents : ∀ id, statusChanges db' id = statusChanges db id)
    (hunstarted : ∀ id, db'.Unstarted id ↔ db.Unstarted id)
    (hruns : ∀ id run', db'.runs.get? id = some run' → ¬db'.Unstarted id →
      ∃ run, db.runs.get? id = some run ∧ run.status = run'.status) : Chained db' where
  started id run' hrun' hstarted := by
    obtain ⟨run, hrun, hstatus⟩ := hruns id run' hrun' hstarted
    rw [hevents, ← hstatus]
    exact h.started id run hrun fun hnone => hstarted ((hunstarted id).mpr hnone)
  unstarted id hnone := (hevents id).trans (h.unstarted id ((hunstarted id).mp hnone))

theorem Chained.of_changes (h : Chained db) {runId : UUID} {before after : Run}
    {changes : List (RunStatus × RunStatus)}
    (hbefore : Connects .queued (statusChanges db runId) before.status)
    (hruns : ∀ id, db'.runs.get? id = if id = runId then some after else db.runs.get? id)
    (hevents : ∀ id, statusChanges db' id =
      statusChanges db id ++ if id = runId then changes else [])
    (hchanges : Connects before.status changes after.status)
    (hself : ¬db'.Unstarted runId) (hothers : ∀ id, id ≠ runId → (db'.Unstarted id ↔ db.Unstarted id)) :
    Chained db' where
  started id run' hrun' hstarted := by
    rw [hevents]
    by_cases hid : id = runId
    · subst hid
      rw [hruns, if_pos rfl] at hrun'
      obtain rfl := Option.some.inj hrun'
      rw [if_pos rfl]
      exact hbefore.append hchanges
    · rw [hruns, if_neg hid] at hrun'
      rw [if_neg hid, List.append_nil]
      exact h.started id run' hrun' fun hnone => hstarted ((hothers id hid).mpr hnone)
  unstarted id hnone := by
    have hid : id ≠ runId := by
      rintro rfl
      exact hself hnone
    rw [hevents, if_neg hid, List.append_nil]
    exact h.unstarted id ((hothers id hid).mp hnone)

theorem Updates.statusChanges {executions : Dict UUID WorkflowExecution} {run : Option Run}
    {request : Option UserRequest} {artifacts : List TaskArtifact} {events : List DomainEvent}
    (h : Updates db db' executions run request artifacts events) (id : UUID) :
    statusChanges db' id = statusChanges db id ++ events.filterMap (DomainEvent.statusChange id) := by
  unfold Application.statusChanges
  rw [h.events, List.filterMap_append]

/-- Storing an execution changes for its run alone whether it has one. -/
theorem unstarted_iff_of_set (execution : WorkflowExecution) {id : UUID}
    (hexecutions : db'.executions = db.executions.set execution.id execution)
    (hunique : ∀ other, db.executions.get? execution.id = some other →
      other.snapshot.runId = execution.snapshot.runId) (hne : id ≠ execution.snapshot.runId) :
    db'.Unstarted id ↔ db.Unstarted id := by
  constructor
  · intro h id' other hother heq
    by_cases hid : id' = execution.id
    · subst hid
      exact hne (heq.symm.trans (hunique other hother))
    · exact h id' other (by rw [hexecutions, Dict.get?_set_of_ne _ _ hid, hother]) heq
  · intro h id' other hother heq
    rw [hexecutions, Dict.get?_set] at hother
    split at hother
    · obtain rfl := Option.some.inj hother
      exact hne heq.symm
    · exact h id' other hother heq

/-- A commit extends the chains of status changes. -/
theorem Commits.chained {call : Call} {result : Result} (hdb : db.Consistent) (hchained : Chained db)
    (h : Commits isolation held db db' call result) (hsettled : isolation.settledRuns) :
    Chained db' := by
  cases h with
  | idle _ hupdates =>
    refine hchained.of_same (fun id => (hupdates.statusChanges id).trans (List.append_nil _))
      (fun id => by unfold Database.Unstarted; rw [hupdates.executions]) ?_
    have hruns : db'.runs = db.runs := hupdates.runs
    exact fun id run' hrun' _ => ⟨run', hruns ▸ hrun', rfl⟩
  | requested hrequest hrun hreference hactive hqueued hupdates =>
    refine hchained.of_same (fun id => (hupdates.statusChanges id).trans (List.append_nil _))
      hupdates.unstarted_iff fun id run' hrun' hstarted => ?_
    rw [hupdates.get?_run] at hrun'
    split at hrun'
    · -- a new run has no execution
      rename_i hid
      refine absurd (fun id' execution hrow heq => ?_) hstarted
      have hsome := hdb.executionRun id' execution (hupdates.executions ▸ hrow)
      rw [heq, hid, hrun] at hsome
      cases hsome
    · exact ⟨run', hrun', rfl⟩
  | cancelled hrun _ _ _ hnone hrun' _ hbudget hupdates =>
    have hid := (Run.transitionTo_ok hrun').2.2.1
    rw [hdb.runId _ _ hrun] at hid
    refine hchained.of_same (fun id => ?_) hupdates.unstarted_iff fun id run₀ hrun₀ hstarted => ?_
    · rw [hupdates.statusChanges, List.filterMap_append, statusChange_budget hbudget]
      exact List.append_nil _
    · rw [hupdates.get?_run, hid] at hrun₀
      split at hrun₀
      · rename_i heq
        rw [hupdates.unstarted_iff, heq] at hstarted
        exact absurd (hnone hsettled) hstarted
      · exact ⟨run₀, hrun₀, rfl⟩
  | @started _ _ _ _ _ created after _ _ _ _ _ hcreates hcontext hstep hnew hunstarted hsync
      hupdates =>
    obtain ⟨-, hsnapshot, hid, hmoving⟩ := Stored.of_start hcreates hcontext hstep
    rw [← hid] at hupdates hnew
    rw [← hsnapshot] at hunstarted
    obtain ⟨⟨queued, hqueued, hstatus⟩, -⟩ := hsync.of_start hdb hmoving hunstarted
    obtain ⟨before, after', changes, hbefore, hruns, hevents, hconnects⟩ := hsync.changes hdb
    obtain rfl := Option.some.inj (hbefore.symm.trans hqueued)
    refine hchained.of_changes ?_ (fun id => by rw [hupdates.runs]; exact hruns id) (fun id => ?_)
      hconnects ?_ fun id hne =>
        unstarted_iff_of_set after hupdates.executions ?_ hne
    · rw [hchained.unstarted _ hunstarted, hstatus]
      rfl
    · rw [hupdates.statusChanges]
      exact congrArg _ (hevents id)
    · have hself : db'.executions.get? after.id = some after := by
        rw [hupdates.executions, Dict.get?_set_self]
      exact Database.not_unstarted hself
    · intro other hother
      rw [hnew] at hother
      cases hother
  | @operated _ _ operation synchronizes _ _ stored loaded after _ _ _ _ events hrow _ hloads hstep
      hperforms hsync hbudget _ hupdates =>
    have hstored := hdb.stored _ _ hrow
    have hloaded := hloads.isStored hstored
    have heffect := effect_of_step hloaded.sound hloaded.active hstep
    have hsnapshot := ((hloads.sameShape hstored.sound).trans heffect.sameShape).snapshot
    have hrow' : db'.executions.get? stored.id = some (mergeExecution stored loaded after) := by
      rw [hupdates.executions]
      exact Dict.get?_set_self _ stored.id _
    have hself : ¬db'.Unstarted stored.snapshot.runId := by
      have hnot := Database.not_unstarted hrow'
      exact hnot
    have hothers : ∀ id, id ≠ stored.snapshot.runId → (db'.Unstarted id ↔ db.Unstarted id) :=
      fun id hne => unstarted_iff_of_set (mergeExecution stored loaded after)
        hupdates.executions (fun other hother => by
          obtain rfl := Option.some.inj (hother.symm.trans hrow)
          rfl) hne
    have hall : ∀ id, statusChanges db' id =
        statusChanges db id ++ events.filterMap (DomainEvent.statusChange id) := fun id => by
      rw [hupdates.statusChanges, List.filterMap_append, statusChange_budget hbudget,
        List.nil_append, List.filterMap_cons_none (hperforms.statusChange id)]
    rcases hsync with ⟨-, hsync⟩ | ⟨-, rfl, -, rfl⟩
    · obtain ⟨before, after', changes, hbefore, hruns, hevents, hconnects⟩ := hsync.changes hdb
      rw [hsnapshot] at hbefore hruns hevents
      refine hchained.of_changes (hchained.started _ _ hbefore (Database.not_unstarted hrow))
        (fun id => by rw [hupdates.runs]; exact hruns id) (fun id => ?_) hconnects
        hself hothers
      rw [hall]
      exact congrArg _ (hevents id)
    · refine hchained.of_same (fun id => (hall id).trans (List.append_nil _)) (fun id => ?_) ?_
      · by_cases hid : id = stored.snapshot.runId
        · rw [hid]
          exact iff_of_false hself (Database.not_unstarted hrow)
        · exact hothers id hid
      · have hruns : db'.runs = db.runs := hupdates.runs
        exact fun id run' hrun' _ => ⟨run', hruns ▸ hrun', rfl⟩

end

/-! ## 4. Runs of the services -/

/-- A database in which nothing was requested yet. -/
structure Blank (db : Database) : Prop where
  requests : db.requests = .empty
  runs : db.runs = .empty
  executions : db.executions = .empty
  events : db.events = []

/-- The run and the request of an execution, with the statuses that its status asks for. -/
def Mirrored (db : Database) (execution : WorkflowExecution) : Prop :=
  ∃ run request, db.runs.get? execution.snapshot.runId = some run ∧
    db.requests.get? run.requestId = some request ∧
    run.status = runStatusByWorkflow execution.status ∧
    request.status = requestStatusByWorkflow execution.status

/-- The invariant of the lifecycle. -/
structure Aligned (world : World) : Prop where
  consistent : world.Consistent
  agreed : Agreed world.database
  chained : Chained world.database

theorem Blank.aligned {world : World} (h : Blank world.database) : Aligned world where
  consistent := by
    constructor <;> simp [h.runs, h.requests, h.executions]
  agreed := by
    constructor <;> simp [h.runs, h.executions]
  chained := by
    constructor <;> simp [h.runs, statusChanges, h.events]

namespace Aligned

variable {isolation : Isolation} {world world' : World} (h : Aligned world)
include h

theorem mirrored {id : UUID} {execution : WorkflowExecution}
    (hrow : world.database.executions.get? id = some execution) :
    Mirrored world.database execution := by
  obtain ⟨run, hrun⟩ := Option.isSome_iff_exists.mp
    (Database.Consistent.executionRun h.consistent id execution hrow)
  obtain ⟨request, hrequest⟩ := Option.isSome_iff_exists.mp
    (Database.Consistent.runRequest h.consistent _ run hrun)
  have hprojects := h.agreed.projects id execution hrow
  exact ⟨run, request, hrun, hrequest, hprojects.run run hrun,
    hprojects.request run request hrun hrequest⟩

theorem commits {call : Call} {result : Result} {held : Set RowLock}
    (hcommits : WorldCommits isolation call result held world world')
    (hsettled : isolation.settledRuns) : Aligned world' where
  consistent := (hcommits.2.spec h.consistent).1
  agreed := hcommits.2.agreed h.consistent h.agreed hsettled
  chained := hcommits.2.chained h.consistent h.chained hsettled

theorem mayRefuse {call : Call} {error : ServiceError}
    (hraises : Raises isolation call error world) (hsettled : isolation.settledRuns)
    (htransition : error.isTransition = true) : MayRefuse world.database call :=
  (hraises htransition).mayRefuse h.consistent h.agreed hsettled

end Aligned

/-- Serial calls on a blank database.  After every call the run and the request of each execution
mirror its status, and whatever the engine does next they can follow; a call that raises changes
nothing, and raises an `InvalidStateTransition` on a cancelled run, an unstarted one or an approval
without a node only; the status changes of each run are a chain from `queued`. -/
theorem serial_lifecycle (settings : Settings) {world : World} (hblank : Blank world.database)
    (calls : List Call) :
    (∀ t ∈ (services settings).serial.trace world calls,
      (∀ id execution, t.after.database.executions.get? id = some execution →
        Mirrored t.after.database execution ∧
        ∀ operation calls after, engine.step execution operation = (⟨.ok (), calls⟩, after) →
          Follows execution.status after.status) ∧
      ∀ error, t.output = .error error → t.after = t.before ∧
        (error.isTransition = true → MayRefuse t.before.database t.input)) ∧
    ∀ runId run,
      ((services settings).serial.run world calls).database.runs.get? runId = some run →
      ∃ last, Connects .queued
          (statusChanges ((services settings).serial.run world calls).database runId) last ∧
        (¬((services settings).serial.run world calls).database.Unstarted runId →
          last = run.status) := by
  obtain ⟨-, htrace⟩ := serial_spec settings hblank.aligned.consistent calls
  have hkeeps : ∀ t ∈ (services settings).serial.trace world calls,
      Aligned t.before → Aligned t.after := by
    intro t ht hbefore
    have hstep := (htrace t ht).2
    unfold SerialStep Store.Serves at hstep
    split at hstep
    · obtain ⟨held, hcommits⟩ := hstep
      exact hbefore.commits hcommits trivial
    · rw [hstep.2]
      exact hbefore
  obtain ⟨hrun, haligned⟩ := (services settings).serial.trace_keeps hblank.aligned hkeeps
  refine ⟨fun t ht => ⟨fun id execution hrow => ?_, fun error herror => ?_⟩, ?_⟩
  · obtain ⟨-, hafter⟩ := haligned t ht
    refine ⟨hafter.mirrored hrow, fun operation calls after hstep => ?_⟩
    have hstored := Database.Consistent.stored hafter.consistent id execution hrow
    exact Effect.follows hstored (effect_of_step hstored.sound hstored.active hstep)
  · have hstep := (htrace t ht).2
    unfold SerialStep Store.Serves at hstep
    rw [herror] at hstep
    exact ⟨hstep.2, (haligned t ht).1.mayRefuse hstep.1 trivial⟩
  · intro runId run hrow
    by_cases hnone : ((services settings).serial.run world calls).database.Unstarted runId
    · refine ⟨.queued, ?_, fun h => absurd hnone h⟩
      rw [hrun.chained.unstarted runId hnone]
      rfl
    · exact ⟨run.status, hrun.chained.started runId run hrow hnone, fun _ => rfl⟩

/-- What a step of the sessions keeps: executions are mirrored, none is live under a cancelled run or
request, and nothing that synchronizes a lifecycle is refused. -/
structure KeepsLifecycle {settings : Settings} (t : ServiceStep settings) : Prop where
  mirrored : ∀ id execution, t.after.shared.database.executions.get? id = some execution →
    Mirrored t.after.shared.database execution
  cancelled : ∀ id execution run request,
    t.after.shared.database.executions.get? id = some execution →
    t.after.shared.database.runs.get? execution.snapshot.runId = some run →
    t.after.shared.database.requests.get? run.requestId = some request →
    run.status = .cancelled ∨ request.status = .cancelled → execution.isTerminal = true
  refused : ∀ call error, t.output = .raised call error → error.isTransition = true →
    MayRefuse t.before.shared.database call

/-- Interleaved sessions on a blank database, as long as every `cancel_run` that has found no
execution locks a run that still has none. -/
theorem interleaved_lifecycle (settings : Settings) {world : World} (hblank : Blank world.database)
    {inputs : List (Store.Input Call)}
    (hsettled : ∀ t ∈ (services settings).machine.trace ((services settings).initial world) inputs,
      (services settings).Guarded settledCancel t) :
    ∀ t ∈ (services settings).machine.trace ((services settings).initial world) inputs,
      KeepsLifecycle t := by
  obtain ⟨-, htrace⟩ := interleaved_spec settings ⟨False, True⟩ hblank.aligned.consistent
    (fun h => h.elim) (fun _ => hsettled)
  have hkeeps : ∀ t ∈ (services settings).machine.trace ((services settings).initial world) inputs,
      Aligned t.before.shared → Aligned t.after.shared := by
    intro t ht hbefore
    have hstep := (htrace t ht).2
    unfold SessionStep Store.Respects at hstep
    split at hstep
    · obtain ⟨held, hcommits⟩ := hstep
      exact hbefore.commits hcommits trivial
    · rw [hstep.2]
      exact hbefore
    · rw [hstep]
      exact hbefore
  obtain ⟨-, haligned⟩ := (services settings).machine.trace_keeps
    (Q := fun c => Aligned c.shared) hblank.aligned hkeeps
  intro t ht
  obtain ⟨hbefore, hafter⟩ := haligned t ht
  refine ⟨fun id execution hrow => hafter.mirrored hrow, ?_, fun call error hraised => ?_⟩
  · intro id execution run request hrow hrun hrequest hcancelled
    have hprojects := hafter.agreed.projects id execution hrow
    rw [hprojects.run run hrun, hprojects.request run request hrun hrequest] at hcancelled
    unfold WorkflowExecution.isTerminal
    cases hstatus : execution.status <;> rw [hstatus] at hcancelled <;>
      simp_all [runStatusByWorkflow, requestStatusByWorkflow, WorkflowStatus.isTerminal]
  · have hstep := (htrace t ht).2
    unfold SessionStep Store.Respects at hstep
    rw [hraised] at hstep
    exact hbefore.mayRefuse hstep.1 trivial

/-! ## 5. One task, started and cancelled -/

/-- Settings that accept every output. -/
def lenient : Settings := ⟨fun _ _ => [], 30, by decide⟩

/-- One project and the definition with one task. -/
def oneProject : World where
  database := {
    registry := { definitions := [acceptedSingleTask] }
    projects := ⟨[(1, { id := 1, key := "p", name := "p", repositoryUrl := "u" })]⟩ }

theorem blank_oneProject : Blank oneProject.database := ⟨rfl, rfl, rfl, rfl⟩

def requestTask : Call := .createRequest 1 "prompt" none 10 20 0

def startTask : Call := .start 20 acceptedSingleTask.definition.key none 30 (fun _ => 0) 1

/-- The task is requested, started, begun and completed; the run cannot be cancelled any more. -/
def taskCalls : List Call :=
  [requestTask, startTask, .beginTask 30 "work" 2, .completeTask 30 "work" .success none 40 3,
    .cancelRun 20 4]

theorem serial_lifecycle_taskCalls :
    statusChanges ((services lenient).serial.run oneProject taskCalls).database 20 =
      [(.queued, .running), (.running, .succeeded)] ∧
    ∃ last, Connects .queued
      (statusChanges ((services lenient).serial.run oneProject taskCalls).database 20) last := by
  have hrun : (((services lenient).serial.run oneProject taskCalls).database.runs.get? 20).isSome =
      true := by decide +kernel
  obtain ⟨run, hrun⟩ := Option.isSome_iff_exists.mp hrun
  obtain ⟨last, hlast, -⟩ := (serial_lifecycle lenient blank_oneProject taskCalls).2 20 run hrun
  exact ⟨by decide +kernel, last, hlast⟩

/-- One session cancels the run and another starts it; `cancelFirst` statements of the first come
before the second. -/
def cancelAndStart (cancelFirst : ℕ) : List (Store.Input Call) :=
  .«open» 0 requestTask :: List.replicate 12 (.advance 0) ++
    .«open» 1 (.cancelRun 20 5) :: List.replicate cancelFirst (.advance 1) ++
    .«open» 2 startTask :: List.replicate 20 (.advance 2) ++ List.replicate 20 (.advance 1)

abbrev cancelTrace (cancelFirst : ℕ) :=
  (services lenient).machine.trace ((services lenient).initial oneProject)
    (cancelAndStart cancelFirst)

/-- `settledCancel` as a test. -/
def settlesCancel (call : Call) (world : World) (unitOfWork : UnitOfWork) (statement : Statement) :
    Bool :=
  match call, statement with
  | .cancelRun runId _, .run runId' true =>
    runId ≠ runId' || !unitOfWork.executions.entries.isEmpty ||
      (world.database.executionOf runId).isNone
  | _, _ => true

theorem settledCancel_of_settles {call : Call} {world : World} {unitOfWork : UnitOfWork}
    {statement : Statement} (h : settlesCancel call world unitOfWork statement = true) :
    settledCancel call world unitOfWork statement := by
  rintro runId now rfl rfl hempty
  simp only [settlesCancel, hempty] at h
  apply Database.executionOf_eq_none.mp
  simpa [Dict.empty] using h

/-- The run is cancelled before it is started. -/
theorem interleaved_lifecycle_cancelAndStart :
    (((services lenient).machine.run ((services lenient).initial oneProject)
      (cancelAndStart 20)).shared.database.runs.get? 20).map Run.status = some .cancelled ∧
    ∀ t ∈ cancelTrace 20, KeepsLifecycle t := by
  have hmeets : ∀ t ∈ cancelTrace 20, (services lenient).meets settlesCancel t = true := by
    decide +kernel
  refine ⟨by decide +kernel, ?_⟩
  exact interleaved_lifecycle lenient blank_oneProject fun t ht =>
    Store.guarded_of_meets (fun _ _ _ _ => settledCancel_of_settles) (hmeets t ht)

/-- `cancel_run` looks for an execution, the run is started, and `cancel_run` cancels the run under
it. -/
theorem cancelled_under_execution :
    ¬∀ (settings : Settings) (world : World), Blank world.database →
      ∀ inputs, ∀ t ∈ (services settings).machine.trace ((services settings).initial world) inputs,
        KeepsLifecycle t := by
  intro hclaim
  have hrace : ∃ t ∈ cancelTrace 1, ∃ execution run request,
      t.after.shared.database.executions.get? 30 = some execution ∧
      t.after.shared.database.runs.get? execution.snapshot.runId = some run ∧
      t.after.shared.database.requests.get? run.requestId = some request ∧
      run.status = .cancelled ∧ execution.isTerminal = false := by
    have hlast : (cancelTrace 1).any (fun t =>
        (t.after.shared.database.executions.get? 30).any fun execution =>
          (t.after.shared.database.runs.get? execution.snapshot.runId).any fun run =>
            (t.after.shared.database.requests.get? run.requestId).any fun _ =>
              run.status = .cancelled && !execution.isTerminal) = true := by
      decide +kernel
    simp only [List.any_eq_true, Option.any_eq_true] at hlast
    obtain ⟨t, ht, execution, hexecution, run, hrun, request, hrequest, hstatus⟩ := hlast
    exact ⟨t, ht, execution, run, request, hexecution, hrun, hrequest, by simpa using hstatus⟩
  obtain ⟨t, ht, execution, run, request, hexecution, hrun, hrequest, hcancelled, hlive⟩ := hrace
  have hterminal := (hclaim lenient oneProject blank_oneProject _ t ht).cancelled 30 execution run
    request hexecution hrun hrequest (.inl hcancelled)
  rw [hlive] at hterminal
  cases hterminal

end JbOrchestrator.Application
