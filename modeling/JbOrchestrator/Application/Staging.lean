import JbOrchestrator.Application.Calls
import JbOrchestrator.Application.Dispatches
import JbOrchestrator.Application.Flushing

/-!
# Staging — the rows that a dispatch is about to insert

Behind its claim a dispatch adds one request and one run, and `create_execution` adds one execution.
Whatever its statements are answered, everything else that it saves is an update of these rows.
-/

open Lib

namespace JbOrchestrator.Application

open Domain Workflows Infrastructure Recommendations

/-! ## 1. The rows of a unit of work -/

/-- The statement is answered on some committed rows. -/
def Replies (s : UnitOfWork) (statement : Statement) (reply : statement.Reply) (s' : UnitOfWork) :
    Prop :=
  ∃ db taken, statement.answer db taken s = (reply, s')

/-- The unit of work has one new request and one new run, both loaded, and new executions. -/
structure Staged (requestId runId : UUID) (executions : List UUID) (s : UnitOfWork) : Prop where
  requests : s.writes.filterMap Write.insertedRequest = [requestId]
  runs : s.writes.filterMap Write.insertedRun = [runId]
  executions : s.writes.filterMap Write.insertedExecution = executions
  request : ∃ row, s.requests.get? requestId = some row ∧ row.id = requestId
  run : ∃ row, s.runs.get? runId = some row ∧ row.id = runId ∧ row.requestId = requestId

section

variable {requestId runId : UUID} {executions : List UUID} {s s' : UnitOfWork} {forUpdate : Bool}

theorem filterMap_append_one {α β : Type} (f : α → Option β) (values : List α) (value : α) :
    (values ++ [value]).filterMap f = values.filterMap f ++ (f value).toList := by
  rw [List.filterMap_append]
  cases h : f value <;> simp [h]

theorem load_loaded {α : Type} {loaded : Dict UUID α} {id : UUID} {row : α}
    (h : loaded.get? id = some row) (stored : Option α) :
    Statement.load loaded id stored = (some row, loaded) := by
  unfold Statement.load
  rw [h]

/-- A request and its run, added to an empty unit of work. -/
theorem staged_added {request : UserRequest} {run : Run} {middle : UnitOfWork} {reply reply' : Unit}
    (hadd : Replies {} (.addRequest request) reply middle)
    (hadd' : Replies middle (.addRun run) reply' s) (hrequest : run.requestId = request.id) :
    Staged request.id run.id [] s := by
  obtain ⟨db, taken, hanswer⟩ := hadd
  obtain ⟨-, rfl⟩ := Prod.mk.inj hanswer
  obtain ⟨db, taken, hanswer⟩ := hadd'
  obtain ⟨-, rfl⟩ := Prod.mk.inj hanswer
  exact ⟨rfl, rfl, rfl, ⟨request, Dict.get?_set_self _ _ _, rfl⟩,
    ⟨run, Dict.get?_set_self _ _ _, rfl, hrequest⟩⟩

theorem Staged.run_reply (h : Staged requestId runId executions s) {reply : Option Run}
    (hreply : Replies s (.run runId forUpdate) reply s') :
    s' = s ∧ ∃ row, reply = some row ∧ row.id = runId ∧ row.requestId = requestId := by
  obtain ⟨db, taken, hanswer⟩ := hreply
  obtain ⟨row, hrow, hid, hrequest⟩ := h.run
  simp only [Statement.answer, load_loaded hrow] at hanswer
  obtain ⟨rfl, rfl⟩ := Prod.mk.inj hanswer
  exact ⟨rfl, row, rfl, hid, hrequest⟩

theorem Staged.request_reply (h : Staged requestId runId executions s) {reply : Option UserRequest}
    (hreply : Replies s (.request requestId forUpdate) reply s') :
    s' = s ∧ ∃ row, reply = some row ∧ row.id = requestId := by
  obtain ⟨db, taken, hanswer⟩ := hreply
  obtain ⟨row, hrow, hid⟩ := h.request
  simp only [Statement.answer, load_loaded hrow] at hanswer
  obtain ⟨rfl, rfl⟩ := Prod.mk.inj hanswer
  exact ⟨rfl, row, rfl, hid⟩

theorem Staged.executionByRun (h : Staged requestId runId executions s) {id : UUID}
    {reply : Option WorkflowExecutionRecord}
    (hreply : Replies s (.executionByRun id forUpdate) reply s') :
    Staged requestId runId executions s' := by
  obtain ⟨db, taken, hanswer⟩ := hreply
  simp only [Statement.answer] at hanswer
  split at hanswer
  · obtain ⟨-, rfl⟩ := Prod.mk.inj hanswer
    exact h
  · obtain ⟨-, rfl⟩ := Prod.mk.inj hanswer
    exact ⟨h.requests, h.runs, h.executions, h.request, h.run⟩

theorem Staged.nodes (h : Staged requestId runId executions s) {id : UUID}
    {reply : Dict NodeKey NodeExecution} (hreply : Replies s (.nodes id) reply s') :
    Staged requestId runId executions s' := by
  obtain ⟨db, taken, hanswer⟩ := hreply
  obtain ⟨-, rfl⟩ := Prod.mk.inj hanswer
  exact ⟨h.requests, h.runs, h.executions, h.request, h.run⟩

theorem Staged.append (h : Staged requestId runId executions s) {event : DomainEvent} {reply : Unit}
    (hreply : Replies s (.append event) reply s') : Staged requestId runId executions s' := by
  obtain ⟨db, taken, hanswer⟩ := hreply
  obtain ⟨-, rfl⟩ := Prod.mk.inj hanswer
  exact ⟨h.requests, h.runs, h.executions, h.request, h.run⟩

theorem Staged.addExecution (h : Staged requestId runId [] s) {execution : WorkflowExecution}
    {reply : Unit} (hreply : Replies s (.addExecution execution) reply s') :
    Staged requestId runId [execution.id] s' := by
  obtain ⟨db, taken, hanswer⟩ := hreply
  obtain ⟨-, rfl⟩ := Prod.mk.inj hanswer
  refine ⟨?_, ?_, ?_, h.request, h.run⟩
  · rw [filterMap_append_one, h.requests]
    rfl
  · rw [filterMap_append_one, h.runs]
    rfl
  · rw [filterMap_append_one, h.executions]
    rfl

/-- A run that is loaded is updated. -/
theorem Staged.saveRun (h : Staged requestId runId executions s) {run : Run} (hid : run.id = runId)
    (hrequest : run.requestId = requestId) {reply : Unit}
    (hreply : Replies s (.saveRun run) reply s') : Staged requestId runId executions s' := by
  obtain ⟨db, taken, hanswer⟩ := hreply
  subst hid
  obtain ⟨row, hrow, -⟩ := h.run
  simp only [Statement.answer, load_loaded hrow] at hanswer
  obtain ⟨-, rfl⟩ := Prod.mk.inj hanswer
  refine ⟨?_, ?_, ?_, h.request, run, Dict.get?_set_self _ _ _, rfl, hrequest⟩
  · rw [filterMap_append_one, h.requests]
    rfl
  · rw [filterMap_append_one, h.runs]
    rfl
  · rw [filterMap_append_one, h.executions]
    exact List.append_nil _

theorem Staged.saveRequest (h : Staged requestId runId executions s) {request : UserRequest}
    (hid : request.id = requestId) {reply : Unit}
    (hreply : Replies s (.saveRequest request) reply s') : Staged requestId runId executions s' := by
  obtain ⟨db, taken, hanswer⟩ := hreply
  subst hid
  obtain ⟨row, hrow, -⟩ := h.request
  simp only [Statement.answer, load_loaded hrow] at hanswer
  obtain ⟨-, rfl⟩ := Prod.mk.inj hanswer
  refine ⟨?_, ?_, ?_, ⟨request, Dict.get?_set_self _ _ _, rfl⟩, h.run⟩
  · rw [filterMap_append_one, h.requests]
    rfl
  · rw [filterMap_append_one, h.runs]
    rfl
  · rw [filterMap_append_one, h.executions]
    exact List.append_nil _

theorem quiet_replies {statement : Statement} {reply : statement.Reply}
    (hquiet : Discipline.quiet statement) (hreply : Replies s statement reply s') : s' = s := by
  obtain ⟨db, taken, hanswer⟩ := hreply
  have hsecond := congrArg Prod.snd hanswer
  cases statement <;> first | exact hsecond.symm | cases hquiet

/-! ## 2. The execution of a new run -/

theorem ends_throwDomain {α S : Type} {replies : S → (statement : Statement) → statement.Reply → S → Prop}
    {P : S → α → Prop} {s : S} {x : Except DomainError α} (h : ∀ value, x = .ok value → P s value) :
    (throwDomain x).Ends replies P s := by
  cases x with
  | ok value => exact h value rfl
  | error error => trivial

theorem toExecution_ends (h : Staged requestId runId executions s)
    (record : Option WorkflowExecutionRecord) :
    (toExecution record).Ends Replies (fun s' _ => Staged requestId runId executions s') s := by
  cases record with
  | none => exact h
  | some record => exact fun nodes s' hnodes => h.nodes hnodes

theorem start_ends {definition : AcceptedDefinition} {created : WorkflowExecution} {now : Instant}
    (hcreates : definition.Creates created) (hcontext : created.snapshot.requestContext ≠ none)
    (h : Staged requestId runId executions s) :
    (applyOperation created (.start now)).Ends Replies
      (fun s' after => Staged requestId runId executions s' ∧ after.snapshot = created.snapshot) s := by
  unfold applyOperation
  split
  · rename_i u calls after hstep
    exact ⟨h, (Stored.of_start hcreates hcontext hstep).2.1⟩
  · trivial

theorem projectRun_ends {execution : WorkflowExecution} {run : Run}
    (h : Staged requestId runId executions s) (hid : run.id = runId)
    (hrequest : run.requestId = requestId) :
    (projectRun execution run).Ends Replies (fun s' _ => Staged requestId runId executions s') s := by
  unfold projectRun
  split
  · exact h
  · refine Program.ends_bind (ends_throwDomain fun changed hchanged => ?_)
    obtain ⟨-, hchangedId, hchangedRequest, -⟩ := followExecution_ok hchanged
    refine Program.ends_bind fun reply s₁ hsave => ?_
    have h₁ := h.saveRun (hchangedId.trans hid) (hchangedRequest.trans hrequest) hsave
    exact fun reply s₂ happend => h₁.append happend

theorem saveRequest_ends {changed : UserRequest} {event : DomainEvent}
    (h : Staged requestId runId executions s) (hid : changed.id = requestId) :
    (perform (.saveRequest changed) >>= fun _ => perform (.append event)).Ends Replies
      (fun s' _ => Staged requestId runId executions s') s := by
  refine Program.ends_bind fun reply s₁ hsave => ?_
  exact fun reply s₂ happend => (h.saveRequest hid hsave).append happend

theorem projectRequest_ends {execution : WorkflowExecution} {run : Run} {request : UserRequest}
    (h : Staged requestId runId executions s) (hid : request.id = requestId) :
    (projectRequest execution run request).Ends Replies
      (fun s' _ => Staged requestId runId executions s') s := by
  unfold projectRequest
  split
  · refine Program.ends_bind (ends_throwDomain fun changed hchanged => ?_)
    exact saveRequest_ends h ((UserRequest.setStatus_ok hchanged).2.2.trans hid)
  split
  · refine Program.ends_bind (ends_throwDomain fun changed hchanged => ?_)
    exact saveRequest_ends h ((UserRequest.setStatus_ok hchanged).2.2.trans hid)
  · exact h

/-- The run and the request of the execution are found among the loaded rows. -/
theorem synchronize_ends {execution : WorkflowExecution} (h : Staged requestId runId executions s)
    (hrun : execution.snapshot.runId = runId) :
    (synchronizeExecutionLifecycle execution).Ends Replies
      (fun s' _ => Staged requestId runId executions s') s := by
  unfold synchronizeExecutionLifecycle
  split
  · exact h
  subst hrun
  refine Program.ends_bind fun reply s₁ hreply => ?_
  obtain ⟨rfl, run, rfl, hid, hrequest⟩ := h.run_reply hreply
  refine Program.ends_bind (Program.ends_ofOption fun run' hrun' => ?_)
  obtain rfl := Option.some.inj hrun'
  refine Program.ends_bind fun reply s₂ hreply => ?_
  rw [hrequest] at hreply
  obtain ⟨rfl, request, rfl, hrequestId⟩ := h.request_reply hreply
  refine Program.ends_bind (Program.ends_ofOption fun request' hrequest' => ?_)
  obtain rfl := Option.some.inj hrequest'
  refine Program.ends_bind (Program.Ends.mono (projectRun_ends h hid hrequest) ?_)
  exact fun s₃ _ h₃ => projectRequest_ends h₃ hrequestId

theorem createExecution_ends {run : Run} {request : UserRequest} {project : Project}
    {definition : AcceptedDefinition} {source : String} {executionId : UUID}
    {nodeId : NodeKey → UUID} {now : Instant} (h : Staged requestId run.id [] s) :
    (createExecution run request project definition source executionId nodeId now).Ends Replies
      (fun s' execution => Staged requestId run.id [execution.id] s') s := by
  refine Program.ends_bind fun record s₁ hrecord => ?_
  refine Program.ends_bind (Program.Ends.mono (toExecution_ends (h.executionByRun hrecord) record) ?_)
  intro s₂ existing h₂
  split
  · trivial
  refine Program.ends_bind ((resolvePhasePacks_within _).ends (fun _ _ _ => quiet_replies)
    fun phasePacks => ?_)
  refine Program.ends_bind ((resolveSkills_within _ _).ends (fun _ _ _ => quiet_replies)
    fun skills => ?_)
  refine Program.ends_bind ((routeModels_within _).ends (fun _ _ _ => quiet_replies)
    fun selections => ?_)
  have hcreates : ∀ context, definition.Creates (WorkflowExecution.create
      (WorkflowSnapshot.fromDefinition definition.definition run.id (some context) phasePacks skills
        selections) executionId nodeId now) :=
    fun context => ⟨run.id, _, phasePacks, skills, selections, executionId, nodeId, now, rfl⟩
  refine Program.ends_bind (Program.Ends.mono
    (start_ends (hcreates _) (Option.some_ne_none _) h₂) ?_)
  rintro s₃ execution ⟨h₃, hsnapshot⟩
  refine Program.ends_bind fun reply s₄ hadd => ?_
  refine Program.ends_bind fun reply s₅ happend => ?_
  have h₅ := (h₃.addExecution hadd).append happend
  refine Program.ends_bind (Program.Ends.mono (synchronize_ends h₅ ?_) fun s₆ _ h₆ => h₆)
  rw [hsnapshot]
  rfl

end

end JbOrchestrator.Application
