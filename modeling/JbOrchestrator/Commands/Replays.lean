import JbOrchestrator.Commands.Ledger

/-!
# Replays — repeated requests for publications and workspace operations

A request that is accepted stays in the ledger under its key, whatever becomes of its record, its workspace
and its run.  A repeated request for an operation is always answered with the record.  A request for a
publication is refused when the workspace is released before its key is looked up, and compares the branch of
the execution as it is with the stripped one of the record.
-/

open Lib

namespace JbOrchestrator.Commands

open Domain Workflows Application Outbox ExternalExecutions WorkspaceOperations

/-! ## 1. Later ledgers -/

/-- The execution goes on: its assignment stays, and it does not leave a terminal status. -/
structure Continues (row row' : ManagedExecution) : Prop where
  runId : row'.runId = row.runId
  path : row'.workspacePath = row.workspacePath
  branch : row'.workspaceBranch = row.workspaceBranch
  scope : row'.workspaceScope = row.workspaceScope
  terminal : row.isTerminal = true → row'.isTerminal = true

theorem Continues.refl (row : ManagedExecution) : Continues row row := ⟨rfl, rfl, rfl, rfl, fun h => h⟩

theorem Continues.trans {row row' row'' : ManagedExecution} (h : Continues row row')
    (h' : Continues row' row'') : Continues row row'' :=
  ⟨h'.runId.trans h.runId, h'.path.trans h.path, h'.branch.trans h.branch, h'.scope.trans h.scope,
    fun hterminal => h'.terminal (h.terminal hterminal)⟩

structure Later (s s' : CommandLedger) : Prop where
  publications : Scm.Keeps s.publications s'.publications
  operations : Keeps s.operations s'.operations
  executions : ∀ id row, s.executions.get? id = some row →
    ∃ row', s'.executions.get? id = some row' ∧ Continues row row'
  runs : ∀ id run, s.runs.get? id = some run →
    ∃ run', s'.runs.get? id = some run' ∧ run'.requestId = run.requestId
  requests : ∀ id request, s.requests.get? id = some request →
    ∃ request', s'.requests.get? id = some request' ∧ request'.projectId = request.projectId
  projects : ∀ id project, s.projects.get? id = some project → s'.projects.get? id = some project

theorem Later.refl (s : CommandLedger) : Later s s where
  publications := .refl s.publications
  operations := .refl s.operations
  executions _ row h := ⟨row, h, .refl row⟩
  runs _ run h := ⟨run, h, rfl⟩
  requests _ request h := ⟨request, h, rfl⟩
  projects _ _ h := h

theorem Later.trans {s s' s'' : CommandLedger} (h : Later s s') (h' : Later s' s'') : Later s s'' where
  publications := h.publications.trans h'.publications
  operations := h.operations.trans h'.operations
  executions id row hrow := by
    obtain ⟨row', hrow', hcontinues⟩ := h.executions id row hrow
    obtain ⟨row'', hrow'', hcontinues'⟩ := h'.executions id row' hrow'
    exact ⟨row'', hrow'', hcontinues.trans hcontinues'⟩
  runs id run hrun := by
    obtain ⟨run', hrun', hsame⟩ := h.runs id run hrun
    obtain ⟨run'', hrun'', hsame'⟩ := h'.runs id run' hrun'
    exact ⟨run'', hrun'', hsame'.trans hsame⟩
  requests id request hrequest := by
    obtain ⟨request', hrequest', hsame⟩ := h.requests id request hrequest
    obtain ⟨request'', hrequest'', hsame'⟩ := h'.requests id request' hrequest'
    exact ⟨request'', hrequest'', hsame'.trans hsame⟩
  projects id project hproject := h'.projects id project (h.projects id project hproject)

/-- The tables are found by their keys, and the URLs of projects are stripped. -/
structure Consistent (s : CommandLedger) : Prop where
  publications : Scm.Consistent s.publications
  operations : WorkspaceOperations.Consistent s.operations
  keys : s.executions.keys.Nodup
  id : ∀ id row, s.executions.get? id = some row → row.id = id
  projects : ∀ id project, s.projects.get? id = some project →
    Text.strip project.repositoryUrl = project.repositoryUrl

theorem Consistent.empty : Consistent {} where
  publications := .empty
  operations := .empty
  keys := List.nodup_nil
  id _ _ h := by cases h
  projects _ _ h := by cases h

/-! ## 2. What a call does -/

section

variable {s s' : CommandLedger} {id : UUID} {row row' : ManagedExecution}

/-- A row of an execution is written: the execution goes on, or it is new. -/
theorem later_set (h : ∀ row, s.executions.get? id = some row → Continues row row') :
    Later s { s with executions := s.executions.set id row' } :=
  { Later.refl s with
    executions := by
      intro id' row hrow
      show ∃ _, (s.executions.set id row').get? id' = some _ ∧ _
      rw [Dict.get?_set]
      split
      · rename_i hid
        exact ⟨row', rfl, h row (hid ▸ hrow)⟩
      · exact ⟨row, hrow, .refl row⟩ }

theorem Consistent.set (hs : Consistent s) (hid : row'.id = id) :
    Consistent { s with executions := s.executions.set id row' } :=
  { hs with
    keys := Dict.nodup_keys_set hs.keys id row'
    id := by
      intro id' row hrow
      replace hrow : (s.executions.set id row').get? id' = some row := hrow
      rw [Dict.get?_set] at hrow
      split at hrow
      · rename_i hid'
        obtain rfl := Option.some.inj hrow
        exact hid.trans hid'.symm
      · exact hs.id id' row hrow }

theorem byKey_some (hs : Consistent s) {idempotencyKey : String}
    (h : byKey s.executions idempotencyKey = some row) : s.executions.get? row.id = some row := by
  obtain ⟨id, hrow⟩ := (Dict.mem_values_iff hs.keys).mp (List.mem_of_find?_eq_some h)
  rw [hs.id id row hrow]
  exact hrow

theorem mapError_ok {α ε ε' : Type} {f : ε → ε'} {x : Except ε α} {value : α}
    (h : x.mapError f = .ok value) : x = .ok value := by
  cases x with
  | error error => cases h
  | ok value' => exact congrArg _ (Except.ok.inj h)

theorem change_spec (hs : Consistent s) {idempotencyKey : String}
    {transaction : Option ExternalExecution → Except Raised ExternalExecution}
    {execution : ExternalExecution} {executions : ExecutionTable}
    (htransaction : ∀ (row : ManagedExecution) execution,
      transaction (some row.toExternalExecution) = .ok execution →
        Continues row { row with toExternalExecution := execution })
    (h : change s.executions idempotencyKey transaction = .ok (execution, executions)) :
    Consistent { s with executions } ∧ Later s { s with executions } := by
  obtain ⟨changed, hchanged, h⟩ := bind_ok h
  cases hrow : byKey s.executions idempotencyKey with
  | none =>
    simp only [hrow] at h
    obtain ⟨-, rfl⟩ := Prod.mk.inj (Except.ok.inj h)
    exact ⟨hs, .refl s⟩
  | some row =>
    simp only [hrow] at h
    rw [hrow] at hchanged
    obtain ⟨rfl, rfl⟩ := Prod.mk.inj (Except.ok.inj h)
    refine ⟨hs.set rfl, later_set fun found hfound => ?_⟩
    obtain rfl := Option.some.inj ((byKey_some hs hrow).symm.trans hfound)
    exact htransaction row changed hchanged

theorem accept_continues {idempotencyKey externalRunId : String} (row : ManagedExecution)
    (execution : ExternalExecution)
    (h : ExternalExecutionService.accept idempotencyKey externalRunId (some row.toExternalExecution) =
      .ok execution) : Continues row { row with toExternalExecution := execution } := by
  obtain ⟨stored, hstored, hcases⟩ := ExternalExecutionService.accept_eq_ok h
  obtain rfl := Option.some.inj hstored
  rcases hcases with ⟨-, rfl⟩ | ⟨hopen, -, rfl⟩
  · exact .refl row
  · refine ⟨rfl, rfl, rfl, rfl, fun hterminal => ?_⟩
    rw [hopen] at hterminal
    cases hterminal

theorem finish_continues {idempotencyKey : String} {status : ExternalExecutionStatus}
    {terminalResult : Option JsonObject} {failureReason : Option String} (row : ManagedExecution)
    (execution : ExternalExecution)
    (h : ExternalExecutionService.finish idempotencyKey status terminalResult failureReason
      (some row.toExternalExecution) = .ok execution) :
    Continues row { row with toExternalExecution := execution } := by
  obtain ⟨stored, hstored, hterminal, hcases⟩ := ExternalExecutionService.finish_eq_ok h
  obtain rfl := Option.some.inj hstored
  rcases hcases with ⟨-, -, rfl⟩ | ⟨-, rfl⟩
  · exact .refl row
  · exact ⟨rfl, rfl, rfl, rfl, fun _ => hterminal⟩

theorem releaseWorkspace_continues {at_ : Instant} (h : row.releaseWorkspace at_ = .ok row') :
    row'.id = row.id ∧ Continues row row' := by
  unfold ManagedExecution.releaseWorkspace at h
  split at h
  · cases h
  split at h
  · cases h
  split at h
  · obtain rfl := Except.ok.inj h
    exact ⟨rfl, .refl row⟩
  · obtain rfl := Except.ok.inj h
    exact ⟨rfl, rfl, rfl, rfl, rfl, fun hterminal => hterminal⟩

theorem prepare_spec (hs : Consistent s) {claim : TaskClaim} {sessionKey : String}
    {agentId : Option String} {assignment : WorkspaceAssignment} {execution : ExternalExecution}
    (h : s.prepare claim sessionKey agentId assignment id = .ok (execution, s')) :
    Consistent s' ∧ Later s s' := by
  obtain ⟨prepared, -, h⟩ := bind_ok h
  split at h
  · obtain ⟨-, rfl⟩ := Prod.mk.inj (Except.ok.inj h)
    exact ⟨hs, .refl s⟩
  split at h
  · cases h
  · rename_i hnew
    obtain ⟨-, rfl⟩ := Prod.mk.inj (Except.ok.inj h)
    refine ⟨hs.set rfl, later_set fun row hrow => ?_⟩
    rw [hrow] at hnew
    exact absurd rfl hnew

theorem releaseWorkspace_spec (hs : Consistent s) {at_ : Instant} {execution : ExternalExecution}
    (h : s.releaseWorkspace id at_ = .ok (execution, s')) : Consistent s' ∧ Later s s' := by
  unfold CommandLedger.releaseWorkspace at h
  split at h
  · cases h
  rename_i row hrow
  split at h
  · obtain ⟨-, rfl⟩ := Prod.mk.inj (Except.ok.inj h)
    exact ⟨hs, .refl s⟩
  · obtain ⟨released, hreleased, h⟩ := bind_ok h
    obtain ⟨-, rfl⟩ := Prod.mk.inj (Except.ok.inj h)
    obtain ⟨hid, hcontinues⟩ := releaseWorkspace_continues hreleased
    refine ⟨hs.set (hid.trans (hs.id id row hrow)), later_set fun found hfound => ?_⟩
    obtain rfl := Option.some.inj (hrow.symm.trans hfound)
    exact hcontinues

theorem saveRun_spec (hs : Consistent s) (run : Run) :
    Consistent (s.saveRun run) ∧ Later s (s.saveRun run) := by
  have hset : ∀ run', (∀ stored, s.runs.get? run.id = some stored → run'.requestId = stored.requestId) →
      Later s { s with runs := s.runs.set run.id run' } := fun run' hsame =>
    { Later.refl s with
      runs := by
        intro id' stored hstored
        show ∃ _, (s.runs.set run.id run').get? id' = some _ ∧ _
        rw [Dict.get?_set]
        split
        · rename_i hid
          exact ⟨run', rfl, hsame stored (hid ▸ hstored)⟩
        · exact ⟨stored, hstored, rfl⟩ }
  unfold CommandLedger.saveRun
  cases hrun : s.runs.get? run.id with
  | none => exact ⟨{ hs with }, hset run fun stored hstored => by cases hrun.symm.trans hstored⟩
  | some stored =>
    refine ⟨{ hs with }, hset _ fun found hfound => ?_⟩
    obtain rfl := Option.some.inj (hrun.symm.trans hfound)
    rfl

theorem saveRequest_spec (hs : Consistent s) (request : UserRequest) :
    Consistent (s.saveRequest request) ∧ Later s (s.saveRequest request) := by
  have hset : ∀ request', (∀ stored, s.requests.get? request.id = some stored →
      request'.projectId = stored.projectId) →
      Later s { s with requests := s.requests.set request.id request' } := fun request' hsame =>
    { Later.refl s with
      requests := by
        intro id' stored hstored
        show ∃ _, (s.requests.set request.id request').get? id' = some _ ∧ _
        rw [Dict.get?_set]
        split
        · rename_i hid
          exact ⟨request', rfl, hsame stored (hid ▸ hstored)⟩
        · exact ⟨stored, hstored, rfl⟩ }
  unfold CommandLedger.saveRequest
  cases hrequest : s.requests.get? request.id with
  | none =>
    exact ⟨{ hs with }, hset request fun stored hstored => by cases hrequest.symm.trans hstored⟩
  | some stored =>
    refine ⟨{ hs with }, hset _ fun found hfound => ?_⟩
    obtain rfl := Option.some.inj (hrequest.symm.trans hfound)
    rfl

theorem newProject_ok {key name repositoryUrl defaultBranch : String} {project : Project}
    (h : newProject id key name repositoryUrl defaultBranch = .ok project) :
    project.repositoryUrl = Text.strip repositoryUrl := by
  unfold newProject at h
  split at h
  · cases h
  split at h
  · cases h
  split at h
  · cases h
  split at h
  · cases h
  · obtain rfl := Except.ok.inj h
    rfl

theorem registerProject_spec (hs : Consistent s) {key name repositoryUrl defaultBranch : String}
    {project : Project}
    (h : s.registerProject id key name repositoryUrl defaultBranch = .ok (project, s')) :
    Consistent s' ∧ Later s s' := by
  obtain ⟨created, hcreated, h⟩ := bind_ok h
  have hurl := newProject_ok (raiseDomain_ok hcreated)
  split at h
  · cases h
  split at h
  · cases h
  · rename_i hnew
    obtain ⟨rfl, rfl⟩ := Prod.mk.inj (Except.ok.inj h)
    refine ⟨{ hs with projects := ?_ }, { Later.refl s with projects := ?_ }⟩
    · intro id' other hother
      replace hother : (s.projects.set id created).get? id' = some other := hother
      rw [Dict.get?_set] at hother
      split at hother
      · obtain rfl := Option.some.inj hother
        rw [hurl, Text.strip_strip]
      · exact hs.projects id' other hother
    · intro id' other hother
      show (s.projects.set id created).get? id' = some other
      rw [Dict.get?_set]
      split
      · rename_i hid
        rw [hid] at hother
        rw [hother] at hnew
        exact absurd rfl hnew
      · exact hother

/-- What a call does, and what it leaves of every row that was there. -/
theorem perform_spec (hs : Consistent s) {call : LedgerCall} {answer : LedgerAnswer}
    (h : s.perform call = .ok (answer, s')) : Consistent s' ∧ Later s s' := by
  have hoperations : ∀ operations events, WorkspaceOperations.Consistent operations ∧
      Keeps s.operations operations →
      Consistent { s with operations, events } ∧ Later s { s with operations, events } :=
    fun operations events h => ⟨{ hs with operations := h.1 }, { Later.refl s with operations := h.2 }⟩
  cases call with
  | publications call =>
    obtain ⟨⟨found, publications⟩, hfound, h⟩ := bind_ok h
    obtain ⟨-, rfl⟩ := Prod.mk.inj (Except.ok.inj h)
    obtain ⟨hconsistent, hkeeps⟩ := Scm.Call.perform_keeps hs.publications (mapError_ok hfound)
    exact ⟨{ hs with publications := hconsistent }, { Later.refl s with publications := hkeeps }⟩
  | requestOperation externalExecutionId arguments id at_ =>
    obtain ⟨⟨⟨operation, replayed⟩, operations⟩, hrequest, h⟩ := bind_ok h
    obtain ⟨-, rfl⟩ := Prod.mk.inj (Except.ok.inj h)
    obtain ⟨-, -, -, -, -, hok⟩ := request_ok (mapError_ok hrequest)
    exact hoperations operations _ (hok.keeps hs.operations)
  | claimOperation workerId workspaceScope leaseSeconds token locked now =>
    obtain ⟨⟨operation, operations⟩, hclaim, h⟩ := bind_ok h
    obtain ⟨-, rfl⟩ := Prod.mk.inj (Except.ok.inj h)
    exact hoperations operations _ (claimNext_keeps hs.operations (mapError_ok hclaim))
  | succeedOperation operationId leaseToken result at_ =>
    obtain ⟨⟨operation, operations⟩, hfinish, h⟩ := bind_ok h
    obtain ⟨-, rfl⟩ := Prod.mk.inj (Except.ok.inj h)
    exact hoperations operations _ (finish_keeps (fun _ _ => WorkspaceOperation.succeed_sameCommand)
      hs.operations (mapError_ok hfinish))
  | failOperation operationId leaseToken reason at_ =>
    obtain ⟨⟨operation, operations⟩, hfinish, h⟩ := bind_ok h
    obtain ⟨-, rfl⟩ := Prod.mk.inj (Except.ok.inj h)
    exact hoperations operations _ (finish_keeps (fun _ _ => WorkspaceOperation.fail_sameCommand)
      hs.operations (mapError_ok hfinish))
  | prepare claim sessionKey agentId assignment id =>
    obtain ⟨⟨execution, prepared⟩, hprepare, h⟩ := bind_ok h
    obtain ⟨-, rfl⟩ := Prod.mk.inj (Except.ok.inj h)
    exact prepare_spec hs (mapError_ok hprepare)
  | accept idempotencyKey externalRunId =>
    obtain ⟨⟨execution, executions⟩, hchange, h⟩ := bind_ok h
    obtain ⟨-, rfl⟩ := Prod.mk.inj (Except.ok.inj h)
    exact change_spec hs accept_continues (mapError_ok hchange)
  | finish idempotencyKey status terminalResult failureReason =>
    obtain ⟨⟨execution, executions⟩, hchange, h⟩ := bind_ok h
    obtain ⟨-, rfl⟩ := Prod.mk.inj (Except.ok.inj h)
    exact change_spec hs finish_continues (mapError_ok hchange)
  | releaseWorkspace executionId at_ =>
    obtain ⟨⟨execution, released⟩, hrelease, h⟩ := bind_ok h
    obtain ⟨-, rfl⟩ := Prod.mk.inj (Except.ok.inj h)
    exact releaseWorkspace_spec hs (mapError_ok hrelease)
  | saveRun run =>
    obtain ⟨-, rfl⟩ := Prod.mk.inj (Except.ok.inj h)
    exact saveRun_spec hs run
  | saveRequest request =>
    obtain ⟨-, rfl⟩ := Prod.mk.inj (Except.ok.inj h)
    exact saveRequest_spec hs request
  | registerProject id key name repositoryUrl defaultBranch =>
    obtain ⟨⟨project, registered⟩, hregister, h⟩ := bind_ok h
    obtain ⟨-, rfl⟩ := Prod.mk.inj (Except.ok.inj h)
    exact registerProject_spec hs (mapError_ok hregister)

theorem step_spec (hs : Consistent s) (call : LedgerCall) :
    Consistent (s.step call).2 ∧ Later s (s.step call).2 := by
  unfold CommandLedger.step
  cases h : s.perform call with
  | error error => exact ⟨hs, .refl s⟩
  | ok result => exact perform_spec hs h

theorem run_spec (hs : Consistent s) (calls : List LedgerCall) :
    Consistent (commands.run s calls) ∧ Later s (commands.run s calls) :=
  commands.run_invariant (I := fun s' => Consistent s' ∧ Later s s')
    (fun s' call h => by
      obtain ⟨hconsistent, hlater⟩ := step_spec h.1 call
      exact ⟨hconsistent, h.2.trans hlater⟩) ⟨hs, .refl s⟩ calls

end

/-! ## 3. Repeated requests for publications -/

/-- Requests for a publication that agree in what the caller sends, as far as it is compared. -/
structure SameArguments (arguments₀ arguments : Scm.PublicationArguments) : Prop where
  providerKey : Text.strip arguments.providerKey = Text.strip arguments₀.providerKey
  targetBranch : Text.strip arguments.targetBranch = Text.strip arguments₀.targetBranch
  title : Text.strip arguments.title = Text.strip arguments₀.title
  body : Text.strip arguments.body = Text.strip arguments₀.body

/-- The info of a publication that was added for `values`, or found for it. -/
structure Matches (info values : Scm.PublicationInfo) : Prop where
  externalExecutionId : info.externalExecutionId = values.externalExecutionId
  providerKey : info.providerKey = values.providerKey
  repository : info.repository = Text.strip values.repository
  sourceBranch : info.sourceBranch = Text.strip values.sourceBranch
  targetBranch : info.targetBranch = values.targetBranch
  title : info.title = values.title
  body : info.body = values.body
  idempotencyKey : info.idempotencyKey = values.idempotencyKey

/-- The publication is in the ledger, with the rows that its request has read. -/
structure Recorded (s : CommandLedger) (externalExecutionId : UUID)
    (arguments : Scm.PublicationArguments) (publication : Scm.ScmPublication) (row : ManagedExecution)
    (project : Project) : Prop where
  stored : s.executions.get? externalExecutionId = some row
  admits : Scm.Admits s.surroundings externalExecutionId row.scm project
  key : Text.isBlank arguments.idempotencyKey = false
  entry : ∃ entry, s.publications.jobs.get? publication.job.id = some entry ∧
    entry.info = publication.info ∧ entry.job.id = publication.job.id
  info : Matches publication.info (Scm.requested externalExecutionId row.scm project arguments)

section

variable {s s' : CommandLedger} {externalExecutionId id : UUID} {view : Scm.Surroundings}
  {arguments₀ arguments : Scm.PublicationArguments} {publication : Scm.ScmPublication}
  {row : ManagedExecution} {project : Project} {at_ : Instant}

theorem sameValues_iff {existing values : Scm.PublicationInfo} :
    Scm.sameValues existing values = true ↔ existing.providerKey = values.providerKey ∧
      existing.repository = values.repository ∧ existing.sourceBranch = values.sourceBranch ∧
      existing.targetBranch = values.targetBranch ∧ existing.title = values.title ∧
      existing.body = values.body := by
  unfold Scm.sameValues
  simp only [Bool.and_eq_true, decide_eq_true_eq, and_assoc]

theorem surroundings_some {execution : Scm.ExternalExecution}
    (h : s.surroundings.executions externalExecutionId = some execution) :
    ∃ row, s.executions.get? externalExecutionId = some row ∧ execution = row.scm := by
  obtain ⟨row, hrow, hexecution⟩ := Option.map_eq_some_iff.mp h
  exact ⟨row, hrow, hexecution.symm⟩

theorem project_ok {execution : Scm.ExternalExecution}
    (h : s.surroundings.project execution = .ok project) :
    ∃ run request, s.runs.get? execution.runId = some run ∧
      s.requests.get? run.requestId = some request ∧
      s.projects.get? request.projectId = some project := by
  unfold Scm.Surroundings.project at h
  split at h
  · cases h
  rename_i run hrun
  split at h
  · cases h
  rename_i request hrequest
  split at h
  · cases h
  rename_i found hproject
  obtain rfl := Except.ok.inj h
  exact ⟨run, request, hrun, hrequest, hproject⟩

/-- The rows that a request has read lead to the same project later. -/
theorem admits_later (hlater : Later s s')
    (hrow : s.executions.get? externalExecutionId = some row)
    (h : Scm.Admits s.surroundings externalExecutionId row.scm project) :
    ∃ row', s'.executions.get? externalExecutionId = some row' ∧
      row'.workspaceBranch = row.workspaceBranch ∧
      Scm.Admits s'.surroundings externalExecutionId row'.scm project := by
  obtain ⟨row', hrow', hcontinues⟩ := hlater.executions externalExecutionId row hrow
  obtain ⟨run, request, hrun, hrequest, hproject⟩ := project_ok h.owner
  obtain ⟨run', hrun', hrequestId⟩ := hlater.runs _ run hrun
  obtain ⟨request', hrequest', hprojectId⟩ := hlater.requests _ request hrequest
  have hproject' := hlater.projects _ project hproject
  refine ⟨row', hrow', hcontinues.branch, ?_, hcontinues.terminal h.terminal, ?_, ?_, ?_⟩
  · show (s'.executions.get? externalExecutionId).map ManagedExecution.scm = _
    rw [hrow']
    rfl
  · show row'.workspaceBranch.getD "" ≠ ""
    rw [hcontinues.branch]
    exact h.branch
  · show row'.workspaceScope.getD "" ≠ ""
    rw [hcontinues.scope]
    exact h.scope
  · unfold Scm.Surroundings.project
    have hrunId : s'.surroundings.runs row'.scm.runId = some run' := by
      show s'.runs.get? row'.runId = some run'
      rw [hcontinues.runId]
      exact hrun'
    have hrequest'' : s'.surroundings.requests run'.requestId = some request' := by
      rw [hrequestId]
      exact hrequest'
    have hproject'' : s'.surroundings.projects request'.projectId = some project := by
      rw [hprojectId]
      exact hproject'
    simp only [hrunId, hrequest'', hproject'']

theorem Recorded.later (h : Recorded s externalExecutionId arguments publication row project)
    (hlater : Later s s') :
    ∃ row', Recorded s' externalExecutionId arguments publication row' project := by
  obtain ⟨row', hrow', hbranch, hadmits⟩ := admits_later hlater h.stored h.admits
  obtain ⟨entry, hentry, hinfo, hid⟩ := h.entry
  obtain ⟨entry', hentry', hinfo', hid'⟩ := hlater.publications _ entry hentry
  refine ⟨row', hrow', hadmits, h.key, ⟨entry', hentry', hinfo'.trans hinfo, hid'.trans hid⟩,
    { h.info with sourceBranch := ?_ }⟩
  have hsource := h.info.sourceBranch
  unfold Scm.requested ManagedExecution.scm at hsource ⊢
  rw [hbranch]
  exact hsource

/-- A request that is accepted is recorded. -/
theorem recorded_of_ok (hs : Consistent s) {replayed : Bool} {publications : Scm.PublicationTable}
    (events : List LedgerEvent)
    (h : Scm.request s.publications s.surroundings externalExecutionId arguments id at_ =
      .ok ((publication, replayed), publications)) :
    ∃ row project, Recorded { s with publications, events } externalExecutionId arguments publication
      row project := by
  obtain ⟨hkey, execution, project, hadmits, -, hok⟩ := Scm.request_ok h
  obtain ⟨row, hrow, rfl⟩ := surroundings_some hadmits.row
  suffices (∃ entry, publications.jobs.get? publication.job.id = some entry ∧
      entry.info = publication.info ∧ entry.job.id = publication.job.id) ∧
      Matches publication.info (Scm.requested externalExecutionId row.scm project arguments) from
    ⟨row, project, hrow, ⟨hadmits.row, hadmits.terminal, hadmits.branch, hadmits.scope, hadmits.owner⟩,
      hkey, this.1, this.2⟩
  cases hok with
  | replayed hfound hsame =>
    obtain ⟨⟨id', hentry⟩, hcolumn⟩ := Dict.findBy_some hs.publications.indexed.keys hfound
    obtain ⟨hid, -⟩ := hs.publications.valid.sound id' publication hentry
    obtain ⟨hexecution, hidempotency⟩ := Prod.mk.inj hcolumn
    obtain ⟨hprovider, hrepository, hsource, htarget, htitle, hbody⟩ := sameValues_iff.mp hsame
    -- what is stored is stripped, so that it agrees with the stripped values too
    have hnormalized := hs.publications.normalized id' publication hentry
    refine ⟨⟨publication, hid ▸ hentry, rfl, rfl⟩, hexecution, hprovider, ?_, ?_, htarget, htitle, hbody,
      hidempotency⟩
    · rw [← hrepository]
      exact (congrArg Scm.PublicationInfo.repository hnormalized).symm
    · rw [← hsource]
      exact (congrArg Scm.PublicationInfo.sourceBranch hnormalized).symm
  | created hnone hinfo hnew hjobs =>
    refine ⟨⟨publication, ?_, rfl, rfl⟩, ?_⟩
    · show publications.jobs.get? publication.job.id = some publication
      rw [hjobs, Dict.get?_set_self]
    · rw [hinfo]
      exact ⟨rfl, Text.strip_strip _, rfl, rfl, Text.strip_strip _, Text.strip_strip _,
        Text.strip_strip _, Text.strip_strip _⟩

theorem isBlank_congr {text text' : String} (h : Text.strip text' = Text.strip text) :
    Text.isBlank text' = Text.isBlank text := by
  rw [Bool.eq_iff_iff, Text.isBlank_iff, Text.isBlank_iff, h]

/-- What a request under the key of a recorded publication is answered: the publication, where the workspace
is unreleased and its branch the stripped one, and the arguments agree. -/
theorem request_recorded (hs : Consistent s) (id : UUID) (at_ : Instant)
    (h : Recorded s externalExecutionId arguments₀ publication row project)
    (hkey : Text.strip arguments.idempotencyKey = Text.strip arguments₀.idempotencyKey) :
    ∃ entry, s.publications.jobs.get? publication.job.id = some entry ∧ entry.info = publication.info ∧
      ((row.workspaceReleasedAt = none ∧ SameArguments arguments₀ arguments ∧
          Text.strip (row.workspaceBranch.getD "") = row.workspaceBranch.getD "" ∧
          Scm.request s.publications s.surroundings externalExecutionId arguments id at_ =
            .ok ((entry, true), s.publications)) ∨
        (¬(row.workspaceReleasedAt = none ∧ SameArguments arguments₀ arguments ∧
            Text.strip (row.workspaceBranch.getD "") = row.workspaceBranch.getD "") ∧
          ∃ message, Scm.request s.publications s.surroundings externalExecutionId arguments id at_ =
            .error (.resourceConflict message))) := by
  obtain ⟨entry, hentry, hinfo, -⟩ := h.entry
  refine ⟨entry, hentry, hinfo, ?_⟩
  have hblank : Text.isBlank arguments.idempotencyKey = false := by
    rw [isBlank_congr hkey]
    exact h.key
  have hfound : s.publications.jobs.findBy Scm.publicationKey
      (externalExecutionId, Text.strip arguments.idempotencyKey) = some entry := by
    have hcolumn : Scm.publicationKey entry =
        (externalExecutionId, Text.strip arguments.idempotencyKey) := by
      unfold Scm.publicationKey
      rw [hinfo, hkey, h.info.externalExecutionId, h.info.idempotencyKey]
      rfl
    rw [← hcolumn]
    exact hs.publications.indexed.findBy hentry
  obtain ⟨run, request, -, -, hproject⟩ := project_ok h.admits.owner
  have hurl := hs.projects _ project hproject
  have hsame : Scm.sameValues entry.info (Scm.requested externalExecutionId row.scm project arguments) =
      true ↔ SameArguments arguments₀ arguments ∧
        Text.strip (row.workspaceBranch.getD "") = row.workspaceBranch.getD "" := by
    rw [sameValues_iff, hinfo, h.info.providerKey, h.info.repository, h.info.sourceBranch,
      h.info.targetBranch, h.info.title, h.info.body]
    constructor
    · rintro ⟨hprovider, -, hsource, htarget, htitle, hbody⟩
      exact ⟨⟨hprovider.symm, htarget.symm, htitle.symm, hbody.symm⟩, hsource⟩
    · rintro ⟨harguments, hsource⟩
      exact ⟨harguments.providerKey.symm, hurl, hsource, harguments.targetBranch.symm,
        harguments.title.symm, harguments.body.symm⟩
  by_cases hreleased : row.workspaceReleasedAt = none
  · rw [Scm.request_found hblank h.admits hreleased hfound]
    unfold Scm.replay
    by_cases hcompared : Scm.sameValues entry.info
        (Scm.requested externalExecutionId row.scm project arguments) = true
    · obtain ⟨harguments, hbranch⟩ := hsame.mp hcompared
      rw [hcompared, if_neg (by decide)]
      exact .inl ⟨hreleased, harguments, hbranch, rfl⟩
    · rw [if_pos (by simpa using hcompared)]
      refine .inr ⟨fun hall => hcompared (hsame.mpr hall.2), _, rfl⟩
  · refine .inr ⟨fun hall => hreleased hall.1, "SCM publication requires an unreleased workspace", ?_⟩
    exact Scm.request_released hblank h.admits hreleased

theorem step_request_ok (view : Scm.Surroundings) {replayed : Bool} {publications : Scm.PublicationTable}
    (h : Scm.request s.publications s.surroundings externalExecutionId arguments id at_ =
      .ok ((publication, replayed), publications)) :
    ∃ events, s.step (.publications (.request view externalExecutionId arguments id at_)) =
      (.ok (.publication (.replay publication replayed)), { s with publications, events }) ∧
      (replayed = true → events = s.events) := by
  unfold CommandLedger.step CommandLedger.perform Scm.Call.reading Scm.Call.perform
  simp only [h, bind, Except.bind, Except.mapError]
  refine ⟨_, rfl, fun hreplayed => ?_⟩
  rw [hreplayed]
  exact List.append_nil s.events

theorem step_request_error (view : Scm.Surroundings) {error : ServiceError}
    (h : Scm.request s.publications s.surroundings externalExecutionId arguments id at_ = .error error) :
    s.step (.publications (.request view externalExecutionId arguments id at_)) =
      (.error (.service error), s) := by
  unfold CommandLedger.step CommandLedger.perform Scm.Call.reading Scm.Call.perform
  simp only [h, bind, Except.bind, Except.mapError]

/-- A request that is accepted is recorded in the ledger that it leaves. -/
theorem step_recorded (hs : Consistent s) {replayed : Bool}
    (h : (s.step (.publications (.request view externalExecutionId arguments id at_))).1 =
      .ok (.publication (.replay publication replayed))) :
    ∃ row project,
      Recorded (s.step (.publications (.request view externalExecutionId arguments id at_))).2
        externalExecutionId arguments publication row project := by
  cases hrequest : Scm.request s.publications s.surroundings externalExecutionId arguments id at_ with
  | error error =>
    rw [step_request_error view hrequest] at h
    cases h
  | ok answer =>
    obtain ⟨⟨found, replayed'⟩, publications⟩ := answer
    obtain ⟨events, hstep, -⟩ := step_request_ok view hrequest
    rw [hstep] at h ⊢
    obtain ⟨rfl, rfl⟩ : found = publication ∧ replayed' = replayed := by
      simpa using h
    exact recorded_of_ok hs events hrequest

end

/-! ## 4. Repeated requests for operations -/

/-- Requests for an operation that agree in what is compared. -/
structure SameOperation (arguments₀ arguments : OperationArguments) : Prop where
  kind : arguments.kind = arguments₀.kind
  targetRef : Text.strip arguments.targetRef = Text.strip arguments₀.targetRef

/-- A cleanup names the execution once more. -/
def Confirmed (externalExecutionId : UUID) (arguments : OperationArguments) : Prop :=
  arguments.kind = .cleanup → arguments.confirmation = some (toString externalExecutionId)

/-- The operation is in the ledger, with a row that lets its request pass. -/
structure RecordedOperation (s : CommandLedger) (externalExecutionId : UUID)
    (arguments : OperationArguments) (operation : WorkspaceOperation) (row : ManagedExecution) : Prop where
  admits : Admits s.executions.get? externalExecutionId row arguments.kind
  key : Text.isBlank arguments.idempotencyKey = false
  entry : ∃ entry, s.operations.get? operation.id = some entry ∧ SameCommand operation entry
  kind : operation.kind = arguments.kind
  targetRef : operation.targetRef = Text.strip arguments.targetRef
  column : operationKey operation = (externalExecutionId, Text.strip arguments.idempotencyKey)

section

variable {s s' : CommandLedger} {externalExecutionId id : UUID} {arguments₀ arguments : OperationArguments}
  {operation : WorkspaceOperation} {row : ManagedExecution} {at_ : Instant}

theorem RecordedOperation.later (h : RecordedOperation s externalExecutionId arguments operation row)
    (hlater : Later s s') :
    ∃ row', RecordedOperation s' externalExecutionId arguments operation row' := by
  obtain ⟨row', hrow', hcontinues⟩ := hlater.executions externalExecutionId row h.admits.stored
  obtain ⟨entry, hentry, hsame⟩ := h.entry
  obtain ⟨entry', hentry', hsame'⟩ := hlater.operations _ entry hentry
  refine ⟨row', ⟨hrow', ?_, ?_, fun hcleanup => hcontinues.terminal (h.admits.terminal hcleanup)⟩, h.key,
    ⟨entry', hentry', hsame.trans hsame'⟩, h.kind, h.targetRef, h.column⟩
  · rw [hcontinues.path]
    exact h.admits.path
  · rw [hcontinues.scope]
    exact h.admits.scope

theorem recordedOperation_of_ok (hs : Consistent s) {replayed : Bool} {operations : OperationTable}
    (events : List LedgerEvent)
    (h : request s.operations s.executions.get? externalExecutionId arguments id at_ =
      .ok ((operation, replayed), operations)) :
    ∃ row, RecordedOperation { s with operations, events } externalExecutionId arguments operation row := by
  obtain ⟨hkey, -, ⟨row, hadmits⟩, hkind, htarget, hok⟩ := request_ok h
  suffices (∃ entry, operations.get? operation.id = some entry ∧ SameCommand operation entry) ∧
      operationKey operation = (externalExecutionId, Text.strip arguments.idempotencyKey) from
    ⟨row, ⟨hadmits.stored, hadmits.path, hadmits.scope, hadmits.terminal⟩, hkey, this.1, hkind, htarget,
      this.2⟩
  cases hok with
  | replayed hfound =>
    obtain ⟨⟨id', hentry⟩, hcolumn⟩ := Dict.findBy_some hs.operations.indexed.keys hfound
    have hid := hs.operations.id id' operation hentry
    exact ⟨⟨operation, hid ▸ hentry, .refl operation⟩, hcolumn⟩
  | created hnone hcolumn hnew =>
    exact ⟨⟨operation, Dict.get?_set_self _ _ _, .refl operation⟩, hcolumn⟩

/-- A cleanup of an execution that goes on is refused before its key is looked up. -/
theorem request_active (hkey : Text.isBlank arguments.idempotencyKey = false)
    (hconfirmed : Confirmed externalExecutionId arguments)
    (hstored : s.executions.get? externalExecutionId = some row)
    (hpath : given row.workspacePath = true) (hscope : given row.workspaceScope = true)
    (hkind : arguments.kind = .cleanup) (hactive : row.isTerminal = false) :
    request s.operations s.executions.get? externalExecutionId arguments id at_ =
      .error (.resourceConflict "workspace cleanup requires a terminal external execution") := by
  have hexecution : execution s.executions.get? externalExecutionId = .ok row := by
    unfold execution
    rw [hstored]
  unfold request
  rw [hkey, if_neg (by decide), if_neg fun h => h.2 (hconfirmed h.1), hexecution]
  simp only [bind, Except.bind]
  rw [if_neg (by rw [hpath, hscope]; decide), if_pos ⟨hkind, hactive⟩]

theorem request_unconfirmed (s : CommandLedger) (id : UUID) (at_ : Instant)
    (hkey : Text.isBlank arguments.idempotencyKey = false)
    (hunconfirmed : ¬Confirmed externalExecutionId arguments) :
    request s.operations s.executions.get? externalExecutionId arguments id at_ =
      .error (.domain (.domainValidationError
        "cleanup confirmation must equal the external execution UUID")) := by
  unfold request
  rw [hkey, if_neg (by decide), if_pos (Classical.not_imp.mp hunconfirmed)]

/-- What a confirmed request under the key of a recorded operation is answered. -/
theorem request_recordedOperation (hs : Consistent s) (id : UUID) (at_ : Instant)
    (h : RecordedOperation s externalExecutionId arguments₀ operation row)
    (hkey : Text.strip arguments.idempotencyKey = Text.strip arguments₀.idempotencyKey)
    (hconfirmed : Confirmed externalExecutionId arguments) :
    ∃ entry, s.operations.get? operation.id = some entry ∧ SameCommand operation entry ∧
      ((SameOperation arguments₀ arguments ∧
          request s.operations s.executions.get? externalExecutionId arguments id at_ =
            .ok ((entry, true), s.operations)) ∨
        (¬SameOperation arguments₀ arguments ∧
          ∃ message, request s.operations s.executions.get? externalExecutionId arguments id at_ =
            .error (.resourceConflict message))) := by
  obtain ⟨entry, hentry, hsame⟩ := h.entry
  refine ⟨entry, hentry, hsame, ?_⟩
  have hblank : Text.isBlank arguments.idempotencyKey = false := by
    rw [isBlank_congr hkey]
    exact h.key
  -- a cleanup under the key of another command needs a terminal execution before it is compared
  by_cases hactive : arguments.kind = .cleanup ∧ row.isTerminal = false
  · refine .inr ⟨fun hsameArguments => ?_, _, request_active hblank hconfirmed h.admits.stored
      h.admits.path h.admits.scope hactive.1 hactive.2⟩
    have hterminal := h.admits.terminal (hsameArguments.kind ▸ hactive.1)
    rw [hactive.2] at hterminal
    cases hterminal
  have hadmits : Admits s.executions.get? externalExecutionId row arguments.kind :=
    ⟨h.admits.stored, h.admits.path, h.admits.scope, fun hcleanup => by simpa [hcleanup] using hactive⟩
  have hfound : s.operations.findBy operationKey
      (externalExecutionId, Text.strip arguments.idempotencyKey) = some entry := by
    rw [hkey, ← h.column, ← hsame.column]
    exact hs.operations.indexed.findBy hentry
  rw [request_found hblank hconfirmed hadmits hfound]
  unfold WorkspaceOperations.replay
  by_cases hcompared : SameOperation arguments₀ arguments
  · refine .inl ⟨hcompared, if_neg (not_or.mpr ⟨not_not.mpr ?_, not_not.mpr ?_⟩)⟩
    · exact hsame.kind.trans (h.kind.trans hcompared.kind.symm)
    · exact hsame.targetRef.trans (h.targetRef.trans hcompared.targetRef.symm)
  · refine .inr ⟨hcompared, "idempotency key was already used for another command", if_pos ?_⟩
    by_contra hagree
    obtain ⟨hkind, htarget⟩ := not_or.mp hagree
    refine hcompared ⟨?_, ?_⟩
    · exact (not_not.mp hkind).symm.trans (hsame.kind.trans h.kind)
    · exact (not_not.mp htarget).symm.trans (hsame.targetRef.trans h.targetRef)

theorem step_requestOperation_ok {replayed : Bool} {operations : OperationTable}
    (h : request s.operations s.executions.get? externalExecutionId arguments id at_ =
      .ok ((operation, replayed), operations)) :
    ∃ events, s.step (.requestOperation externalExecutionId arguments id at_) =
      (.ok (.operation operation replayed), { s with operations, events }) ∧
      (replayed = true → events = s.events) := by
  unfold CommandLedger.step CommandLedger.perform
  simp only [h, bind, Except.bind, Except.mapError]
  refine ⟨_, rfl, fun hreplayed => ?_⟩
  rw [hreplayed]
  exact List.append_nil s.events

theorem step_requestOperation_error {error : ServiceError}
    (h : request s.operations s.executions.get? externalExecutionId arguments id at_ = .error error) :
    s.step (.requestOperation externalExecutionId arguments id at_) = (.error (.service error), s) := by
  unfold CommandLedger.step CommandLedger.perform
  simp only [h, bind, Except.bind, Except.mapError]

theorem step_recordedOperation (hs : Consistent s) {replayed : Bool}
    (h : (s.step (.requestOperation externalExecutionId arguments id at_)).1 =
      .ok (.operation operation replayed)) :
    ∃ row, RecordedOperation (s.step (.requestOperation externalExecutionId arguments id at_)).2
      externalExecutionId arguments operation row := by
  cases hrequest : request s.operations s.executions.get? externalExecutionId arguments id at_ with
  | error error =>
    rw [step_requestOperation_error hrequest] at h
    cases h
  | ok answer =>
    obtain ⟨⟨found, replayed'⟩, operations⟩ := answer
    obtain ⟨events, hstep, -⟩ := step_requestOperation_ok hrequest
    rw [hstep] at h ⊢
    obtain ⟨rfl, rfl⟩ : found = operation ∧ replayed' = replayed := by
      simpa using h
    exact recordedOperation_of_ok hs events hrequest

end

/-! ## 5. Repeated requests of a run -/

/-- The transition asks for a publication. -/
def AsksPublication (t : CommandStep) (externalExecutionId : UUID)
    (arguments : Scm.PublicationArguments) : Prop :=
  ∃ view id at_, t.input = .publications (.request view externalExecutionId arguments id at_)

/-- The transition asks for an operation. -/
def AsksOperation (t : CommandStep) (externalExecutionId : UUID) (arguments : OperationArguments) :
    Prop :=
  ∃ id at_, t.input = .requestOperation externalExecutionId arguments id at_

/-- `t` is a later transition than `t₀` of the run. -/
def Follows (calls : List LedgerCall) (t₀ t : CommandStep) : Prop :=
  ∃ earlier call between call' later, calls = earlier ++ call :: (between ++ call' :: later) ∧
    t₀ = commands.fire (commands.run {} earlier) call ∧
    t = commands.fire (commands.run t₀.after between) call'

/-- `t` asks for a publication under the key with which `t₀` was answered with `publication`. -/
structure RepeatsPublication (calls : List LedgerCall) (t₀ t : CommandStep) (externalExecutionId : UUID)
    (arguments₀ arguments : Scm.PublicationArguments) (publication : Scm.ScmPublication) : Prop where
  follows : Follows calls t₀ t
  first : AsksPublication t₀ externalExecutionId arguments₀
  accepted : ∃ replayed, t₀.output = .ok (.publication (.replay publication replayed))
  again : AsksPublication t externalExecutionId arguments
  key : Text.strip arguments.idempotencyKey = Text.strip arguments₀.idempotencyKey

/-- `t` asks for an operation under the key with which `t₀` was answered with `operation`. -/
structure RepeatsOperation (calls : List LedgerCall) (t₀ t : CommandStep) (externalExecutionId : UUID)
    (arguments₀ arguments : OperationArguments) (operation : WorkspaceOperation) : Prop where
  follows : Follows calls t₀ t
  first : AsksOperation t₀ externalExecutionId arguments₀
  accepted : ∃ replayed, t₀.output = .ok (.operation operation replayed)
  again : AsksOperation t externalExecutionId arguments
  key : Text.strip arguments.idempotencyKey = Text.strip arguments₀.idempotencyKey

/-- The transition is answered with the publication as it is stored, and changes nothing. -/
def ReplaysPublication (publication : Scm.ScmPublication) (t : CommandStep) : Prop :=
  ∃ stored, t.before.publications.jobs.get? publication.job.id = some stored ∧
    stored.info = publication.info ∧ t.output = .ok (.publication (.replay stored true)) ∧
    t.after = t.before

/-- The transition is answered with the operation as it is stored, and changes nothing. -/
def ReplaysOperation (operation : WorkspaceOperation) (t : CommandStep) : Prop :=
  ∃ stored, t.before.operations.get? operation.id = some stored ∧ SameCommand operation stored ∧
    t.output = .ok (.operation stored true) ∧ t.after = t.before

/-- The transition is refused with a conflict, and changes nothing. -/
def Conflicts (t : CommandStep) : Prop :=
  (∃ message, t.output = .error (.service (.resourceConflict message))) ∧ t.after = t.before

/-- What a repeated request for a publication should be answered. -/
structure PublicationAnswered (arguments₀ arguments : Scm.PublicationArguments)
    (publication : Scm.ScmPublication) (t : CommandStep) : Prop where
  same : SameArguments arguments₀ arguments → ReplaysPublication publication t
  different : ¬SameArguments arguments₀ arguments → Conflicts t

/-- What a repeated request for an operation should be answered.  A cleanup that is not confirmed is no
valid request. -/
structure OperationAnswered (externalExecutionId : UUID) (arguments₀ arguments : OperationArguments)
    (operation : WorkspaceOperation) (t : CommandStep) : Prop where
  same : Confirmed externalExecutionId arguments → SameOperation arguments₀ arguments →
    ReplaysOperation operation t
  different : Confirmed externalExecutionId arguments → ¬SameOperation arguments₀ arguments → Conflicts t
  unconfirmed : ¬Confirmed externalExecutionId arguments → (∃ message, t.output =
    .error (.service (.domain (.domainValidationError message)))) ∧ t.after = t.before

/-- Every repeated request of the run is answered as it should be. -/
structure Idempotent (calls : List LedgerCall) : Prop where
  publications : ∀ t₀ t externalExecutionId arguments₀ arguments publication,
    RepeatsPublication calls t₀ t externalExecutionId arguments₀ arguments publication →
      PublicationAnswered arguments₀ arguments publication t
  operations : ∀ t₀ t externalExecutionId arguments₀ arguments operation,
    RepeatsOperation calls t₀ t externalExecutionId arguments₀ arguments operation →
      OperationAnswered externalExecutionId arguments₀ arguments operation t

/-- The workspace is not released, and its branch is what a publication stores of it. -/
def Unreleased (s : CommandLedger) (externalExecutionId : UUID) : Prop :=
  ∃ row, s.executions.get? externalExecutionId = some row ∧ row.workspaceReleasedAt = none ∧
    Text.strip (row.workspaceBranch.getD "") = row.workspaceBranch.getD ""

section

variable {calls : List LedgerCall} {t₀ t : CommandStep} {externalExecutionId : UUID}

/-- Both transitions are of consistent ledgers, and the later one starts from a later one. -/
theorem Follows.later (h : Follows calls t₀ t) :
    (∃ s call, Consistent s ∧ t₀ = commands.fire s call) ∧
      (∃ s call, Consistent s ∧ Later t₀.after s ∧ t = commands.fire s call) := by
  obtain ⟨earlier, call, between, call', later, -, rfl, rfl⟩ := h
  obtain ⟨hearlier, -⟩ := run_spec .empty earlier
  obtain ⟨hafter, -⟩ := step_spec hearlier call
  obtain ⟨hbetween, hlater⟩ := run_spec hafter between
  exact ⟨⟨_, call, hearlier, rfl⟩, _, call', hbetween, hlater, rfl⟩

/-- A repeated request for a publication is answered with it exactly where the workspace is unreleased. -/
theorem publicationAnswered_iff {arguments₀ arguments : Scm.PublicationArguments}
    {publication : Scm.ScmPublication}
    (h : RepeatsPublication calls t₀ t externalExecutionId arguments₀ arguments publication) :
    PublicationAnswered arguments₀ arguments publication t ↔
      (SameArguments arguments₀ arguments → Unreleased t.before externalExecutionId) := by
  obtain ⟨hfollows, ⟨view₀, id₀, at₀, hinput₀⟩, ⟨replayed, haccepted⟩, ⟨view, id, at_, hinput⟩, hkey⟩ := h
  obtain ⟨⟨s₀, call₀, hs₀, rfl⟩, s, call, hs, hlater, rfl⟩ := hfollows.later
  obtain rfl : call₀ = _ := hinput₀
  obtain rfl : call = _ := hinput
  obtain ⟨row₀, project, hrecorded₀⟩ := step_recorded hs₀ haccepted
  obtain ⟨row, hrecorded⟩ := hrecorded₀.later hlater
  obtain ⟨stored, hstored, hinfo, hcases⟩ := request_recorded hs id at_ hrecorded hkey
  have hunreleased : Unreleased s externalExecutionId ↔ row.workspaceReleasedAt = none ∧
      Text.strip (row.workspaceBranch.getD "") = row.workspaceBranch.getD "" := by
    constructor
    · rintro ⟨found, hfound, h⟩
      obtain rfl := Option.some.inj (hrecorded.stored.symm.trans hfound)
      exact h
    · rintro h
      exact ⟨row, hrecorded.stored, h⟩
  rw [Machine.fire_before, hunreleased]
  rcases hcases with ⟨hreleased, hsame, hbranch, hrequest⟩ | ⟨hnot, message, hrequest⟩
  · obtain ⟨events, hstep, hevents⟩ := step_request_ok view hrequest
    obtain rfl := hevents rfl
    refine iff_of_true ⟨fun _ => ⟨stored, hstored, hinfo, congrArg Prod.fst hstep, congrArg Prod.snd hstep⟩,
      fun hdifferent => absurd hsame hdifferent⟩ fun _ => ⟨hreleased, hbranch⟩
  · have hstep := step_request_error view hrequest
    have hconflicts : Conflicts (commands.fire s
        (.publications (.request view externalExecutionId arguments id at_))) :=
      ⟨⟨message, congrArg Prod.fst hstep⟩, congrArg Prod.snd hstep⟩
    constructor
    · intro hanswered hsame
      obtain ⟨stored', -, -, houtput, -⟩ := hanswered.same hsame
      have hrefused := congrArg Prod.fst hstep
      cases hrefused.symm.trans houtput
    · intro hcondition
      refine ⟨fun hsame => ?_, fun _ => hconflicts⟩
      obtain ⟨hreleased, hbranch⟩ := hcondition hsame
      exact absurd ⟨hreleased, hsame, hbranch⟩ hnot

/-- A repeated request for an operation is answered as it should be, whatever has happened. -/
theorem operationAnswered {arguments₀ arguments : OperationArguments} {operation : WorkspaceOperation}
    (h : RepeatsOperation calls t₀ t externalExecutionId arguments₀ arguments operation) :
    OperationAnswered externalExecutionId arguments₀ arguments operation t := by
  obtain ⟨hfollows, ⟨id₀, at₀, hinput₀⟩, ⟨replayed, haccepted⟩, ⟨id, at_, hinput⟩, hkey⟩ := h
  obtain ⟨⟨s₀, call₀, hs₀, rfl⟩, s, call, hs, hlater, rfl⟩ := hfollows.later
  obtain rfl : call₀ = _ := hinput₀
  obtain rfl : call = _ := hinput
  obtain ⟨row₀, hrecorded₀⟩ := step_recordedOperation hs₀ haccepted
  obtain ⟨row, hrecorded⟩ := hrecorded₀.later hlater
  have hanswer := request_recordedOperation hs id at_ hrecorded hkey
  refine ⟨fun hconfirmed hsame => ?_, fun hconfirmed hdifferent => ?_, fun hunconfirmed => ?_⟩
  · obtain ⟨stored, hstored, hcommand, ⟨-, hrequest⟩ | ⟨hdifferent, -⟩⟩ := hanswer hconfirmed
    · obtain ⟨events, hstep, hevents⟩ := step_requestOperation_ok hrequest
      obtain rfl := hevents rfl
      exact ⟨stored, hstored, hcommand, congrArg Prod.fst hstep, congrArg Prod.snd hstep⟩
    · exact absurd hsame hdifferent
  · obtain ⟨stored, hstored, hcommand, ⟨hsame, -⟩ | ⟨-, message, hrequest⟩⟩ := hanswer hconfirmed
    · exact absurd hsame hdifferent
    · have hstep := step_requestOperation_error hrequest
      exact ⟨⟨message, congrArg Prod.fst hstep⟩, congrArg Prod.snd hstep⟩
  · have hblank : Text.isBlank arguments.idempotencyKey = false := by
      rw [isBlank_congr hkey]
      exact hrecorded.key
    have hstep := step_requestOperation_error
      (request_unconfirmed s id at_ hblank hunconfirmed)
    exact ⟨⟨_, congrArg Prod.fst hstep⟩, congrArg Prod.snd hstep⟩

end

/-- A run is idempotent exactly where every publication is asked for again while its workspace is
unreleased. -/
theorem idempotent_iff (calls : List LedgerCall) :
    Idempotent calls ↔ ∀ t₀ t externalExecutionId arguments₀ arguments publication,
      RepeatsPublication calls t₀ t externalExecutionId arguments₀ arguments publication →
        SameArguments arguments₀ arguments → Unreleased t.before externalExecutionId := by
  constructor
  · intro h t₀ t externalExecutionId arguments₀ arguments publication hrepeats
    exact (publicationAnswered_iff hrepeats).mp (h.publications _ _ _ _ _ _ hrepeats)
  · intro h
    refine ⟨?_, ?_⟩
    · intro t₀ t externalExecutionId arguments₀ arguments publication hrepeats
      exact (publicationAnswered_iff hrepeats).mpr (h _ _ _ _ _ _ hrepeats)
    · intro t₀ t externalExecutionId arguments₀ arguments operation hrepeats
      exact operationAnswered hrepeats

/-! ### A publication that is asked for again after its workspace is released -/

def publicationArguments : Scm.PublicationArguments where
  providerKey := "github"
  targetBranch := "develop"
  title := "Review feature"
  body := ""
  idempotencyKey := "publish-1"
  requestedBy := "jarvis"

def preparedClaim : TaskClaim where
  executionId := 7
  runId := 3
  nodeKey := "implementation"
  executorKey := "openclaw"
  workerId := "worker-a"
  leaseToken := 8
  visitCount := 1
  attemptCount := 1
  timeoutSeconds := 300
  workflowKey := "delivery"
  workflowVersion := 1
  instructions := some "Implement the change."
  configuration := []
  skills := []
  phasePack := none
  context := none
  modelSelection := none

/-- The execution of a registered project ends, with a workspace. -/
def finishedCalls : List LedgerCall :=
  [.registerProject 1 "example-project" "Example" "https://github.com/example/project.git" "develop",
    .saveRequest { id := 2, projectId := 1, prompt := "Implement the change", createdAt := 0, updatedAt := 0 },
    .saveRun { id := 3, requestId := 2, createdAt := 0, updatedAt := 0 },
    .prepare preparedClaim "agent:implementation:1" (some "implementation")
      { path := some "C:/worktrees/task", repositoryPath := some "C:/projects/example",
        branch := some "feature/review", baseRef := some "abc123",
        scope := some "git-worktree:scope-a" } 4,
    .finish preparedClaim.idempotencyKey .succeeded none none]

def publicationCall (id : UUID) : LedgerCall :=
  .publications (.request (CommandLedger.surroundings {}) 4 publicationArguments id 1)

def releasedCalls : List LedgerCall :=
  finishedCalls ++ [publicationCall 5, .releaseWorkspace 4 2, publicationCall 6]

def acceptedStep : CommandStep := commands.fire (commands.run {} finishedCalls) (publicationCall 5)

/-- The request after the release. -/
def repeatedStep : CommandStep :=
  commands.fire (commands.run acceptedStep.after [.releaseWorkspace 4 2]) (publicationCall 6)

/-- The repeated request is refused because of the release. -/
theorem releasedCalls_not_idempotent : ¬Idempotent releasedCalls := by
  intro h
  have haccepted : ∃ publication replayed,
      acceptedStep.output = .ok (.publication (.replay publication replayed)) := ⟨_, _, rfl⟩
  obtain ⟨publication, replayed, hpublication⟩ := haccepted
  have hrepeats : RepeatsPublication releasedCalls acceptedStep repeatedStep 4 publicationArguments
      publicationArguments publication :=
    ⟨⟨finishedCalls, _, _, _, [], rfl, rfl, rfl⟩, ⟨_, 5, 1, rfl⟩, ⟨replayed, hpublication⟩,
      ⟨_, 6, 1, rfl⟩, rfl⟩
  have hrefused : repeatedStep.output.isOk = false := by decide +kernel
  obtain ⟨stored, -, -, houtput, -⟩ := (h.publications _ _ _ _ _ _ hrepeats).same ⟨rfl, rfl, rfl, rfl⟩
  rw [houtput] at hrefused
  cases hrefused

end JbOrchestrator.Commands
