import JbOrchestrator.Outbox.Histories

/-!
# Publications — SCM publications and their attempts

`ScmPublicationService` as calls on a table of publications.  Taking over an expired lease starts a new
attempt and leaves the old one open: the ledger is right exactly in the runs without a take-over.
-/

open Lib

namespace JbOrchestrator.Scm

open Domain Workflows Application Outbox

/-! ## 1. Records -/

inductive ScmPublicationFailureCode where
  | workspaceState | providerRejected | providerUnavailable | timeout | resultMismatch | unexpected
  deriving DecidableEq, Repr

/-- What a publication is about. -/
structure PublicationInfo where
  externalExecutionId : UUID
  providerKey : String
  repository : String
  sourceBranch : String
  targetBranch : String
  title : String
  body : String
  workspaceScope : String
  idempotencyKey : String
  requestedBy : String
  deriving DecidableEq

abbrev ScmPublication := Entry ScmPublicationFailureCode PublicationInfo

abbrev ScmPublicationAttempt := Attempt ScmPublicationFailureCode

abbrev PublicationTable := Table ScmPublicationFailureCode PublicationInfo

def requireText (fieldName value : String) : Except DomainError String :=
  if Text.isBlank value then
    .error (.domainValidationError ("SCM publication " ++ fieldName ++ " must not be empty"))
  else .ok (Text.strip value)

/-- The constructor with `__post_init__`. -/
def ScmPublication.create (id : UUID) (info : PublicationInfo) (createdAt : Instant) :
    Except DomainError ScmPublication := do
  let providerKey ← requireText "provider_key" info.providerKey
  let repository ← requireText "repository" info.repository
  let sourceBranch ← requireText "source_branch" info.sourceBranch
  let targetBranch ← requireText "target_branch" info.targetBranch
  let title ← requireText "title" info.title
  let workspaceScope ← requireText "workspace_scope" info.workspaceScope
  let idempotencyKey ← requireText "idempotency_key" info.idempotencyKey
  let requestedBy ← requireText "requested_by" info.requestedBy
  if sourceBranch = targetBranch then
    .error (.domainValidationError "SCM publication source_branch and target_branch must differ")
  else .ok ⟨{ id, createdAt, updatedAt := createdAt },
    { info with providerKey, repository, sourceBranch, targetBranch, title,
                body := Text.strip info.body, workspaceScope, idempotencyKey, requestedBy }⟩

def policy : Policy ScmPublicationFailureCode where
  texts := {
    notClaimable := "terminal SCM publication cannot be claimed"
    claimArguments := "SCM publication claim requires worker and positive lease"
    notRetryable := "only failed SCM publication can be retried"
    notCancellable := "automatic retry can only be cancelled for failed SCM publication"
    notOwned := "SCM publication lease is not owned by this worker"
    emptyReason := "SCM publication failure reason must not be empty"
    retryUnavailable := "scheduled SCM retry requires an available retry attempt"
    attemptWorker := "SCM publication attempt worker_id must not be empty"
    attemptNumber := "SCM publication attempt_number must be positive"
    attemptNotOwned := "SCM publication attempt lease is not owned"
    attemptEmptyReason := "SCM publication attempt failure reason must not be empty"
    retrySucceeded := "succeeded SCM publication cannot be retried"
    cancelActive := "active SCM publication has no automatic retry to cancel"
    cancelSucceeded := "succeeded SCM publication has no automatic retry to cancel"
    noWorker := "claimed SCM publication has no worker"
    noToken := "claimed SCM publication has no lease token" }
  claimsLeased := true
  forgetsSchedule := true
  forgetsResult := false
  closesExpired := none

/-- The fields of an external execution that the service reads. -/
structure ExternalExecution where
  id : UUID
  runId : UUID
  isTerminal : Bool
  workspaceBranch : Option String := none
  workspaceScope : Option String := none
  workspaceReleasedAt : Option Instant := none

/-- The rows of other tables that a transaction reads. -/
structure Surroundings where
  executions : UUID → Option ExternalExecution
  runs : UUID → Option Run
  requests : UUID → Option UserRequest
  projects : UUID → Option Project

/-! ## 2. Services -/

/-- `_execution`. -/
def Surroundings.execution (view : Surroundings) (executionId : UUID) :
    Except ServiceError ExternalExecution :=
  match view.executions executionId with
  | none => .error (notFound "external execution" executionId)
  | some execution => .ok execution

/-- `_project`. -/
def Surroundings.project (view : Surroundings) (execution : ExternalExecution) :
    Except ServiceError Project :=
  match view.runs execution.runId with
  | none => .error (notFound "run" execution.runId)
  | some run =>
    match view.requests run.requestId with
    | none => .error (notFound "request" run.requestId)
    | some request =>
      match view.projects request.projectId with
      | none => .error (notFound "project" request.projectId)
      | some project => .ok project

def publication (table : PublicationTable) (publicationId : UUID) :
    Except ServiceError ScmPublication :=
  match table.jobs.get? publicationId with
  | none => .error (notFound "SCM publication" publicationId)
  | some publication => .ok publication

/-- The arguments of `request`. -/
structure PublicationArguments where
  providerKey : String
  targetBranch : String
  title : String
  body : String
  idempotencyKey : String
  requestedBy : String

def getByIdempotencyKey (table : PublicationTable) (externalExecutionId : UUID)
    (idempotencyKey : String) : Option ScmPublication :=
  table.jobs.values.find? fun publication =>
    publication.info.externalExecutionId = externalExecutionId ∧
      publication.info.idempotencyKey = idempotencyKey

/-- The fields that a repeated request has to agree on. -/
def sameValues (existing values : PublicationInfo) : Bool :=
  existing.providerKey = values.providerKey && existing.repository = values.repository &&
    existing.sourceBranch = values.sourceBranch && existing.targetBranch = values.targetBranch &&
    existing.title = values.title && existing.body = values.body

def replay (table : PublicationTable) (existing : ScmPublication) (values : PublicationInfo) :
    Except ServiceError ((ScmPublication × Bool) × PublicationTable) :=
  if sameValues existing.info values = false then
    .error (.resourceConflict "idempotency key was already used for another publication")
  else .ok ((existing, true), table)

def request (table : PublicationTable) (view : Surroundings) (externalExecutionId : UUID)
    (arguments : PublicationArguments) (id : UUID) (at_ : Instant) :
    Except ServiceError ((ScmPublication × Bool) × PublicationTable) :=
  if Text.isBlank arguments.idempotencyKey then
    .error (.domain (.domainValidationError
      "SCM publication idempotency key must not be empty"))
  else do
    let execution ← view.execution externalExecutionId
    if execution.isTerminal = false then
      .error (.resourceConflict "SCM publication requires a terminal external execution")
    else if execution.workspaceReleasedAt ≠ none then
      .error (.resourceConflict "SCM publication requires an unreleased workspace")
    else if execution.workspaceBranch.getD "" = "" ∨ execution.workspaceScope.getD "" = "" then
      .error (.resourceConflict "external execution has no managed workspace scope")
    else do
      let project ← view.project execution
      let key := Text.strip arguments.idempotencyKey
      let values : PublicationInfo := {
        externalExecutionId
        providerKey := Text.strip arguments.providerKey
        repository := project.repositoryUrl
        sourceBranch := execution.workspaceBranch.getD ""
        targetBranch := Text.strip arguments.targetBranch
        title := Text.strip arguments.title
        body := Text.strip arguments.body
        workspaceScope := execution.workspaceScope.getD ""
        idempotencyKey := key
        requestedBy := arguments.requestedBy }
      match getByIdempotencyKey table externalExecutionId key with
      | some existing => replay table existing values
      | none => do
        let publication ← raiseDomain (ScmPublication.create id values at_)
        let (added, table) ← table.tryAdd (fun info =>
          info.externalExecutionId = externalExecutionId && info.idempotencyKey = key) publication
        if added then .ok ((publication, false), table)
        else match getByIdempotencyKey table externalExecutionId key with
          | some existing => replay table existing values
          | none => .error (.runtimeError "SCM publication idempotency claim disappeared")

def retry (table : PublicationTable) (view : Surroundings) (publicationId : UUID) (at_ : Instant) :
    Except ServiceError ((ScmPublication × Bool) × PublicationTable) := do
  let publication ← publication table publicationId
  let execution ← view.execution publication.info.externalExecutionId
  if execution.workspaceReleasedAt ≠ none then
    .error (.resourceConflict "SCM publication retry requires an unreleased workspace")
  else if execution.workspaceBranch ≠ some publication.info.sourceBranch then
    .error (.resourceConflict "SCM publication source branch changed before retry")
  else Outbox.retry policy table publication at_

def cancelAutomaticRetry (table : PublicationTable) (view : Surroundings) (publicationId : UUID)
    (at_ : Instant) : Except ServiceError ((ScmPublication × Bool) × PublicationTable) := do
  let publication ← publication table publicationId
  let _ ← view.execution publication.info.externalExecutionId
  Outbox.cancelAutomaticRetry policy table publication at_

/-- The filter of the worker in `claim_next`. -/
def eligible (providerKey workspaceScope : String) (info : PublicationInfo) : Bool :=
  info.providerKey = providerKey && info.workspaceScope = workspaceScope

def claimNext (table : PublicationTable) (view : Surroundings)
    (workerId providerKey workspaceScope : String) (leaseSeconds : ℤ) (token : UUID)
    (locked : UUID → Bool) (at_ : Instant) :
    Except ServiceError (Option ScmPublication × PublicationTable) := do
  let (claim, table) ← Outbox.claimNext policy table (eligible providerKey workspaceScope) locked
    workerId leaseSeconds token at_
  match claim with
  | none => .ok (none, table)
  | some publication => do
    let _ ← view.execution publication.info.externalExecutionId
    .ok (some publication, table)

/-- `_finish`. -/
def finish (table : PublicationTable) (view : Surroundings) (publicationId leaseToken : UUID)
    (completion : Completion ScmPublicationFailureCode) (at_ : Instant) :
    Except ServiceError (ScmPublication × PublicationTable) := do
  let publication ← publication table publicationId
  let (publication, table) ← Outbox.finish policy table publication leaseToken completion at_
  let _ ← view.execution publication.info.externalExecutionId
  .ok (publication, table)

/-! ## 3. Calls -/

/-- A call, with what its transaction reads elsewhere, draws and finds locked. -/
inductive Call where
  | request (view : Surroundings) (externalExecutionId : UUID) (arguments : PublicationArguments)
      (id : UUID) (at_ : Instant)
  | retry (view : Surroundings) (publicationId : UUID) (at_ : Instant)
  | cancelAutomaticRetry (view : Surroundings) (publicationId : UUID) (at_ : Instant)
  | claimNext (view : Surroundings) (workerId providerKey workspaceScope : String)
      (leaseSeconds : ℤ) (token : UUID) (locked : UUID → Bool) (at_ : Instant)
  | succeed (view : Surroundings) (publicationId leaseToken : UUID) (result : JsonObject)
      (at_ : Instant)
  | fail (view : Surroundings) (publicationId leaseToken : UUID) (reason : String)
      (code : ScmPublicationFailureCode) (retryable : Bool) (automaticRetryLimit : ℤ)
      (nextAttemptAt : Option Instant) (at_ : Instant)

inductive Answer where
  | publication (publication : ScmPublication)
  | replay (publication : ScmPublication) (unchanged : Bool)
  | claim (publication : Option ScmPublication)

def Call.perform (table : PublicationTable) :
    Call → Except ServiceError (Answer × PublicationTable)
  | .request view externalExecutionId arguments id at_ => do
    let ((publication, unchanged), table) ←
      Scm.request table view externalExecutionId arguments id at_
    .ok (.replay publication unchanged, table)
  | .retry view publicationId at_ => do
    let ((publication, unchanged), table) ← Scm.retry table view publicationId at_
    .ok (.replay publication unchanged, table)
  | .cancelAutomaticRetry view publicationId at_ => do
    let ((publication, unchanged), table) ← Scm.cancelAutomaticRetry table view publicationId at_
    .ok (.replay publication unchanged, table)
  | .claimNext view workerId providerKey workspaceScope leaseSeconds token locked at_ => do
    let (publication, table) ← Scm.claimNext table view workerId providerKey workspaceScope
      leaseSeconds token locked at_
    .ok (.claim publication, table)
  | .succeed view publicationId leaseToken result at_ => do
    let (publication, table) ← finish table view publicationId leaseToken (.success result) at_
    .ok (.publication publication, table)
  | .fail view publicationId leaseToken reason code retryable automaticRetryLimit nextAttemptAt
      at_ => do
    let (publication, table) ← finish table view publicationId leaseToken
      (.failure reason code retryable automaticRetryLimit nextAttemptAt) at_
    .ok (.publication publication, table)

/-- A call that raises is rolled back. -/
def Call.step (table : PublicationTable) (call : Call) :
    Except ServiceError Answer × PublicationTable :=
  match call.perform table with
  | .ok (answer, table') => (.ok answer, table')
  | .error error => (.error error, table)

def publications : Machine PublicationTable Call (Except ServiceError Answer) := ⟨Call.step⟩

/-- The call reports a failure of the publication. -/
def Call.fails (id : UUID) : Call → Prop
  | .fail _ publicationId .. => publicationId = id
  | _ => False

/-- The call is a manual retry or a cancel for the publication. -/
def Call.resets (id : UUID) : Call → Prop
  | .retry _ publicationId _ | .cancelAutomaticRetry _ publicationId _ => publicationId = id
  | _ => False

/-- The publication whose expired lease the call takes over. -/
def Call.takenOver (table : PublicationTable) : Call → Option ScmPublication
  | .claimNext view workerId providerKey workspaceScope leaseSeconds _ locked at_ =>
    (table.candidate (eligible providerKey workspaceScope) locked at_).filter fun publication =>
      publication.job.status = .claimed && !Text.isBlank workerId && decide (0 < leaseSeconds) &&
        (view.executions publication.info.externalExecutionId).isSome
  | _ => none

/-- The publication that the call may claim. -/
def Call.selected (table : PublicationTable) : Call → Option ScmPublication
  | .claimNext _ _ providerKey workspaceScope _ _ locked at_ =>
    table.candidate (eligible providerKey workspaceScope) locked at_
  | _ => none

def Call.scope (table : PublicationTable) (call : Call) : Scope where
  fails id := call.fails id
  claims id := ∃ publication, call.selected table = some publication ∧ publication.job.id = id

/-! ## 4. What a call does -/

theorem ScmPublication.create_fresh {id : UUID} {info : PublicationInfo} {createdAt : Instant}
    {publication : ScmPublication} (h : ScmPublication.create id info createdAt = .ok publication) :
    Fresh publication.job := by
  unfold ScmPublication.create at h
  iterate 8 obtain ⟨_, -, h⟩ := bind_ok h
  split at h
  · cases h
  · obtain rfl := Except.ok.inj h
    exact ⟨rfl, rfl, rfl, rfl⟩

theorem publication_ok {table : PublicationTable} {publicationId : UUID} {found : ScmPublication}
    (hvalid : table.Valid) (h : publication table publicationId = .ok found) :
    found.job.id = publicationId ∧ table.jobs.get? found.job.id = some found := by
  unfold publication at h
  split at h
  · cases h
  · rename_i entry hentry
    obtain rfl := Except.ok.inj h
    obtain ⟨hid, -⟩ := hvalid.sound publicationId entry hentry
    exact ⟨hid, hid ▸ hentry⟩

theorem replay_ok {table table' : PublicationTable} {existing : ScmPublication}
    {values : PublicationInfo} {answer : ScmPublication × Bool}
    (h : replay table existing values = .ok (answer, table')) : table' = table := by
  unfold replay at h
  split at h
  · cases h
  · exact (Prod.mk.inj (Except.ok.inj h)).2.symm

theorem request_grows {table table' : PublicationTable} {view : Surroundings}
    {externalExecutionId id : UUID} {arguments : PublicationArguments} {at_ : Instant}
    {answer : ScmPublication × Bool}
    (h : request table view externalExecutionId arguments id at_ = .ok (answer, table')) :
    Grows table table' := by
  unfold request at h
  split at h
  · cases h
  obtain ⟨execution, -, h⟩ := bind_ok h
  split at h
  · cases h
  split at h
  · cases h
  split at h
  · cases h
  obtain ⟨project, -, h⟩ := bind_ok h
  dsimp only at h
  split at h
  · rw [replay_ok h]
    exact .refl _
  obtain ⟨publication, hcreate, h⟩ := bind_ok h
  obtain ⟨⟨added, grown⟩, hadd, h⟩ := bind_ok h
  have hgrows := tryAdd_grows (ScmPublication.create_fresh (raiseDomain_ok hcreate)) hadd
  split at h
  · obtain ⟨-, rfl⟩ := Prod.mk.inj (Except.ok.inj h)
    exact hgrows
  split at h
  · rw [replay_ok h]
    exact hgrows
  · cases h

theorem retry_tableStep {table table' : PublicationTable} {view : Surroundings}
    {publicationId : UUID} {at_ : Instant} {answer : ScmPublication × Bool} {scope : Scope}
    (hvalid : table.Valid) (h : retry table view publicationId at_ = .ok (answer, table')) :
    TableStep policy scope table table' ∧ Unscheduled table' publicationId := by
  obtain ⟨found, hfound, hrest⟩ := bind_ok h
  obtain ⟨rfl, hentry⟩ := publication_ok hvalid hfound
  obtain ⟨execution, -, hretry⟩ := bind_ok hrest
  split at hretry
  · cases hretry
  split at hretry
  · cases hretry
  · exact retry_spec hvalid hentry hretry

theorem cancelAutomaticRetry_tableStep {table table' : PublicationTable} {view : Surroundings}
    {publicationId : UUID} {at_ : Instant} {answer : ScmPublication × Bool} {scope : Scope}
    (hvalid : table.Valid)
    (h : cancelAutomaticRetry table view publicationId at_ = .ok (answer, table')) :
    TableStep policy scope table table' ∧ Unscheduled table' publicationId := by
  obtain ⟨found, hfound, hrest⟩ := bind_ok h
  obtain ⟨rfl, hentry⟩ := publication_ok hvalid hfound
  obtain ⟨execution, -, hcancel⟩ := bind_ok hrest
  exact cancelAutomaticRetry_spec hentry hcancel

theorem finish_tableStep {table table' : PublicationTable} {view : Surroundings}
    {publicationId leaseToken : UUID} {completion : Completion ScmPublicationFailureCode}
    {at_ : Instant} {answer : ScmPublication} {scope : Scope} (hvalid : table.Valid)
    (hfails : completion.isFailure = true → scope.fails publicationId)
    (h : finish table view publicationId leaseToken completion at_ = .ok (answer, table')) :
    TableStep policy scope table table' := by
  obtain ⟨found, hfound, hrest⟩ := bind_ok h
  obtain ⟨rfl, hentry⟩ := publication_ok hvalid hfound
  obtain ⟨⟨finished, grown⟩, hfinish, hrest⟩ := bind_ok hrest
  obtain ⟨execution, -, hrest⟩ := bind_ok hrest
  obtain ⟨-, rfl⟩ := Prod.mk.inj (Except.ok.inj hrest)
  exact finish_spec hvalid hentry hfails hfinish

theorem claimNext_tableStep {table table' : PublicationTable} {view : Surroundings}
    {workerId providerKey workspaceScope : String} {leaseSeconds : ℤ} {token : UUID}
    {locked : UUID → Bool} {at_ : Instant} {answer : Option ScmPublication} {scope : Scope}
    (hvalid : table.Valid)
    (hclaims : ∀ entry, table.candidate (eligible providerKey workspaceScope) locked at_ =
      some entry → scope.claims entry.job.id)
    (h : claimNext table view workerId providerKey workspaceScope leaseSeconds token locked at_ =
      .ok (answer, table')) :
    TableStep policy scope table table' := by
  obtain ⟨⟨claim, claimed⟩, hclaim, h⟩ := bind_ok h
  have hstep := claimNext_spec hvalid hclaims hclaim
  dsimp only at h
  split at h
  · obtain ⟨-, rfl⟩ := Prod.mk.inj (Except.ok.inj h)
    exact hstep
  · obtain ⟨execution, -, h⟩ := bind_ok h
    obtain ⟨-, rfl⟩ := Prod.mk.inj (Except.ok.inj h)
    exact hstep

/-- What a call that succeeds does to the table. -/
theorem Call.perform_spec {table table' : PublicationTable} {call : Call} {answer : Answer}
    (hvalid : table.Valid) (h : call.perform table = .ok (answer, table')) :
    TableStep policy (call.scope table) table table' ∧
      ∀ id, call.resets id → Unscheduled table' id := by
  cases call with
  | request =>
    obtain ⟨⟨⟨answered, unchanged⟩, grown⟩, hrequest, h⟩ := bind_ok h
    obtain ⟨-, rfl⟩ := Prod.mk.inj (Except.ok.inj h)
    exact ⟨(request_grows hrequest).tableStep, fun _ hresets => hresets.elim⟩
  | retry =>
    obtain ⟨⟨⟨answered, unchanged⟩, retried⟩, hretry, h⟩ := bind_ok h
    obtain ⟨-, rfl⟩ := Prod.mk.inj (Except.ok.inj h)
    obtain ⟨hstep, hunscheduled⟩ := retry_tableStep hvalid hretry
    exact ⟨hstep, fun _ hid => hid ▸ hunscheduled⟩
  | cancelAutomaticRetry =>
    obtain ⟨⟨⟨answered, unchanged⟩, cancelled⟩, hcancel, h⟩ := bind_ok h
    obtain ⟨-, rfl⟩ := Prod.mk.inj (Except.ok.inj h)
    obtain ⟨hstep, hunscheduled⟩ := cancelAutomaticRetry_tableStep hvalid hcancel
    exact ⟨hstep, fun _ hid => hid ▸ hunscheduled⟩
  | claimNext =>
    obtain ⟨⟨claim, claimed⟩, hclaim, h⟩ := bind_ok h
    obtain ⟨-, rfl⟩ := Prod.mk.inj (Except.ok.inj h)
    exact ⟨claimNext_tableStep hvalid (fun entry hentry => ⟨entry, hentry, rfl⟩) hclaim,
      fun _ hresets => hresets.elim⟩
  | succeed =>
    obtain ⟨⟨publication, finished⟩, hfinish, h⟩ := bind_ok h
    obtain ⟨-, rfl⟩ := Prod.mk.inj (Except.ok.inj h)
    exact ⟨finish_tableStep hvalid (fun hfailure => by cases hfailure) hfinish,
      fun _ hresets => hresets.elim⟩
  | fail =>
    obtain ⟨⟨publication, finished⟩, hfinish, h⟩ := bind_ok h
    obtain ⟨-, rfl⟩ := Prod.mk.inj (Except.ok.inj h)
    exact ⟨finish_tableStep hvalid (fun _ => rfl) hfinish, fun _ hresets => hresets.elim⟩

theorem Call.step_spec {table : PublicationTable} (hvalid : table.Valid) (call : Call) :
    TableStep policy (call.scope table) table (publications.step table call).2 ∧
      ((∃ answer, (publications.step table call).1 = .ok answer) →
        ∀ id, call.resets id → Unscheduled (publications.step table call).2 id) := by
  change TableStep policy (call.scope table) table (call.step table).2 ∧
    ((∃ answer, (call.step table).1 = .ok answer) →
      ∀ id, call.resets id → Unscheduled (call.step table).2 id)
  unfold Call.step
  cases hperform : call.perform table with
  | error error => exact ⟨.refl _, fun ⟨_, hanswer⟩ => by cases hanswer⟩
  | ok result =>
    obtain ⟨hstep, hunscheduled⟩ := Call.perform_spec hvalid hperform
    exact ⟨hstep, fun _ => hunscheduled⟩

theorem publications_serves : Serves policy (fun table call => Call.scope table call) publications :=
  ⟨fun _ call hvalid => (Call.step_spec hvalid call).1⟩

/-! ## 5. The attempt ledger -/

/-- A claim that succeeds on a claimed publication takes its lease over. -/
theorem Call.takenOver_of_ok {table table' : PublicationTable} {call : Call} {answer : Answer}
    {publication : ScmPublication} (hvalid : table.Valid)
    (hselected : call.selected table = some publication) (hclaimed : publication.job.status = .claimed)
    (h : call.perform table = .ok (answer, table')) : call.takenOver table = some publication := by
  cases call with
  | claimNext view workerId providerKey workspaceScope leaseSeconds token locked at_ =>
    obtain ⟨⟨claim, claimed⟩, hclaim, -⟩ := bind_ok h
    obtain ⟨⟨taken, takenTable⟩, htaken, hclaim⟩ := bind_ok hclaim
    obtain ⟨entry, rfl, hinfo, hworker, hlease⟩ := claimNext_ok hvalid hselected htaken
    obtain ⟨execution, hexecution, -⟩ := bind_ok hclaim
    have hfound : (view.executions publication.info.externalExecutionId).isSome := by
      unfold Surroundings.execution at hexecution
      rw [hinfo] at hexecution
      split at hexecution
      · cases hexecution
      · rename_i hsome
        simp [hsome]
    change (table.candidate _ _ _).filter _ = _
    change table.candidate _ _ _ = _ at hselected
    rw [hselected]
    simp [hclaimed, hworker, hlease, hfound]
  | request => cases hselected
  | retry => cases hselected
  | cancelAutomaticRetry => cases hselected
  | succeed => cases hselected
  | fail => cases hselected

/-- The publication that a call selects is stored under its id. -/
theorem Call.selected_stored {table : PublicationTable} {call : Call} {publication : ScmPublication}
    (hvalid : table.Valid) (hselected : call.selected table = some publication) :
    table.jobs.get? publication.job.id = some publication := by
  cases call with
  | claimNext =>
    obtain ⟨⟨id, hentry⟩, -⟩ := Table.candidate_some hselected
    obtain ⟨rfl, -⟩ := hvalid.sound id publication hentry
    exact hentry
  | request => cases hselected
  | retry => cases hselected
  | cancelAutomaticRetry => cases hselected
  | succeed => cases hselected
  | fail => cases hselected

theorem Call.ledgered_of_notTaken {table : PublicationTable} (hvalid : table.Valid)
    (hledgered : table.Ledgered) {call : Call} (hnone : call.takenOver table = none) :
    (publications.step table call).2.Ledgered := by
  have hsettled : table.Settled := fun id entry hentry => (hledgered id entry hentry).settled
  change (call.step table).2.Ledgered
  unfold Call.step
  cases hperform : call.perform table with
  | error => exact hledgered
  | ok result =>
    have hstep := (Call.perform_spec hvalid hperform).1
    refine (hstep.valid hvalid).ledgered (hstep.settled hvalid hsettled ?_)
    rintro - id entry hentry hclaimed ⟨publication, hselected, rfl⟩
    obtain rfl := Option.some.inj (hentry.symm.trans (Call.selected_stored hvalid hselected))
    rw [Call.takenOver_of_ok hvalid hselected hclaimed hperform] at hnone
    cases hnone

/-- Taking a lease over leaves the attempt of the old lease open. -/
theorem Call.not_ledgered_of_taken {table : PublicationTable} (hvalid : table.Valid) {call : Call}
    {publication : ScmPublication} (htaken : call.takenOver table = some publication) :
    ¬(publications.step table call).2.Ledgered := by
  cases call with
  | claimNext view workerId providerKey workspaceScope leaseSeconds token locked at_ =>
    obtain ⟨hcandidate, hconditions⟩ := Option.filter_eq_some_iff.mp htaken
    simp only [Bool.and_eq_true, decide_eq_true_eq, Bool.not_eq_true'] at hconditions
    obtain ⟨⟨⟨hclaimed, hworker⟩, hlease⟩, hfound⟩ := hconditions
    have htakeover : ∃ answer table', Outbox.claimNext policy table
        (eligible providerKey workspaceScope) locked workerId leaseSeconds token at_ =
        .ok (some answer, table') ∧ answer.info = publication.info ∧ ¬table'.Ledgered :=
      claimNext_takeover rfl hvalid hcandidate hclaimed hworker hlease
    obtain ⟨answer, table', hclaim, hinfo, hbroken⟩ := htakeover
    obtain ⟨execution, hexecution⟩ := Option.isSome_iff_exists.mp hfound
    have hstep : (publications.step table (.claimNext view workerId providerKey workspaceScope
        leaseSeconds token locked at_)).2 = table' := by
      change (Call.step table _).2 = table'
      simp only [Call.step, Call.perform, Scm.claimNext, hclaim, bind, Except.bind,
        Surroundings.execution, hinfo, hexecution]
    rw [hstep]
    exact hbroken
  | request => cases htaken
  | retry => cases htaken
  | cancelAutomaticRetry => cases htaken
  | succeed => cases htaken
  | fail => cases htaken

/-- The ledgers are right in every state of a run exactly when the run takes no lease over. -/
theorem attempt_ledger_iff (calls : List Call) :
    (∀ t ∈ publications.trace {} calls, t.after.Ledgered) ↔
      ∀ t ∈ publications.trace {} calls, t.input.takenOver t.before = none := by
  have hempty : Table.Ledgered ({} : PublicationTable) := by
    intro id entry h
    simp at h
  refine publications.forall_trace_iff (I := Table.Valid) (Q := Table.Ledgered)
    publications_serves.valid_step (fun table call hvalid hledgered => ⟨fun hafter => ?_, fun hnone =>
      Call.ledgered_of_notTaken hvalid hledgered hnone⟩) .empty hempty calls
  by_contra hsome
  obtain ⟨publication, htaken⟩ := Option.ne_none_iff_exists'.mp hsome
  exact Call.not_ledgered_of_taken hvalid htaken hafter

/-- An ended execution with a managed workspace. -/
def managedWorkspace : Surroundings where
  executions id := some { id, runId := 2, isTerminal := true, workspaceBranch := some "task/1",
                          workspaceScope := some "pool" }
  runs id := some { id, requestId := 3, createdAt := 0, updatedAt := 0 }
  requests id := some { id, projectId := 4, prompt := "Prompt", createdAt := 0, updatedAt := 0 }
  projects id := some { id, key := "project", name := "Project", repositoryUrl := "https://repo" }

/-- A publication is requested and claimed; its lease expires and another worker takes over. -/
def leaseTakenOver : List Call := [
  .request managedWorkspace 1 ⟨"github", "main", "Title", "Text", "key", "user"⟩ 5 0,
  .claimNext managedWorkspace "first" "github" "pool" 30 6 (fun _ => false) 0,
  .claimNext managedWorkspace "second" "github" "pool" 30 7 (fun _ => false) 30000000]

/-- Two attempts of the publication are open at once. -/
theorem attempt_left_open :
    ¬∀ calls : List Call, (publications.run {} calls).Ledgered := by
  intro h
  have hstored : ((publications.run {} leaseTakenOver).jobs.get? 5).isSome = true := by
    decide +kernel
  have hopen : (((publications.run {} leaseTakenOver).ledger 5).filter fun attempt =>
      attempt.status = .claimed).length = 2 := by decide +kernel
  obtain ⟨publication, hpublication⟩ := Option.isSome_iff_exists.mp hstored
  have hsingle := (h leaseTakenOver 5 publication hpublication).single
  omega

end JbOrchestrator.Scm
