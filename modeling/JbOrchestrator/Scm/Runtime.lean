import JbOrchestrator.Notifications.Runtime
import JbOrchestrator.Scm.Publications

/-!
# Runtime — the worker that publishes branches

`ScmPublicationRuntime.run_once`: the checks of the workspace, the publisher and the check of its result
raise into one handler, which reports to the service.  Together with the worker for notifications: which
exceptions are recorded.
-/

open Lib

namespace JbOrchestrator.Scm

open Domain Workflows Application Outbox

/-! ## 1. Requests and results -/

/-- What `_classify_failure` asks of an exception, in its order. -/
inductive ScmExceptionKind where
  /-- `ScmPublisherFailure`. -/
  | publisherFailure (code : ScmPublicationFailureCode) (retryable : Bool)
  | timeout
  | resultMismatch
  | valueError
  | other

abbrev ScmException := Raised ScmExceptionKind

def valueError (text : String) : ScmException where
  kind := .valueError
  text := text
  typeName := "ValueError"
  named := by decide

def domainValidationError (text : String) : ScmException where
  kind := .valueError
  text := text
  typeName := "DomainValidationError"
  named := by decide

/-- The execution that the runtime reads back. -/
structure ManagedExecution extends ExternalExecution where
  workspacePath : Option String := none

structure ScmPublicationRequest where
  repository : String
  workspacePath : String
  sourceBranch : String
  targetBranch : String
  title : String
  body : String
  idempotencyKey : String

structure ScmPublicationResult where
  provider : String
  repository : String
  sourceBranch : String
  targetBranch : String
  reviewUrl : String
  reviewId : String

/-- The loop of `ScmPublicationRequest.__post_init__` for one field. -/
def requestText (fieldName value : String) : Except ScmException String :=
  if Text.isBlank value then
    .error (domainValidationError ("SCM publication " ++ fieldName ++ " must not be empty"))
  else .ok (Text.strip value)

/-- `ScmPublicationRequest.__post_init__`. -/
def ScmPublicationRequest.postInit (request : ScmPublicationRequest) :
    Except ScmException ScmPublicationRequest := do
  let repository ← requestText "repository" request.repository
  let workspacePath ← requestText "workspace_path" request.workspacePath
  let sourceBranch ← requestText "source_branch" request.sourceBranch
  let targetBranch ← requestText "target_branch" request.targetBranch
  let title ← requestText "title" request.title
  let idempotencyKey ← requestText "idempotency_key" request.idempotencyKey
  if sourceBranch = targetBranch then
    .error (domainValidationError "SCM publication source_branch and target_branch must differ")
  else .ok { repository, workspacePath, sourceBranch, targetBranch, title,
             body := Text.strip request.body, idempotencyKey }

/-- `_validate_result`. -/
def validateResult (publication : ScmPublication) (result : ScmPublicationResult) :
    Except ScmException Unit :=
  let mismatches :=
    [("provider", result.provider, publication.info.providerKey),
      ("repository", result.repository, publication.info.repository),
      ("source_branch", result.sourceBranch, publication.info.sourceBranch),
      ("target_branch", result.targetBranch, publication.info.targetBranch)].filter
        (fun field => field.2.1 ≠ field.2.2) |>.map Prod.fst
  if mismatches.isEmpty then .ok ()
  else .error ⟨.resultMismatch, "SCM publisher result mismatched: " ++ ", ".intercalate mismatches,
    "ScmPublicationResultMismatch", by decide⟩

/-- `asdict(result)`. -/
def ScmPublicationResult.toJson (result : ScmPublicationResult) : JsonObject :=
  [("provider", jsonText result.provider), ("repository", jsonText result.repository),
    ("source_branch", jsonText result.sourceBranch),
    ("target_branch", jsonText result.targetBranch), ("review_url", jsonText result.reviewUrl),
    ("review_id", jsonText result.reviewId)]

/-! ## 2. The runtime -/

structure ScmPublicationRuntime where
  workerId : String
  workspaceScope : String
  supportedKeys : List String
  leaseSeconds : ℤ
  retries : RetrySettings
  worker_named : Text.isBlank workerId = false
  scope_named : Text.isBlank workspaceScope = false
  keys_nonempty : supportedKeys ≠ []
  lease_pos : 0 < leaseSeconds

namespace ScmPublicationRuntime

variable (runtime : ScmPublicationRuntime)

/-- `_classify_failure`. -/
def classifyFailure (exc : ScmException) : ScmPublicationFailureCode × Bool :=
  match exc.kind with
  | .publisherFailure code retryable => (code, retryable)
  | .timeout => (.timeout, true)
  | .resultMismatch => (.resultMismatch, false)
  | .valueError => (.workspaceState, false)
  | .other => (.unexpected, false)

/-- The request of a publication, behind the checks of its workspace. -/
def request (executions : UUID → Option ManagedExecution) (publication : ScmPublication) :
    Except ScmException ScmPublicationRequest :=
  match executions publication.info.externalExecutionId with
  | none => .error ⟨.other, "external execution not found: " ++
      toString publication.info.externalExecutionId, "ResourceNotFound", by decide⟩
  | some execution =>
    if execution.workspaceReleasedAt ≠ none then
      .error (valueError "managed workspace was released before SCM publication")
    else if execution.workspaceScope ≠ some (Text.strip runtime.workspaceScope) then
      .error (valueError "external execution workspace scope changed after publication")
    else if execution.workspacePath.getD "" = "" then
      .error (valueError "external execution has no managed workspace path")
    else if execution.workspaceBranch ≠ some publication.info.sourceBranch then
      .error (valueError "external execution branch changed after publication")
    else ScmPublicationRequest.postInit {
      repository := publication.info.repository
      workspacePath := execution.workspacePath.getD ""
      sourceBranch := publication.info.sourceBranch
      targetBranch := publication.info.targetBranch
      title := publication.info.title
      body := publication.info.body
      idempotencyKey := publication.info.idempotencyKey }

/-- The body of the `try` block. -/
def attempt (executions : UUID → Option ManagedExecution)
    (publishReview : String → ScmPublicationRequest → Except ScmException ScmPublicationResult)
    (publication : ScmPublication) : Except ScmException ScmPublicationResult := do
  let request ← runtime.request executions publication
  let result ← publishReview publication.info.providerKey request
  validateResult publication result
  .ok result

/-- The loop of `_claim_next` over the providers that are left. -/
def claimFirst (view : Surroundings) (draws : String → Draw) :
    List String → PublicationTable → Except ServiceError (Option ScmPublication × PublicationTable)
  | [], table => .ok (none, table)
  | providerKey :: keys, table => do
    let draw := draws providerKey
    match ← Scm.claimNext table view (Text.strip runtime.workerId) providerKey
        (Text.strip runtime.workspaceScope) runtime.leaseSeconds draw.token draw.locked draw.at_ with
    | (some publication, table) => .ok (some publication, table)
    | (none, table) => claimFirst view draws keys table

/-- `_claim_next`. -/
def claimNext (view : Surroundings) (draws : String → Draw) (table : PublicationTable) :
    Except ServiceError (Option ScmPublication × PublicationTable) :=
  runtime.claimFirst view draws (runtime.supportedKeys.insertionSort (· ≤ ·)) table

/-- The rest of `run_once`, from what the `try` block answered or raised. -/
def report (view : Surroundings) (table : PublicationTable) (publication : ScmPublication)
    (outcome : Except ScmException ScmPublicationResult) (now at_ : Instant) :
    Except ServiceError (Bool × PublicationTable) :=
  match publication.job.leaseToken with
  | none => .error (.runtimeError "claimed SCM publication has no lease token")
  | some leaseToken =>
    match outcome with
    | .error exc => do
      let (code, retryable) := classifyFailure exc
      let (_, table) ← finish table view publication.job.id leaseToken (.failure exc.reason code
        retryable runtime.retries.limit
        (runtime.retries.schedule publication.job.attemptCount retryable now)) at_
      .ok (true, table)
    | .ok result => do
      let (_, table) ← finish table view publication.job.id leaseToken (.success result.toJson) at_
      .ok (true, table)

/-- `run_once`; `meanwhile` is what the other transactions do while the publisher runs. -/
def runOnce (view later : Surroundings) (draws : String → Draw)
    (executions : UUID → Option ManagedExecution)
    (publishReview : String → ScmPublicationRequest → Except ScmException ScmPublicationResult)
    (meanwhile : PublicationTable → PublicationTable) (now at_ : Instant)
    (table : PublicationTable) : Except ServiceError (Bool × PublicationTable) := do
  match ← runtime.claimNext view draws table with
  | (none, table) => .ok (false, table)
  | (some publication, table) =>
    runtime.report later (meanwhile table) publication
      (runtime.attempt executions publishReview publication) now at_

end ScmPublicationRuntime

/-! ## 3. What it records -/

section

variable {runtime : ScmPublicationRuntime} {draws : String → Draw}
  {table table' : PublicationTable} {publication : ScmPublication} {view later : Surroundings}
  {now at_ : Instant}

/-- The claimed publication is in the table with a lease of its own, and its execution exists. -/
theorem ScmPublicationRuntime.claimFirst_leased {keys : List String}
    {answer : Option ScmPublication} (hvalid : table.Valid)
    (h : runtime.claimFirst view draws keys table = .ok (answer, table')) :
    table'.Valid ∧ ∀ claimed, answer = some claimed → Leased table' claimed ∧
      (view.executions claimed.info.externalExecutionId).isSome ∧
      ∃ token, claimed.job.owned token = true ∧ claimed.job.leaseToken = some token := by
  induction keys generalizing table with
  | nil =>
    obtain ⟨rfl, rfl⟩ := Prod.mk.inj (Except.ok.inj h)
    refine ⟨hvalid, ?_⟩
    intro claimed hclaimed
    cases hclaimed
  | cons providerKey keys ih =>
    obtain ⟨⟨answered, grown⟩, hclaim, h⟩ := bind_ok h
    obtain ⟨⟨found, claimedTable⟩, hfoundClaim, hrest⟩ := bind_ok hclaim
    obtain ⟨hgrown, hfound⟩ := claimNext_leased hvalid hfoundClaim
    cases found with
    | none =>
      obtain ⟨rfl, rfl⟩ := Prod.mk.inj (Except.ok.inj hrest)
      exact ih hgrown h
    | some first =>
      obtain ⟨execution, hexecution, hrest⟩ := bind_ok hrest
      obtain ⟨rfl, rfl⟩ := Prod.mk.inj (Except.ok.inj hrest)
      obtain ⟨rfl, rfl⟩ := Prod.mk.inj (Except.ok.inj h)
      refine ⟨hgrown, ?_⟩
      intro claimed hclaimed
      obtain ⟨hleased, howned⟩ := hfound claimed hclaimed
      obtain rfl := Option.some.inj hclaimed
      refine ⟨hleased, ?_, _, howned⟩
      unfold Surroundings.execution at hexecution
      split at hexecution
      · cases hexecution
      · rename_i found hsome
        rw [hsome]
        rfl

theorem ScmPublicationRuntime.report_failure_iff {exc : ScmException} {token : UUID}
    (hvalid : table.Valid) (hleased : Leased table publication)
    (hexecution : (view.executions publication.info.externalExecutionId).isSome)
    (howned : publication.job.owned token = true) (htoken : publication.job.leaseToken = some token) :
    (∃ table', runtime.report view table publication (.error exc) now at_ = .ok (true, table') ∧
      Recorded table' publication) ↔ ¬exc.Blank := by
  obtain ⟨execution, hexecution⟩ := Option.isSome_iff_exists.mp hexecution
  have hreport : ∀ table', runtime.report view table publication (.error exc) now at_ =
      .ok (true, table') ↔
      ∃ answer, Outbox.finish policy table publication token (.failure exc.reason
        (classifyFailure exc).1 (classifyFailure exc).2 runtime.retries.limit
        (runtime.retries.schedule publication.job.attemptCount (classifyFailure exc).2 now)) at_ =
          .ok (answer, table') := by
    intro table'
    have hfound : Scm.publication table publication.job.id = .ok publication := by
      unfold Scm.publication
      rw [show table.jobs.get? publication.job.id = some publication from hleased]
    unfold report
    simp only [htoken, Scm.finish, hfound, bind, Except.bind]
    cases hfinish : Outbox.finish policy table publication token (.failure exc.reason
        (classifyFailure exc).1 (classifyFailure exc).2 runtime.retries.limit
        (runtime.retries.schedule publication.job.attemptCount (classifyFailure exc).2 now)) at_ with
    | error error => simp
    | ok finished =>
      -- the event of the transaction names the execution
      have hview : view.execution finished.1.info.externalExecutionId = .ok execution := by
        unfold Surroundings.execution
        rw [finish_info hfinish, hexecution]
      simp [hview, Prod.ext_iff]
  rw [← exc.isBlank_reason, ← finish_failure_iff hvalid hleased howned]
  constructor
  · rintro ⟨table', hok, hrecorded⟩
    obtain ⟨answer, hfinish⟩ := (hreport table').mp hok
    exact ⟨answer, table', hfinish, hrecorded⟩
  · rintro ⟨answer, table', hfinish, hrecorded⟩
    exact ⟨table', (hreport table').mpr ⟨answer, hfinish⟩, hrecorded⟩

/-- `run_once` with a `try` block that raises, on a claim that nobody touches before it is reported. -/
theorem ScmPublicationRuntime.runOnce_failure_iff {exc : ScmException}
    {executions : UUID → Option ManagedExecution}
    {publishReview : String → ScmPublicationRequest → Except ScmException ScmPublicationResult}
    {calls : List Call} (hvalid : table.Valid)
    (hclaim : runtime.claimNext view draws table = .ok (some publication, table'))
    (hleased : Leased (publications.run table' calls) publication)
    (hkept : ∀ id, (view.executions id).isSome → (later.executions id).isSome)
    (hraises : runtime.attempt executions publishReview publication = .error exc) :
    (∃ after, runtime.runOnce view later draws executions publishReview (publications.run · calls)
        now at_ table = .ok (true, after) ∧ Recorded after publication) ↔ ¬exc.Blank := by
  obtain ⟨hclaimed, hfound⟩ := claimFirst_leased hvalid hclaim
  obtain ⟨-, hexecution, token, howned, htoken⟩ := hfound publication rfl
  have hlater : (publications.run table' calls).Valid :=
    publications.run_invariant publications_serves.valid_step hclaimed calls
  unfold runOnce
  rw [hclaim]
  show (∃ after, runtime.report later (publications.run table' calls) publication
    (runtime.attempt executions publishReview publication) now at_ = .ok (true, after) ∧
      Recorded after publication) ↔ _
  rw [hraises]
  exact report_failure_iff hlater hleased (hkept _ hexecution) howned htoken

theorem not_blank {exc : ScmException} (htext : Text.isBlank exc.text = false) : ¬exc.Blank := by
  rintro ⟨-, hblank⟩
  rw [htext] at hblank
  cases hblank

theorem not_blank_of_append {exc : ScmException} {front rest : String}
    (htext : exc.text = front ++ rest) (hfront : Text.isBlank front = false) : ¬exc.Blank := by
  apply not_blank
  rw [htext, Text.isBlank_append, hfront]
  rfl

theorem requestText_error {fieldName value : String} {exc : ScmException}
    (h : requestText fieldName value = .error exc) : ¬exc.Blank := by
  unfold requestText at h
  split at h
  · obtain rfl := Except.error.inj h
    have htext : (domainValidationError ("SCM publication " ++ fieldName ++
        " must not be empty")).text = "SCM publication " ++ (fieldName ++ " must not be empty") :=
      String.append_assoc ..
    exact not_blank_of_append htext (by decide)
  · cases h

theorem postInit_error {request : ScmPublicationRequest} {exc : ScmException}
    (h : request.postInit = .error exc) : ¬exc.Blank := by
  unfold ScmPublicationRequest.postInit at h
  iterate 6
    rcases bind_error h with hfield | ⟨_, -, h⟩
    · exact requestText_error hfield
  split at h
  · obtain rfl := Except.error.inj h
    exact not_blank (by decide)
  · cases h

/-- What the runtime itself raises has a message. -/
theorem ScmPublicationRuntime.attempt_error {executions : UUID → Option ManagedExecution}
    {publishReview : String → ScmPublicationRequest → Except ScmException ScmPublicationResult}
    {exc : ScmException} (h : runtime.attempt executions publishReview publication = .error exc) :
    (∃ request, runtime.request executions publication = .ok request ∧
      publishReview publication.info.providerKey request = .error exc) ∨ ¬exc.Blank := by
  rcases bind_error h with hrequest | ⟨request, hrequest, h⟩
  · right
    unfold ScmPublicationRuntime.request at hrequest
    split at hrequest
    · obtain rfl := Except.error.inj hrequest
      exact not_blank_of_append rfl (by decide)
    split at hrequest
    · obtain rfl := Except.error.inj hrequest
      exact not_blank (by decide)
    split at hrequest
    · obtain rfl := Except.error.inj hrequest
      exact not_blank (by decide)
    split at hrequest
    · obtain rfl := Except.error.inj hrequest
      exact not_blank (by decide)
    split at hrequest
    · obtain rfl := Except.error.inj hrequest
      exact not_blank (by decide)
    · exact postInit_error hrequest
  rcases bind_error h with hpublish | ⟨result, -, h⟩
  · exact .inl ⟨request, hrequest, hpublish⟩
  rcases bind_error h with hvalidate | ⟨_, -, h⟩
  · right
    unfold validateResult at hvalidate
    dsimp only at hvalidate
    split at hvalidate
    · cases hvalidate
    · obtain rfl := Except.error.inj hvalidate
      exact not_blank_of_append rfl (by decide)
  · cases h

end

def sampleRetries : RetrySettings where
  limit := 3
  baseDelaySeconds := 30
  maxDelaySeconds := 300
  limit_range := by decide
  base_pos := by norm_num
  base_le := by norm_num

def notificationWorker : Notifications.NotificationRuntime where
  workerId := "worker"
  supportedKeys := ["webhook"]
  leaseSeconds := 60
  retries := sampleRetries
  worker_named := by decide
  keys_nonempty := by decide
  lease_pos := by decide

def publicationWorker : ScmPublicationRuntime where
  workerId := "worker"
  workspaceScope := "pool"
  supportedKeys := ["github"]
  leaseSeconds := 300
  retries := sampleRetries
  worker_named := by decide
  scope_named := by decide
  keys_nonempty := by decide
  lease_pos := by decide

def firstDraw (_ : String) : Draw := ⟨6, fun _ => false, 0⟩

/-- One delivery and one publication that wait for a worker. -/
def waitingDelivery : List Notifications.Call :=
  [.enqueue ⟨5, 2, "worker.readiness_alerted", some 3⟩
    [({ id := 1, providerKey := "webhook", destinationRef := "ops",
        eventTypes := [.workerReadinessAlerted] }, 4)] 0]

def waitingPublication : List Call :=
  [.request managedWorkspace 1 ⟨"github", "main", "Title", "Text", "key", "user"⟩ 5 0]

def managedExecution (id : UUID) : Option ManagedExecution :=
  some { id, runId := 2, isTerminal := true, workspaceBranch := some "task/1",
         workspaceScope := some "pool", workspacePath := some "/work" }

theorem waitingDelivery_claimed : ∃ delivery claimed,
    notificationWorker.claimNext firstDraw (Notifications.notifications.run {} waitingDelivery) =
      .ok (some delivery, claimed) ∧ Leased claimed delivery := by
  obtain ⟨delivery, claimed, hclaim⟩ := exists_answer (x := notificationWorker.claimNext firstDraw
    (Notifications.notifications.run {} waitingDelivery)) (by decide +kernel)
  have hvalid := Notifications.notifications_serves.valid_run waitingDelivery
  exact ⟨delivery, claimed, hclaim,
    ((Notifications.NotificationRuntime.claimFirst_leased hvalid hclaim).2 delivery rfl).1⟩

theorem waitingPublication_claimed : ∃ publication claimed request,
    publicationWorker.claimNext managedWorkspace firstDraw (publications.run {} waitingPublication) =
      .ok (some publication, claimed) ∧ Leased claimed publication ∧
      publicationWorker.request managedExecution publication = .ok request := by
  have hanswer : ((publicationWorker.claimNext managedWorkspace firstDraw
      (publications.run {} waitingPublication)).toOption.bind Prod.fst).any (fun publication =>
        (publicationWorker.request managedExecution publication).toOption.isSome) = true := by
    decide +kernel
  obtain ⟨publication, claimed, hclaim⟩ := exists_answer (x := publicationWorker.claimNext
    managedWorkspace firstDraw (publications.run {} waitingPublication)) (by decide +kernel)
  have hvalid := publications_serves.valid_run waitingPublication
  rw [hclaim] at hanswer
  cases hrequest : publicationWorker.request managedExecution publication with
  | error error =>
    change (publicationWorker.request managedExecution publication).toOption.isSome = true at hanswer
    rw [hrequest] at hanswer
    cases hanswer
  | ok request =>
    exact ⟨publication, claimed, request, hclaim,
      ((ScmPublicationRuntime.claimFirst_leased hvalid hclaim).2 publication rfl).1, hrequest⟩

def notificationError (text : String) : Notifications.NotificationException :=
  ⟨.other, text, "RuntimeError", by decide⟩

def scmError (text : String) : ScmException := ⟨.other, text, "RuntimeError", by decide⟩

end JbOrchestrator.Scm
