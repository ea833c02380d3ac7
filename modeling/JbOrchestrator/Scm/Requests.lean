import JbOrchestrator.Outbox.Contents
import JbOrchestrator.Scm.Publications

/-!
# Requests — when a request for a publication is answered from the table

A publication is found by its execution and idempotency key, whatever its job has been through.  A request
that finds one is answered with it, where the arguments that are compared agree.
-/

open Lib

namespace JbOrchestrator.Scm

open Domain Workflows Application Outbox

/-! ## 1. The unique columns -/

def publicationKey (publication : ScmPublication) : UUID × String :=
  (publication.info.externalExecutionId, publication.info.idempotencyKey)

theorem getByIdempotencyKey_eq (table : PublicationTable) (externalExecutionId : UUID)
    (idempotencyKey : String) : getByIdempotencyKey table externalExecutionId idempotencyKey =
      table.jobs.findBy publicationKey (externalExecutionId, idempotencyKey) := by
  unfold getByIdempotencyKey Dict.findBy publicationKey
  simp only [Prod.mk.injEq]

/-- The info of a publication that its constructor has stripped. -/
def PublicationInfo.normalized (info : PublicationInfo) : PublicationInfo :=
  { info with
    providerKey := Text.strip info.providerKey
    repository := Text.strip info.repository
    sourceBranch := Text.strip info.sourceBranch
    targetBranch := Text.strip info.targetBranch
    title := Text.strip info.title
    body := Text.strip info.body
    workspaceScope := Text.strip info.workspaceScope
    idempotencyKey := Text.strip info.idempotencyKey
    requestedBy := Text.strip info.requestedBy }

theorem requireText_ok {fieldName value text : String} (h : requireText fieldName value = .ok text) :
    text = Text.strip value := by
  unfold requireText at h
  split at h
  · cases h
  · exact (Except.ok.inj h).symm

theorem ScmPublication.create_ok {id : UUID} {info : PublicationInfo} {createdAt : Instant}
    {publication : ScmPublication} (h : ScmPublication.create id info createdAt = .ok publication) :
    publication.job.id = id ∧ publication.info = info.normalized := by
  unfold ScmPublication.create at h
  obtain ⟨providerKey, hproviderKey, h⟩ := bind_ok h
  obtain ⟨repository, hrepository, h⟩ := bind_ok h
  obtain ⟨sourceBranch, hsourceBranch, h⟩ := bind_ok h
  obtain ⟨targetBranch, htargetBranch, h⟩ := bind_ok h
  obtain ⟨title, htitle, h⟩ := bind_ok h
  obtain ⟨workspaceScope, hworkspaceScope, h⟩ := bind_ok h
  obtain ⟨idempotencyKey, hidempotencyKey, h⟩ := bind_ok h
  obtain ⟨requestedBy, hrequestedBy, h⟩ := bind_ok h
  split at h
  · cases h
  · obtain rfl := Except.ok.inj h
    refine ⟨rfl, ?_⟩
    unfold PublicationInfo.normalized
    rw [requireText_ok hproviderKey, requireText_ok hrepository, requireText_ok hsourceBranch,
      requireText_ok htargetBranch, requireText_ok htitle, requireText_ok hworkspaceScope,
      requireText_ok hidempotencyKey, requireText_ok hrequestedBy]

/-! ## 2. A request -/

/-- What a request asks for, with what it takes from the execution and the project. -/
def requested (externalExecutionId : UUID) (execution : ExternalExecution) (project : Project)
    (arguments : PublicationArguments) : PublicationInfo where
  externalExecutionId := externalExecutionId
  providerKey := Text.strip arguments.providerKey
  repository := project.repositoryUrl
  sourceBranch := execution.workspaceBranch.getD ""
  targetBranch := Text.strip arguments.targetBranch
  title := Text.strip arguments.title
  body := Text.strip arguments.body
  workspaceScope := execution.workspaceScope.getD ""
  idempotencyKey := Text.strip arguments.idempotencyKey
  requestedBy := arguments.requestedBy

/-- The rows that let a request pass, whether the workspace is released or not. -/
structure Admits (view : Surroundings) (externalExecutionId : UUID) (execution : ExternalExecution)
    (project : Project) : Prop where
  row : view.executions externalExecutionId = some execution
  terminal : execution.isTerminal = true
  branch : execution.workspaceBranch.getD "" ≠ ""
  scope : execution.workspaceScope.getD "" ≠ ""
  owner : view.project execution = .ok project

section

variable {table table' : PublicationTable} {view : Surroundings} {externalExecutionId id : UUID}
  {execution : ExternalExecution} {project : Project} {arguments : PublicationArguments} {at_ : Instant}
  {publication existing : ScmPublication} {replayed : Bool}

/-- What a request that succeeds found or added. -/
inductive RequestOk (table : PublicationTable) (values : PublicationInfo) (publication : ScmPublication) :
    Bool → PublicationTable → Prop where
  | replayed (hfound : table.jobs.findBy publicationKey
      (values.externalExecutionId, values.idempotencyKey) = some publication)
    (hsame : sameValues publication.info values = true) : RequestOk table values publication true table
  | created {table' : PublicationTable} (hnone : table.jobs.findBy publicationKey
      (values.externalExecutionId, values.idempotencyKey) = none)
    (hinfo : publication.info = values.normalized) (hnew : table.jobs.get? publication.job.id = none)
    (hjobs : table'.jobs = table.jobs.set publication.job.id publication) :
    RequestOk table values publication false table'

theorem execution_some (h : view.execution externalExecutionId = .ok execution) :
    view.executions externalExecutionId = some execution := by
  unfold Surroundings.execution at h
  split at h
  · cases h
  · rename_i found hfound
    obtain rfl := Except.ok.inj h
    exact hfound

theorem replay_same {values : PublicationInfo} {answer : ScmPublication × Bool}
    (h : replay table existing values = .ok (answer, table')) :
    answer = (existing, true) ∧ table' = table ∧ sameValues existing.info values = true := by
  unfold replay at h
  split at h
  · cases h
  · rename_i hsame
    obtain ⟨rfl, rfl⟩ := Prod.mk.inj (Except.ok.inj h)
    exact ⟨rfl, rfl, by simpa using hsame⟩

theorem request_ok
    (h : request table view externalExecutionId arguments id at_ = .ok ((publication, replayed), table')) :
    Text.isBlank arguments.idempotencyKey = false ∧ ∃ execution project,
      Admits view externalExecutionId execution project ∧ execution.workspaceReleasedAt = none ∧
      RequestOk table (requested externalExecutionId execution project arguments) publication replayed
        table' := by
  unfold request at h
  split at h
  · cases h
  rename_i hkey
  obtain ⟨execution, hexecution, h⟩ := bind_ok h
  split at h
  · cases h
  rename_i hterminal
  split at h
  · cases h
  rename_i hreleased
  split at h
  · cases h
  rename_i hworkspace
  obtain ⟨project, hproject, h⟩ := bind_ok h
  obtain ⟨hbranch, hscope⟩ := not_or.mp hworkspace
  refine ⟨by simpa using hkey, execution, project, ⟨execution_some hexecution, by simpa using hterminal,
    hbranch, hscope, hproject⟩, not_not.mp hreleased, ?_⟩
  dsimp only at h
  rw [getByIdempotencyKey_eq] at h
  split at h
  · rename_i existing hfound
    obtain ⟨hanswer, rfl, hsame⟩ := replay_same h
    obtain ⟨rfl, rfl⟩ := Prod.mk.inj hanswer
    exact .replayed hfound hsame
  · rename_i hnone
    obtain ⟨created, hcreate, h⟩ := bind_ok h
    obtain ⟨hid, hinfo⟩ := ScmPublication.create_ok (raiseDomain_ok hcreate)
    obtain ⟨⟨added, grown⟩, hadd, h⟩ := bind_ok h
    -- no row agrees in the unique columns, so the row is added
    have hother : (table.jobs.values.any fun other =>
        other.info.externalExecutionId = externalExecutionId &&
          other.info.idempotencyKey = Text.strip arguments.idempotencyKey) = false := by
      rw [List.any_eq_false]
      intro other hmem
      have hnot := List.find?_eq_none.mp hnone other hmem
      simpa [publicationKey] using hnot
    unfold Table.tryAdd at hadd
    rw [if_neg (by rw [hother]; decide)] at hadd
    split at hadd
    · cases hadd
    · rename_i hnew
      obtain ⟨rfl, rfl⟩ := Prod.mk.inj (Except.ok.inj hadd)
      obtain ⟨hanswer, rfl⟩ := Prod.mk.inj (Except.ok.inj h)
      obtain ⟨rfl, rfl⟩ := Prod.mk.inj hanswer
      exact .created hnone hinfo (by simpa using hnew) rfl

/-- A request that finds its key is answered with the publication, or with a conflict. -/
theorem request_found (hkey : Text.isBlank arguments.idempotencyKey = false)
    (hadmits : Admits view externalExecutionId execution project)
    (hreleased : execution.workspaceReleasedAt = none)
    (hfound : table.jobs.findBy publicationKey
      (externalExecutionId, Text.strip arguments.idempotencyKey) = some existing) :
    request table view externalExecutionId arguments id at_ =
      replay table existing (requested externalExecutionId execution project arguments) := by
  have hexecution : view.execution externalExecutionId = .ok execution := by
    unfold Surroundings.execution
    rw [hadmits.row]
  unfold request
  rw [hkey, if_neg (by decide), hexecution]
  simp only [bind, Except.bind]
  rw [if_neg (by rw [hadmits.terminal]; decide), if_neg (not_not.mpr hreleased),
    if_neg (not_or.mpr ⟨hadmits.branch, hadmits.scope⟩), hadmits.owner, getByIdempotencyKey_eq,
    hfound]
  rfl

/-- The release of the workspace is checked before the key is looked up. -/
theorem request_released (hkey : Text.isBlank arguments.idempotencyKey = false)
    (hadmits : Admits view externalExecutionId execution project)
    (hreleased : execution.workspaceReleasedAt ≠ none) :
    request table view externalExecutionId arguments id at_ =
      .error (.resourceConflict "SCM publication requires an unreleased workspace") := by
  have hexecution : view.execution externalExecutionId = .ok execution := by
    unfold Surroundings.execution
    rw [hadmits.row]
  unfold request
  rw [hkey, if_neg (by decide), hexecution]
  simp only [bind, Except.bind]
  rw [if_neg (by rw [hadmits.terminal]; decide), if_pos hreleased]

end

/-! ## 3. The table over a run -/

/-- The call, reading the rows of `view`. -/
def Call.reading (view : Surroundings) : Call → Call
  | .request _ externalExecutionId arguments id at_ =>
    .request view externalExecutionId arguments id at_
  | .retry _ publicationId at_ => .retry view publicationId at_
  | .cancelAutomaticRetry _ publicationId at_ => .cancelAutomaticRetry view publicationId at_
  | .claimNext _ workerId providerKey workspaceScope leaseSeconds token locked at_ =>
    .claimNext view workerId providerKey workspaceScope leaseSeconds token locked at_
  | .succeed _ publicationId leaseToken result at_ => .succeed view publicationId leaseToken result at_
  | .fail _ publicationId leaseToken reason code retryable automaticRetryLimit nextAttemptAt at_ =>
    .fail view publicationId leaseToken reason code retryable automaticRetryLimit nextAttemptAt at_

theorem PublicationInfo.normalized_normalized (info : PublicationInfo) :
    info.normalized.normalized = info.normalized := by
  unfold normalized
  simp only [Text.strip_strip]

/-- Every publication is under its own id, found by its key, and stripped. -/
structure Consistent (table : PublicationTable) : Prop where
  valid : table.Valid
  indexed : table.jobs.Indexed publicationKey
  normalized : ∀ id publication, table.jobs.get? id = some publication →
    publication.info.normalized = publication.info

theorem Consistent.empty : Consistent {} :=
  ⟨.empty, .empty, fun _ _ h => by cases h⟩

/-- Publications stay, with their ids and what they are about. -/
def Keeps (table table' : PublicationTable) : Prop :=
  ∀ id publication, table.jobs.get? id = some publication → ∃ publication',
    table'.jobs.get? id = some publication' ∧ publication'.info = publication.info ∧
      publication'.job.id = publication.job.id

theorem Keeps.refl (table : PublicationTable) : Keeps table table :=
  fun _ publication h => ⟨publication, h, rfl, rfl⟩

theorem Keeps.trans {table table' table'' : PublicationTable} (h : Keeps table table')
    (h' : Keeps table' table'') : Keeps table table'' := by
  intro id publication hrow
  obtain ⟨publication', hrow', hinfo, hid⟩ := h id publication hrow
  obtain ⟨publication'', hrow'', hinfo', hid'⟩ := h' id publication' hrow'
  exact ⟨publication'', hrow'', hinfo'.trans hinfo, hid'.trans hid⟩

section

variable {table table' : PublicationTable}

theorem RequestOk.keeps {values : PublicationInfo} {publication : ScmPublication} {replayed : Bool}
    (h : RequestOk table values publication replayed table') : Keeps table table' := by
  cases h with
  | replayed => exact .refl table
  | created hnone hinfo hnew hjobs =>
    intro id other hother
    rw [hjobs, Dict.get?_set]
    split
    · rename_i hid
      rw [hid, hnew] at hother
      cases hother
    · exact ⟨other, hother, rfl, rfl⟩

theorem RequestOk.indexed {values : PublicationInfo} {publication : ScmPublication} {replayed : Bool}
    (hkey : Text.strip values.idempotencyKey = values.idempotencyKey)
    (hindexed : table.jobs.Indexed publicationKey)
    (h : RequestOk table values publication replayed table') : table'.jobs.Indexed publicationKey := by
  cases h with
  | replayed => exact hindexed
  | created hnone hinfo hnew hjobs =>
    rw [hjobs]
    apply hindexed.add
    have hcolumn : publicationKey publication = (values.externalExecutionId, values.idempotencyKey) := by
      unfold publicationKey
      rw [hinfo]
      exact Prod.ext rfl hkey
    rw [hcolumn]
    exact hnone

theorem RequestOk.normalized {values : PublicationInfo} {publication : ScmPublication} {replayed : Bool}
    (hnormalized : ∀ id other, table.jobs.get? id = some other → other.info.normalized = other.info)
    (h : RequestOk table values publication replayed table') :
    ∀ id other, table'.jobs.get? id = some other → other.info.normalized = other.info := by
  cases h with
  | replayed => exact hnormalized
  | created hnone hinfo hnew hjobs =>
    intro id other hother
    rw [hjobs, Dict.get?_set] at hother
    split at hother
    · obtain rfl := Option.some.inj hother
      rw [hinfo]
      exact PublicationInfo.normalized_normalized values
    · exact hnormalized id other hother

theorem retry_keeps {view : Surroundings} {publicationId : UUID} {at_ : Instant}
    {answer : ScmPublication × Bool} (hvalid : table.Valid)
    (h : retry table view publicationId at_ = .ok (answer, table')) : Resaves table table' := by
  obtain ⟨found, hfound, h⟩ := bind_ok h
  obtain ⟨execution, -, h⟩ := bind_ok h
  split at h
  · cases h
  split at h
  · cases h
  · exact retry_resaves (publication_ok hvalid hfound).2 h

theorem cancelAutomaticRetry_keeps {view : Surroundings} {publicationId : UUID} {at_ : Instant}
    {answer : ScmPublication × Bool} (hvalid : table.Valid)
    (h : cancelAutomaticRetry table view publicationId at_ = .ok (answer, table')) :
    Resaves table table' := by
  obtain ⟨found, hfound, h⟩ := bind_ok h
  obtain ⟨execution, -, h⟩ := bind_ok h
  exact cancelAutomaticRetry_resaves (publication_ok hvalid hfound).2 h

theorem claimNext_keeps {view : Surroundings} {workerId providerKey workspaceScope : String}
    {leaseSeconds : ℤ} {token : UUID} {locked : UUID → Bool} {at_ : Instant}
    {answer : Option ScmPublication} (hvalid : table.Valid)
    (h : claimNext table view workerId providerKey workspaceScope leaseSeconds token locked at_ =
      .ok (answer, table')) : Resaves table table' := by
  obtain ⟨⟨claim, claimed⟩, hclaim, h⟩ := bind_ok h
  have hresaves := claimNext_resaves hvalid hclaim
  dsimp only at h
  split at h
  · obtain ⟨-, rfl⟩ := Prod.mk.inj (Except.ok.inj h)
    exact hresaves
  · obtain ⟨execution, -, h⟩ := bind_ok h
    obtain ⟨-, rfl⟩ := Prod.mk.inj (Except.ok.inj h)
    exact hresaves

theorem finish_keeps {view : Surroundings} {publicationId leaseToken : UUID}
    {completion : Completion ScmPublicationFailureCode} {at_ : Instant} {answer : ScmPublication}
    (hvalid : table.Valid)
    (h : finish table view publicationId leaseToken completion at_ = .ok (answer, table')) :
    Resaves table table' := by
  obtain ⟨found, hfound, h⟩ := bind_ok h
  obtain ⟨⟨finished, grown⟩, hfinish, h⟩ := bind_ok h
  obtain ⟨execution, -, h⟩ := bind_ok h
  obtain ⟨-, rfl⟩ := Prod.mk.inj (Except.ok.inj h)
  exact finish_resaves (publication_ok hvalid hfound).2 hfinish

/-- The calls other than requests only save jobs again. -/
theorem Call.perform_cases {call : Call} {answer : Answer} (hvalid : table.Valid)
    (h : call.perform table = .ok (answer, table')) :
    Resaves table table' ∨ ∃ values publication replayed,
      Text.strip values.idempotencyKey = values.idempotencyKey ∧
        RequestOk table values publication replayed table' := by
  cases call with
  | request view externalExecutionId arguments id at_ =>
    obtain ⟨⟨⟨publication, replayed⟩, grown⟩, hrequest, h⟩ := bind_ok h
    obtain ⟨-, rfl⟩ := Prod.mk.inj (Except.ok.inj h)
    obtain ⟨-, execution, project, -, -, hok⟩ := request_ok hrequest
    refine .inr ⟨_, publication, replayed, ?_, hok⟩
    exact Text.strip_strip arguments.idempotencyKey
  | retry view publicationId at_ =>
    obtain ⟨⟨⟨answered, unchanged⟩, retried⟩, hretry, h⟩ := bind_ok h
    obtain ⟨-, rfl⟩ := Prod.mk.inj (Except.ok.inj h)
    exact .inl (retry_keeps hvalid hretry)
  | cancelAutomaticRetry view publicationId at_ =>
    obtain ⟨⟨⟨answered, unchanged⟩, cancelled⟩, hcancel, h⟩ := bind_ok h
    obtain ⟨-, rfl⟩ := Prod.mk.inj (Except.ok.inj h)
    exact .inl (cancelAutomaticRetry_keeps hvalid hcancel)
  | claimNext view workerId providerKey workspaceScope leaseSeconds token locked at_ =>
    obtain ⟨⟨claim, claimed⟩, hclaim, h⟩ := bind_ok h
    obtain ⟨-, rfl⟩ := Prod.mk.inj (Except.ok.inj h)
    exact .inl (claimNext_keeps hvalid hclaim)
  | succeed view publicationId leaseToken result at_ =>
    obtain ⟨⟨publication, finished⟩, hfinish, h⟩ := bind_ok h
    obtain ⟨-, rfl⟩ := Prod.mk.inj (Except.ok.inj h)
    exact .inl (finish_keeps hvalid hfinish)
  | fail view publicationId leaseToken reason code retryable automaticRetryLimit nextAttemptAt at_ =>
    obtain ⟨⟨publication, finished⟩, hfinish, h⟩ := bind_ok h
    obtain ⟨-, rfl⟩ := Prod.mk.inj (Except.ok.inj h)
    exact .inl (finish_keeps hvalid hfinish)

theorem Call.perform_keeps {call : Call} {answer : Answer} (h : Consistent table)
    (hperform : call.perform table = .ok (answer, table')) : Consistent table' ∧ Keeps table table' := by
  have hvalid : table'.Valid := (Call.perform_spec h.valid hperform).1.valid h.valid
  rcases Call.perform_cases h.valid hperform with hresaves | ⟨values, publication, replayed, hkey, hok⟩
  · have hindexed : table'.jobs.Indexed publicationKey := hresaves.indexed
      (fun info => (info.externalExecutionId, info.idempotencyKey)) h.indexed
    refine ⟨⟨hvalid, hindexed, ?_⟩, fun id publication hrow => hresaves.get? hrow⟩
    intro id publication hrow
    obtain ⟨earlier, hearlier, hinfo⟩ := hresaves.info hrow
    rw [← hinfo]
    exact h.normalized id earlier hearlier
  · exact ⟨⟨hvalid, hok.indexed hkey h.indexed, hok.normalized h.normalized⟩, hok.keeps⟩

end

end JbOrchestrator.Scm
