import JbOrchestrator.OpenClaw.WorkspaceRuntime

/-!
# Releases — what the rows say of the worktree

A row that is released, and an operation that succeeded, tell the truth about the repository, whatever the
workers, the executor and the owner of the worktree do in between and wherever a worker stops.
-/

open Lib

namespace JbOrchestrator.OpenClaw

open Domain Workflows Application Outbox WorkspaceOperations WorkspaceOperationRuntime

/-! ## 1. Tables of operations -/

/-- The table is changed by one transaction: operations stay what they are, those that are over do not
change, and what is new is as `new` says. -/
structure Moves (new : WorkspaceOperation → Prop) (table table' : OperationTable) : Prop where
  consistent : Consistent table'
  keeps : Keeps table table'
  final : ∀ id operation, table.get? id = some operation → operation.isTerminal = true →
    table'.get? id = some operation
  fresh : ∀ id operation, table'.get? id = some operation → table.get? id = some operation ∨ new operation

section

variable {new : WorkspaceOperation → Prop} {table table' : OperationTable}
  {executions : UUID → Option ManagedExecution} {operation operation' : WorkspaceOperation}

theorem Moves.refl (h : Consistent table) : Moves new table table :=
  ⟨h, .refl table, fun _ _ hrow _ => hrow, fun _ _ hrow => .inl hrow⟩

/-- An operation that is not over is saved again. -/
theorem moves_save (h : Consistent table) {id : UUID} (hrow : table.get? id = some operation)
    (hsame : SameCommand operation operation') (hopen : operation.isTerminal = false)
    (hnew : new operation') : Moves new table (table.set operation'.id operation') := by
  obtain ⟨hconsistent, hkeeps⟩ := h.save hrow hsame
  have hid : operation'.id = id := hsame.id.trans (h.id id operation hrow)
  refine ⟨hconsistent, hkeeps, ?_, ?_⟩
  · intro id' other hother hterminal
    rw [Dict.get?_set, hid]
    split
    · rename_i hsameId
      subst hsameId
      rw [hrow] at hother
      obtain rfl := Option.some.inj hother
      rw [hopen] at hterminal
      cases hterminal
    · exact hother
  · intro id' other hother
    rw [Dict.get?_set] at hother
    split at hother
    · obtain rfl := Option.some.inj hother
      exact .inr hnew
    · exact .inl hother

theorem claimNext_moves {workerId workspaceScope : String} {leaseSeconds : ℤ} {token : UUID}
    {locked : UUID → Bool} {now : Instant} {answer : Option WorkspaceOperation} (h : Consistent table)
    (hclaim : WorkspaceOperations.claimNext table executions workerId workspaceScope leaseSeconds token
      locked now = .ok (answer, table')) :
    Moves (fun operation => operation.status = .claimed) table table' ∧
      ∀ claimed, answer = some claimed → table'.get? claimed.id = some claimed := by
  unfold WorkspaceOperations.claimNext at hclaim
  split at hclaim
  · obtain ⟨rfl, rfl⟩ := Prod.mk.inj (Except.ok.inj hclaim)
    exact ⟨.refl h, fun claimed hnone => absurd hnone (Option.some_ne_none claimed).symm⟩
  · rename_i operation hcandidate
    obtain ⟨claimed, hclaimed, hclaim⟩ := bind_ok hclaim
    obtain ⟨row, -, hclaim⟩ := bind_ok hclaim
    obtain ⟨rfl, rfl⟩ := Prod.mk.inj (Except.ok.inj hclaim)
    have hmem := List.mem_of_mem_head? hcandidate
    rw [List.mem_insertionSort, List.mem_filter, List.mem_filterMap] at hmem
    obtain ⟨⟨id, -, hrow⟩, -⟩ := hmem
    have hsame := WorkspaceOperation.claim_sameCommand (raiseDomain_ok hclaimed)
    have hstep := raiseDomain_ok hclaimed
    unfold WorkspaceOperation.claim at hstep
    split at hstep
    · cases hstep
    rename_i hopen
    split at hstep
    · cases hstep
    refine ⟨moves_save h hrow hsame (by simpa using hopen) ?_, ?_⟩
    · rw [← Except.ok.inj hstep]
    · intro claimed' hanswer
      obtain rfl := Option.some.inj hanswer
      rw [Dict.get?_set, if_pos rfl]

theorem requireClaim_ok {leaseToken : UUID} (h : operation.requireClaim leaseToken = .ok ()) :
    operation.isTerminal = false := by
  unfold WorkspaceOperation.requireClaim at h
  split at h
  · cases h
  · rename_i hclaimed
    have hstatus : operation.status = .claimed := by
      by_contra hne
      exact hclaimed (.inl hne)
    simp [WorkspaceOperation.isTerminal, hstatus]

/-- An operation is finished by the holder of its lease. -/
theorem finish_moves {operationId : UUID}
    {report : WorkspaceOperation → Except DomainError WorkspaceOperation} {answer : WorkspaceOperation}
    (hreport : ∀ operation finished, report operation = .ok finished →
      SameCommand operation finished ∧ operation.isTerminal = false ∧
        (table.get? operationId = some operation → new finished))
    (h : Consistent table)
    (hfinish : WorkspaceOperations.finish table executions operationId report = .ok (answer, table')) :
    Moves new table table' := by
  unfold WorkspaceOperations.finish at hfinish
  split at hfinish
  · cases hfinish
  · rename_i operation hrow
    obtain ⟨finished, hfinished, hfinish⟩ := bind_ok hfinish
    obtain ⟨row, -, hfinish⟩ := bind_ok hfinish
    obtain ⟨-, rfl⟩ := Prod.mk.inj (Except.ok.inj hfinish)
    obtain ⟨hsame, hopen, hnew⟩ := hreport operation finished (raiseDomain_ok hfinished)
    exact moves_save h hrow hsame hopen (hnew hrow)

theorem succeed_moves {operationId leaseToken : UUID} {result : JsonObject} {at_ : Instant}
    {answer : WorkspaceOperation} (h : Consistent table)
    (hfinish : WorkspaceOperations.succeed table executions operationId leaseToken result at_ =
      .ok (answer, table')) :
    Moves (fun operation => operation.result = some result ∧ ∃ old,
      table.get? operationId = some old ∧ SameCommand old operation) table table' := by
  apply finish_moves _ h hfinish
  intro operation finished hfinished
  refine ⟨WorkspaceOperation.succeed_sameCommand hfinished, ?_, fun hrow => ?_⟩
  · obtain ⟨_, hclaim, -⟩ := bind_ok hfinished
    exact requireClaim_ok hclaim
  · have hsame := WorkspaceOperation.succeed_sameCommand hfinished
    obtain ⟨_, -, hfinished⟩ := bind_ok hfinished
    obtain rfl := Except.ok.inj hfinished
    exact ⟨rfl, operation, hrow, hsame⟩

theorem fail_moves {operationId leaseToken : UUID} {reason : String} {at_ : Instant}
    {answer : WorkspaceOperation} (h : Consistent table)
    (hfinish : WorkspaceOperations.fail table executions operationId leaseToken reason at_ =
      .ok (answer, table')) :
    Moves (fun operation => operation.status = .failed) table table' := by
  apply finish_moves _ h hfinish
  intro operation finished hfinished
  refine ⟨WorkspaceOperation.fail_sameCommand hfinished, ?_, fun _ => ?_⟩
  · obtain ⟨_, hclaim, -⟩ := bind_ok hfinished
    exact requireClaim_ok hclaim
  · obtain ⟨_, -, hfinished⟩ := bind_ok hfinished
    split at hfinished
    · cases hfinished
    · obtain rfl := Except.ok.inj hfinished
      rfl

/-- What a request adds is pending. -/
theorem request_pending {externalExecutionId id : UUID} {arguments : OperationArguments} {at_ : Instant}
    (h : WorkspaceOperations.request table executions externalExecutionId arguments id at_ =
      .ok ((operation, false), table')) : operation.status = .pending := by
  unfold WorkspaceOperations.request at h
  split at h
  · cases h
  split at h
  · cases h
  obtain ⟨row, -, h⟩ := bind_ok h
  split at h
  · cases h
  split at h
  · cases h
  have hreplay : ∀ existing table', replay table existing arguments ≠ .ok ((operation, false), table') := by
    intro existing table' hreplayed
    cases (replay_same hreplayed).1
  split at h
  · exact absurd h (hreplay _ _)
  · obtain ⟨created, hcreate, h⟩ := bind_ok h
    have hcreated := postInit_ok (raiseDomain_ok hcreate)
    obtain ⟨⟨added, grown⟩, hadd, h⟩ := bind_ok h
    dsimp only at h
    split at h
    · obtain ⟨hanswer, -⟩ := Prod.mk.inj (Except.ok.inj h)
      obtain ⟨rfl, -⟩ := Prod.mk.inj hanswer
      rw [hcreated]
      rfl
    · split at h
      · obtain ⟨hanswer, -⟩ := replay_same h
        cases hanswer
      · cases h

theorem request_moves {externalExecutionId id : UUID} {arguments : OperationArguments} {at_ : Instant}
    {replayed : Bool} (hconsistent : Consistent table)
    (h : WorkspaceOperations.request table executions externalExecutionId arguments id at_ =
      .ok ((operation, replayed), table')) :
    Moves (fun operation => operation.status = .pending) table table' := by
  obtain ⟨-, -, -, -, -, hok⟩ := request_ok h
  obtain ⟨hconsistent', hkeeps⟩ := hok.keeps hconsistent
  cases hok with
  | replayed => exact .refl hconsistent
  | created _ _ hnew =>
    refine ⟨hconsistent', hkeeps, ?_, ?_⟩
    · intro id' other hother _
      rw [Dict.get?_set, if_neg]
      · exact hother
      · rintro rfl
        cases hnew.symm.trans hother
    · intro id' other hother
      rw [Dict.get?_set] at hother
      split at hother
      · obtain rfl := Option.some.inj hother
        exact .inr (request_pending h)
      · exact .inl hother

end

/-! ## 2. The workplace over time -/

variable (isoformat : Instant → String) (branch : String)

/-- A result that says what the row of the execution says, or that a review was made. -/
def Truthful (kind : WorkspaceOperationKind) (result : JsonObject) (row : ManagedExecution) : Prop :=
  (∃ at_ status, row.workspaceReleasedAt = some at_ ∧
    Json.lookup result "status" = some (jsonText status) ∧
    (status = "already_released" ∨ kind = .cleanup ∧ status = "released") ∧
    Json.lookup result "released_at" = some (jsonText (isoformat at_))) ∨
  kind = .inspect ∧ Json.lookup result "status" = some (jsonText "reviewed")

/-- The rows tell the truth: what is released is gone for good, and an operation that succeeded has a result
that still holds. -/
structure Sound (place : Workplace) : Prop where
  consistent : Consistent place.operations
  recorded : recordedBranch place.row.toExternalExecution = branch
  released : place.row.workspaceReleasedAt ≠ none →
    Gone branch place.repository ∧ place.row.isTerminal = true
  succeeded : ∀ id operation, place.operations.get? id = some operation →
    operation.status = .succeeded → ∃ result, operation.result = some result ∧
      Truthful isoformat operation.kind result place.row

namespace Workplace

/-- A later state of the workplace: the end of the execution stays as it was recorded, and so do its release
and an operation that is over. -/
structure Later (place place' : Workplace) : Prop where
  repository : place.repository.Later branch place'.repository
  ended : place.row.isTerminal = true → place'.row.toExternalExecution = place.row.toExternalExecution
  released : ∀ at_, place.row.workspaceReleasedAt = some at_ → place'.row.workspaceReleasedAt = some at_
  keeps : Keeps place.operations place'.operations
  final : ∀ id operation, place.operations.get? id = some operation → operation.isTerminal = true →
    place'.operations.get? id = some operation

variable {branch} {place place' place'' : Workplace}

theorem Later.refl (place : Workplace) : Later branch place place :=
  ⟨.refl _, fun _ => rfl, fun _ h => h, .refl _, fun _ _ h _ => h⟩

theorem Later.terminal (h : place.Later branch place') (hterminal : place.row.isTerminal = true) :
    place'.row.isTerminal = true := by
  rw [h.ended hterminal]
  exact hterminal

theorem Later.trans (h : Later branch place place') (h' : Later branch place' place'') :
    Later branch place place'' where
  repository := h.repository.trans h'.repository
  ended hterminal := (h'.ended (h.terminal hterminal)).trans (h.ended hterminal)
  released at_ hreleased := h'.released at_ (h.released at_ hreleased)
  keeps := h.keeps.trans h'.keeps
  final id operation hrow hterminal :=
    h'.final id operation (h.final id operation hrow hterminal) hterminal

end Workplace

section

variable {isoformat branch} {place place' : Workplace} {operation : WorkspaceOperation}

theorem Truthful.later {kind : WorkspaceOperationKind} {result : JsonObject}
    (h : Truthful isoformat kind result place.row) (hlater : place.Later branch place') :
    Truthful isoformat kind result place'.row := by
  rcases h with ⟨at_, status, hreleased, hstatus⟩ | h
  · exact .inl ⟨at_, status, hlater.released at_ hreleased, hstatus⟩
  · exact .inr h

theorem Gone.later {repository repository' : Repository} (h : Gone branch repository)
    (hlater : repository.Later branch repository') : Gone branch repository' :=
  ⟨hlater.worktree h.1, hlater.gone h.2⟩

/-- A change of the repository. -/
theorem Sound.repository (h : Sound isoformat branch place) {repository : Repository}
    (hlater : place.repository.Later branch repository) :
    Sound isoformat branch { place with repository } where
  consistent := h.consistent
  recorded := h.recorded
  released hreleased := ⟨(h.released hreleased).1.later hlater, (h.released hreleased).2⟩
  succeeded := h.succeeded

/-- A change of the operations, of which one that succeeds has a truthful result. -/
theorem Sound.moves {new : WorkspaceOperation → Prop} {operations : OperationTable}
    (h : Sound isoformat branch place) (hmoves : Moves new place.operations operations)
    (hnew : ∀ operation, new operation → operation.status = .succeeded → ∃ result,
      operation.result = some result ∧ Truthful isoformat operation.kind result place.row) :
    Sound isoformat branch { place with operations } ∧
      place.Later branch { place with operations } := by
  refine ⟨⟨hmoves.consistent, h.recorded, h.released, ?_⟩,
    ⟨.refl _, fun _ => rfl, fun _ hreleased => hreleased, hmoves.keeps, hmoves.final⟩⟩
  intro id operation hrow hsucceeded
  rcases hmoves.fresh id operation hrow with hold | hfresh
  · exact h.succeeded id operation hold hsucceeded
  · exact hnew operation hfresh hsucceeded

theorem apply_spec {execution execution' : ExternalExecutions.ExternalExecution} {step : ExecutionStep}
    (h : step.apply execution = .ok execution') :
    recordedBranch execution' = recordedBranch execution ∧
      (execution.isTerminal = true → execution' = execution) := by
  cases step with
  | accept externalRunId =>
    obtain ⟨_, hrow, hsame | ⟨hopen, -, rfl⟩⟩ := ExternalExecutions.ExternalExecutionService.accept_eq_ok h
    · obtain rfl := Option.some.inj hrow
      exact ⟨by rw [hsame.2], fun _ => hsame.2⟩
    · obtain rfl := Option.some.inj hrow
      refine ⟨rfl, fun hterminal => ?_⟩
      rw [hopen] at hterminal
      cases hterminal
  | finish status terminalResult failureReason =>
    obtain ⟨_, hrow, -, hsame | ⟨hopen, rfl⟩⟩ :=
      ExternalExecutions.ExternalExecutionService.finish_eq_ok h
    · obtain rfl := Option.some.inj hrow
      exact ⟨by rw [hsame.2.2], fun _ => hsame.2.2⟩
    · obtain rfl := Option.some.inj hrow
      refine ⟨rfl, fun hterminal => ?_⟩
      rw [hopen] at hterminal
      cases hterminal

theorem Workplace.advance_repository (place : Workplace) (step : ExecutionStep) :
    (place.advance step).repository = place.repository := by
  unfold Workplace.advance
  split <;> rfl

/-- The executor does not change an execution that is over. -/
theorem Sound.advance (h : Sound isoformat branch place) (step : ExecutionStep) :
    Sound isoformat branch (place.advance step) ∧ place.Later branch (place.advance step) := by
  unfold Workplace.advance
  cases happly : step.apply place.row.toExternalExecution with
  | error error => exact ⟨h, .refl place⟩
  | ok execution =>
    obtain ⟨hbranch, hterminal⟩ := apply_spec happly
    refine ⟨⟨h.consistent, hbranch.trans h.recorded, fun hreleased => ?_, h.succeeded⟩,
      ⟨.refl _, hterminal, fun _ hreleased => hreleased, .refl _, fun _ _ hrow _ => hrow⟩⟩
    obtain ⟨hgone, hover⟩ := h.released hreleased
    refine ⟨hgone, ?_⟩
    show execution.isTerminal = true
    rw [hterminal hover]
    exact hover

/-- A release answers with the row that is released, or records that it is. -/
theorem Workplace.release_ok {executionId : UUID} {at_ : Instant} {row : ManagedExecution}
    (h : place.release executionId at_ = .ok (row, place')) :
    (place.row.workspaceReleasedAt ≠ none ∧ row = place.row ∧ place' = place) ∨
      (place.row.workspaceReleasedAt = none ∧ place.row.isTerminal = true ∧
        row = { place.row with workspaceReleasedAt := some at_ } ∧ place' = { place with row }) := by
  unfold Workplace.release Workplace.executions at h
  split at h
  · cases h
  rename_i row' hrow'
  split at hrow'
  swap
  · cases hrow'
  obtain rfl := Option.some.inj hrow'
  split at h
  · rename_i hreleased
    obtain ⟨rfl, rfl⟩ := Prod.mk.inj (Except.ok.inj h)
    exact .inl ⟨hreleased, rfl, rfl⟩
  rename_i hunreleased
  split at h
  · cases h
  rename_i released hreleasing
  obtain ⟨rfl, rfl⟩ := Prod.mk.inj (Except.ok.inj h)
  unfold ManagedExecution.releaseWorkspace at hreleasing
  split at hreleasing
  · cases hreleasing
  rename_i hterminal
  split at hreleasing
  · cases hreleasing
  obtain rfl := Except.ok.inj hreleasing
  exact .inr ⟨by simpa using hunreleased, by simpa using hterminal, rfl, rfl⟩

/-- A release of what is gone. -/
theorem Sound.release (h : Sound isoformat branch place) (hgone : Gone branch place.repository)
    {executionId : UUID} {at_ : Instant} {row : ManagedExecution}
    (hrelease : place.release executionId at_ = .ok (row, place')) :
    Sound isoformat branch place' ∧ place.Later branch place' ∧ place'.repository = place.repository ∧
      row.workspaceReleasedAt ≠ none ∧ place'.row.workspaceReleasedAt = row.workspaceReleasedAt := by
  rcases Workplace.release_ok hrelease with ⟨hreleased, rfl, rfl⟩ | ⟨hnone, hterminal, rfl, rfl⟩
  · exact ⟨h, .refl _, rfl, hreleased, rfl⟩
  · have hlater : place.Later branch
        { place with row := { place.row with workspaceReleasedAt := some at_ } } := by
      refine ⟨.refl _, fun _ => rfl, fun at_' hreleased => ?_, .refl _, fun _ _ hrow _ => hrow⟩
      cases hnone.symm.trans hreleased
    refine ⟨⟨h.consistent, h.recorded, fun _ => ⟨hgone, hterminal⟩, ?_⟩, hlater, rfl,
      Option.some_ne_none at_, rfl⟩
    intro id operation hrow hsucceeded
    obtain ⟨result, hresult, htruthful⟩ := h.succeeded id operation hrow hsucceeded
    exact ⟨result, hresult, htruthful.later hlater⟩

end

/-! ## 3. What is asked of the workplace -/

/-- A command that takes nothing away. -/
def Reads : GitStatement → Prop
  | .removeWorktree _ | .deleteBranch .. | .act _ => False
  | _ => True

namespace Workplace

/-- The operation is in the table, as the command that it is. -/
def Stored (place : Workplace) (operation : WorkspaceOperation) : Prop :=
  ∃ current, place.operations.get? operation.id = some current ∧ SameCommand operation current

def Relies (slot : ℕ) (place place' : Workplace) : Prop :=
  place.Later branch place' ∧ place'.repository.findings slot = place.repository.findings slot

structure Guarantees (slot : ℕ) (place place' : Workplace) : Prop where
  sound : Sound isoformat branch place'
  later : place.Later branch place'
  others : ∀ other, other ≠ slot → place'.repository.findings other = place.repository.findings other

/-- A review or a cleanup that a stored operation asks for, or an operator, who confirms a cleanup with the id
of the execution. -/
inductive Ordered (call : OperationCall) (place : Workplace) : WorkspaceOperationKind → String → Prop where
  | operation {operation : WorkspaceOperation} (h : place.Stored operation) :
    Ordered call place operation.kind operation.targetRef
  | inspect {executionId : UUID} {mergedInto : String}
    (h : call = .inspectWorkspace executionId mergedInto) : Ordered call place .inspect mergedInto
  | cleanup {executionId : UUID} {mergedInto confirm : String}
    (h : call = .cleanupWorkspace executionId mergedInto confirm)
    (hconfirm : Text.strip confirm = toString executionId) : Ordered call place .cleanup mergedInto

/-- What is known when a statement is issued: the commands of git are those of a review or of a cleanup that
is ordered, only a cleanup of an execution that is over takes anything away, what is released is gone, and
the result of an operation is true. -/
def Issues (slot : ℕ) (call : OperationCall) (place : Workplace) : OperationStatement → Prop
  | .git statement => (∃ action, call = .act action ∧ statement = .act action) ∨
      ∃ kind mergedInto began, Ordered call place kind mergedInto ∧
        OpenClaw.Issues branch slot (.cleanup mergedInto) began place.repository statement ∧
        (Reads statement ∨ kind = .cleanup ∧ place.row.isTerminal = true)
  | .release _ => Gone branch place.repository ∧ ∃ mergedInto, Ordered call place .cleanup mergedInto
  | .succeed operationId _ result => ∃ operation, place.operations.get? operationId = some operation ∧
      Truthful isoformat operation.kind result place.row
  | .request executionId arguments => call = .request executionId arguments
  | .advance step => call = .advance step
  | _ => True

section

variable {isoformat branch} {slot : ℕ} {place place' : Workplace}
  {operation : WorkspaceOperation} {choice : TransactionChoice}

theorem Stored.later (h : place.Stored operation) (hlater : place.Later branch place') :
    place'.Stored operation := by
  obtain ⟨current, hrow, hsame⟩ := h
  obtain ⟨current', hrow', hsame'⟩ := hlater.keeps operation.id current hrow
  exact ⟨current', hrow', hsame.trans hsame'⟩

theorem Ordered.later {call : OperationCall} {kind : WorkspaceOperationKind} {mergedInto : String}
    (h : Ordered call place kind mergedInto) (hlater : place.Later branch place') :
    Ordered call place' kind mergedInto := by
  cases h with
  | operation hstored => exact .operation (hstored.later hlater)
  | inspect hcall => exact .inspect hcall
  | cleanup hcall hconfirm => exact .cleanup hcall hconfirm

/-- A change of the workplace besides the repository. -/
theorem guarantees_of (hsound : Sound isoformat branch place') (hlater : place.Later branch place')
    (hrepository : place'.repository = place.repository) :
    Guarantees isoformat branch slot place place' :=
  ⟨hsound, hlater, fun other _ => by rw [hrepository]⟩

theorem guarantees_git {repository : Repository} (hplace : Sound isoformat branch place)
    (h : OpenClaw.Guarantees branch slot place.repository repository) :
    Guarantees isoformat branch slot place { place with repository } where
  sound := hplace.repository h.1
  later := ⟨h.1, fun _ => rfl, fun _ hreleased => hreleased, .refl _, fun _ _ hrow _ => hrow⟩
  others := h.2

theorem guarantees_act (hplace : Sound isoformat branch place) (action : Action) :
    Guarantees isoformat branch slot place
      { place with repository := place.repository.act branch action } := by
  have hkept := place.repository.act_spec branch action
  exact guarantees_git hplace ⟨hkept.later, fun other _ => congrFun hkept.findings other⟩

/-- A transaction commits what it answers, also where it raises behind the commit, or changes nothing. -/
theorem transact_cases {α : Type} (choice : TransactionChoice) (place : Workplace)
    (answer : Except RuntimeException (α × Workplace)) :
    (transact choice place answer).2 = place ∨
      ∃ value, answer = .ok (value, (transact choice place answer).2) := by
  unfold transact
  split
  · exact .inr ⟨_, rfl⟩
  · exact .inl rfl
  · exact .inr ⟨_, rfl⟩
  · exact .inl rfl

/-- A transaction keeps what its commit keeps. -/
theorem guarantees_transact {α : Type} {answer : Except RuntimeException (α × Workplace)}
    (hplace : Sound isoformat branch place)
    (h : ∀ value place', answer = .ok (value, place') → Guarantees isoformat branch slot place place') :
    Guarantees isoformat branch slot place (transact choice place answer).2 := by
  rcases transact_cases choice place answer with hsame | ⟨value, hanswer⟩
  · rw [hsame]
    exact guarantees_of hplace (.refl place) rfl
  · exact h value _ hanswer

theorem transact_ok {α : Type} {answer : Except RuntimeException (α × Workplace)} {value : α}
    (h : (transact choice place answer).1 = .ok value) :
    answer = .ok (value, (transact choice place answer).2) := by
  revert h
  unfold transact
  split
  · intro h
    rw [Except.ok.inj h]
  all_goals
    intro h
    cases h

theorem call_ok {α : Type} {answer : Except ServiceError (α × OperationTable)} {value : α}
    (h : place.call answer = .ok (value, place')) :
    ∃ operations, answer = .ok (value, operations) ∧ place' = { place with operations } := by
  unfold Workplace.call at h
  split at h
  · cases h
  · obtain ⟨rfl, rfl⟩ := Prod.mk.inj (Except.ok.inj h)
    exact ⟨_, rfl, rfl⟩

/-- A transaction on the table of operations. -/
theorem guarantees_call {α : Type} {answer : Except ServiceError (α × OperationTable)}
    {new : α → WorkspaceOperation → Prop} (hplace : Sound isoformat branch place)
    (hmoves : ∀ value operations, answer = .ok (value, operations) →
      Moves (new value) place.operations operations)
    (hnew : ∀ value operation, new value operation → operation.status = .succeeded → ∃ result,
      operation.result = some result ∧ Truthful isoformat operation.kind result place.row) :
    Guarantees isoformat branch slot place (transact choice place (place.call answer)).2 := by
  apply guarantees_transact hplace
  intro value place' hcall
  obtain ⟨operations, hanswer, rfl⟩ := call_ok hcall
  obtain ⟨hsound, hlater⟩ := hplace.moves (hmoves value operations hanswer) (hnew value)
  exact guarantees_of hsound hlater rfl

theorem getById_ok {executionId : UUID} {row : ManagedExecution}
    (h : place.getById executionId = .ok (row, place')) : row = place.row ∧ place' = place := by
  unfold Workplace.getById Workplace.executions at h
  split at h
  · cases h
  · rename_i hrow
    obtain ⟨rfl, rfl⟩ := Prod.mk.inj (Except.ok.inj h)
    split at hrow
    · exact ⟨(Option.some.inj hrow).symm, rfl⟩
    · cases hrow

end

end Workplace

/-! ## 4. Workers -/

theorem review_reads (env : GitEnvironment) (manager : OpenClawWorkspaceManager)
    (execution : ExternalExecutions.ExternalExecution) (slot : ℕ) (mergedInto : String) :
    (manager.review env execution slot mergedInto).Within Reads fun _ => True := by
  have hask : ∀ statement, Reads statement →
      (OpenClawWorkspaceManager.ask statement).Within Reads fun _ => True :=
    fun _ h => Program.within_perform h
  have hofExcept : ∀ {α : Type} (x : Except OpenClawWorkspaceError α),
      (Program.ofExcept x : Managing α).Within Reads fun _ => True :=
    fun _ => Program.within_ofExcept fun _ _ => trivial
  have hrecord : (manager.workspaceRecord env execution).Within Reads fun _ => True := by
    apply Program.within_bind (hofExcept _)
    intro record
    apply Program.within_bind (hask .repositoryTopLevel trivial)
    intro reply
    apply Program.within_bind (hofExcept _)
    intro actual
    exact Program.within_bind (hofExcept _) fun _ => trivial
  have hhead : ∀ record, (OpenClawWorkspaceManager.reviewHead env slot record mergedInto).Within Reads
      fun _ => True := by
    intro record
    apply Program.within_bind (hask (.workspaceHead slot) trivial)
    intro reply
    apply Program.within_bind (hofExcept _)
    intro head
    apply Program.within_bind (hofExcept _)
    intro revision
    refine Program.within_bind (Program.within_bind (hask (.verifyTarget slot revision) trivial)
      fun reply => hofExcept _) fun target => ?_
    apply Program.within_bind (hask (.status slot) trivial)
    intro reply
    apply Program.within_bind (hofExcept _)
    intro clean
    refine Program.within_bind (Program.within_bind (hask (.isAncestor slot (.commit head) target) trivial)
      fun reply => hofExcept _) fun merged => trivial
  apply Program.within_bind hrecord
  intro record
  apply Program.within_bind (hask .workspaceIsDir trivial)
  intro isDir
  apply Program.within_bind (hofExcept _)
  intro _
  apply Program.within_bind (hask .workspaceTopLevel trivial)
  intro reply
  apply Program.within_bind (hofExcept _)
  intro actualRoot
  apply Program.within_bind (hask (.showCurrent slot) trivial)
  intro reply
  apply Program.within_bind (hofExcept _)
  intro actualBranch
  exact Program.within_bind (hofExcept _) fun _ => hhead record

/-- A cleanup of an execution that goes on asks nothing. -/
theorem cleanup_reads (env : GitEnvironment) (manager : OpenClawWorkspaceManager)
    {execution : ExternalExecutions.ExternalExecution} (slot : ℕ) (mergedInto : String)
    (hopen : execution.isTerminal = false) :
    (manager.cleanup env execution slot mergedInto).Within Reads fun _ => True := by
  unfold OpenClawWorkspaceManager.cleanup
  rw [hopen]
  trivial

section

variable {isoformat branch} {env : GitEnvironment} {manager : OpenClawWorkspaceManager} {scope : String}

/-- The commands of git are statements of the workplace. -/
def gitPart (env : GitEnvironment) (isoformat : Instant → String) (manager : OpenClawWorkspaceManager)
    (scope : String) (execution : ExternalExecutions.ExternalExecution) :
    Coroutines.Part (cleaning env manager execution)
      (operating env isoformat manager scope (recordedBranch execution)) where
  statement := .git
  reply _ := id
  choice _ := id
  state := Workplace.repository
  serve_reply _ _ _ := rfl
  serve_state _ _ _ := rfl

variable (isoformat branch env manager scope) in
/-- What is left to show of a part of `run_once` that ends with `P`. -/
abbrev Operates (slot : ℕ) (call : OperationCall) {β : Type} (P : β → Workplace → Prop)
    (p : Operating β) (place : Workplace) : Prop :=
  (operating env isoformat manager scope branch).Safe (fun _ _ => True) (Sound isoformat branch)
    (Workplace.Relies branch slot) (Workplace.Guarantees isoformat branch slot)
    (Workplace.Issues isoformat branch slot call) (fun _ _ => True) P p place

variable {slot : ℕ} {call : OperationCall} {place : Workplace} {operation : WorkspaceOperation}
  {α β : Type} {P : β → Workplace → Prop}

theorem operates_bind {p : Operating α} {Q : α → Workplace → Prop} {f : α → Operating β}
    (hp : Operates isoformat branch env manager scope slot call Q p place)
    (hf : ∀ value place, Q value place →
      Operates isoformat branch env manager scope slot call P (f value) place) :
    Operates isoformat branch env manager scope slot call P (p >>= f) place :=
  (operating env isoformat manager scope branch).safe_bind hp hf

theorem operates_ofExcept {x : Except RuntimeException α} {f : α → Operating β}
    (h : ∀ value, x = .ok value → Operates isoformat branch env manager scope slot call P (f value) place) :
    Operates isoformat branch env manager scope slot call P (Program.ofExcept x >>= f) place := by
  cases x with
  | ok value => exact h value rfl
  | error error => trivial

/-- A call of the manager that is ordered, and only reads or is a cleanup. -/
theorem manage_safe {execution : ExternalExecutions.ExternalExecution} {p : Managing α}
    {Q : α → Repository → Prop} {kind : WorkspaceOperationKind} {mergedInto : String}
    (hbranch : recordedBranch execution = branch) (hordered : Workplace.Ordered call place kind mergedInto)
    (hcleans : Cleans env manager execution slot mergedInto place.repository Q p place.repository)
    (hallowed : p.Within Reads (fun _ => True) ∨ kind = .cleanup ∧ place.row.isTerminal = true) :
    Operates isoformat branch env manager scope slot call
      (fun value place' => Q value place'.repository ∧ place.Later branch place') (manage p) place := by
  subst hbranch
  have hp : (cleaning env manager execution).Safe (fun _ _ => True) (fun _ => True)
      (OpenClaw.Relies (recordedBranch execution) slot)
      (OpenClaw.Guarantees (recordedBranch execution) slot)
      (fun s statement => OpenClaw.Issues (recordedBranch execution) slot (.cleanup mergedInto)
        place.repository s statement ∧
        (Reads statement ∨ kind = .cleanup ∧ place.row.isTerminal = true))
      (fun _ s => Unfinished (recordedBranch execution) slot place.repository s) Q p
      place.repository := by
    rcases hallowed with hreads | hcleanup
    · exact (cleaning env manager execution).safe_mono (fun _ _ h => ⟨h.1, .inl h.2⟩)
        (fun _ _ h => h) (fun _ _ h => h) (Coroutines.safe_within hreads hcleans)
    · exact (cleaning env manager execution).safe_mono (fun _ _ h => ⟨h, .inr hcleanup⟩)
        (fun _ _ h => h) (fun _ _ h => h) hcleans
  -- whatever the manager meets, the rows that others change meanwhile only get later
  have hframe : ∀ place₁ place₂, Workplace.Relies (recordedBranch execution) slot place₁ place₂ →
      place.Later (recordedBranch execution) place₁ → place.Later (recordedBranch execution) place₂ :=
    fun _ _ h hlater => hlater.trans h.1
  apply operates_bind (Coroutines.safe_embed (gitPart env isoformat manager scope execution)
    (fun _ _ => trivial) (fun _ _ h => ⟨h.1.repository, h.2⟩) (fun _ _ _ => trivial) ?_ ?_ hframe hp
    (.refl place))
  · rintro (error | value) place' ⟨hvalue, -, hlater⟩
    · trivial
    · exact ⟨hvalue value rfl, hlater⟩
  · rintro place' statement - hlater ⟨hissue, hallowed⟩
    refine .inr ⟨kind, mergedInto, place.repository, hordered.later hlater, hissue, ?_⟩
    exact hallowed.imp_right fun hcleanup => ⟨hcleanup.1, hlater.terminal hcleanup.2⟩
  · intro statement choice place' hplace' hlater _ hguar
    have hkept := Workplace.guarantees_git hplace' hguar
    exact ⟨hkept, hlater.trans hkept.later⟩

theorem getById_safe {executionId : UUID} {f : ManagedExecution → Operating β}
    (hf : ∀ place', Sound isoformat branch place' → place.Later branch place' →
      Operates isoformat branch env manager scope slot call P (f place'.row) place') :
    Operates isoformat branch env manager scope slot call P
      (ask (.getById executionId) >>= fun reply => Program.ofExcept reply >>= f) place := by
  intro place' hplace hrely
  refine ⟨trivial, fun choice _ => ?_⟩
  have hserve : (operating env isoformat manager scope branch).serve (.getById executionId) choice place' =
    transact choice place' (place'.getById executionId) := rfl
  rw [hserve]
  constructor
  · apply Workplace.guarantees_transact hplace
    intro row place'' hrow
    obtain ⟨-, rfl⟩ := Workplace.getById_ok hrow
    exact Workplace.guarantees_of hplace (.refl _) rfl
  · apply operates_ofExcept
    intro row hrow
    obtain ⟨rfl, hsame⟩ := Workplace.getById_ok (Workplace.transact_ok hrow)
    rw [hsame]
    exact hf place' hplace hrely.1

/-- The release of a worktree and a branch that are gone. -/
theorem release_safe {executionId : UUID} {f : ManagedExecution → Operating β}
    {mergedInto : String} (hgone : Gone branch place.repository)
    (hordered : Workplace.Ordered call place .cleanup mergedInto)
    (hf : ∀ row place', row.workspaceReleasedAt ≠ none →
      place'.row.workspaceReleasedAt = row.workspaceReleasedAt → place.Later branch place' →
      Operates isoformat branch env manager scope slot call P (f row) place') :
    Operates isoformat branch env manager scope slot call P
      (ask (.release executionId) >>= fun reply => Program.ofExcept reply >>= f) place := by
  intro place' hplace hrely
  have hgone' := hgone.later hrely.1.repository
  refine ⟨⟨hgone', mergedInto, hordered.later hrely.1⟩, fun choice _ => ?_⟩
  have hserve : (operating env isoformat manager scope branch).serve (.release executionId) choice place' =
    transact choice place' (place'.release executionId choice.at_) := rfl
  rw [hserve]
  constructor
  · apply Workplace.guarantees_transact hplace
    intro row place'' hrelease
    obtain ⟨hsound, hlater, hrepository, -⟩ := hplace.release hgone' hrelease
    exact Workplace.guarantees_of hsound hlater hrepository
  · apply operates_ofExcept
    intro row hrow
    obtain ⟨-, hlater, -, hreleased, hrecorded⟩ := hplace.release hgone' (Workplace.transact_ok hrow)
    exact hf row _ hreleased hrecorded (hrely.1.trans hlater)

/-- The review of a worktree that is ordered. -/
theorem review_operates {mergedInto : String} (hplace : Sound isoformat branch place)
    (hordered : Workplace.Ordered call place .inspect mergedInto) :
    Operates isoformat branch env manager scope slot call (fun _ place' => place.Later branch place')
      (manage (manager.review env place.row.toExternalExecution slot mergedInto)) place := by
  have hbegan : Since (recordedBranch place.row.toExternalExecution) slot place.repository []
      place.repository := ⟨.refl _, rfl⟩
  have hafter : ∀ (review : WorkspaceReview) place',
      ReviewedAs (recordedBranch place.row.toExternalExecution) slot mergedInto place.repository review
        place'.repository ∧ place.Later branch place' → place.Later branch place' := fun _ _ h => h.2
  exact (operating env isoformat manager scope branch).safe_mono (fun _ _ h => h) (fun _ _ h => h)
    hafter (manage_safe hplace.recorded hordered (review_safe hbegan)
      (.inl (review_reads env manager _ slot mergedInto)))

/-- A cleanup that is ordered, and the release behind it. -/
theorem cleanup_operates {mergedInto : String} (hplace : Sound isoformat branch place)
    (hordered : Workplace.Ordered call place .cleanup mergedInto)
    {f : WorkspaceReview → ManagedExecution → Operating β}
    (hf : ∀ review row place', row.workspaceReleasedAt ≠ none →
      place'.row.workspaceReleasedAt = row.workspaceReleasedAt → place.Later branch place' →
      Operates isoformat branch env manager scope slot call P (f review row) place') :
    Operates isoformat branch env manager scope slot call P
      (manage (manager.cleanup env place.row.toExternalExecution slot mergedInto) >>= fun review =>
        ask (.release place.row.id) >>= fun reply => Program.ofExcept reply >>= f review) place := by
  have hallowed : (manager.cleanup env place.row.toExternalExecution slot mergedInto).Within
      Reads (fun _ => True) ∨ .cleanup = WorkspaceOperationKind.cleanup ∧
        place.row.isTerminal = true := by
    cases hterminal : place.row.isTerminal with
    | true => exact .inr ⟨rfl, rfl⟩
    | false => exact .inl (cleanup_reads env manager slot mergedInto hterminal)
  apply operates_bind (manage_safe hplace.recorded hordered
    (cleanup_safe env manager _ slot mergedInto place.repository) hallowed)
  rintro review place₁ ⟨hgone, hlater₁⟩
  rw [hplace.recorded] at hgone
  apply release_safe hgone (hordered.later hlater₁)
  intro row place₂ hreleased hrecorded hlater₂
  exact hf review row place₂ hreleased hrecorded (hlater₁.trans hlater₂)

/-- What the work on an operation ends with. -/
def Reported (isoformat : Instant → String) (operation : WorkspaceOperation) (result : JsonObject)
    (place : Workplace) : Prop :=
  place.Stored operation ∧ Truthful isoformat operation.kind result place.row

theorem Reported.later {result : JsonObject} {place' : Workplace}
    (h : Reported isoformat operation result place) (hlater : place.Later branch place') :
    Reported isoformat operation result place' :=
  ⟨h.1.later hlater, h.2.later hlater⟩

theorem attempt_safe (hstored : place.Stored operation) :
    Operates isoformat branch env manager scope slot call (Reported isoformat operation)
      (attempt env isoformat manager slot operation) place := by
  unfold attempt
  apply getById_safe
  intro place₁ hplace₁ hlater₁
  have hstored₁ := hstored.later hlater₁
  have hordered : Workplace.Ordered call place₁ operation.kind operation.targetRef := .operation hstored₁
  -- the row is read once: another worker may release it from here on
  cases hreleased : place₁.row.workspaceReleasedAt with
  | some releasedAt =>
    refine ⟨hstored₁, .inl ⟨releasedAt, "already_released", hreleased, rfl, .inl rfl, ?_⟩⟩
    simp [alreadyReleased, Json.lookup]
  | none =>
    cases hkind : operation.kind with
    | inspect =>
      rw [hkind] at hordered
      apply operates_bind (review_operates hplace₁ hordered)
      intro review place₂ hlater₂
      exact ⟨hstored₁.later hlater₂, .inr ⟨hkind, rfl⟩⟩
    | cleanup =>
      rw [hkind] at hordered
      apply cleanup_operates hplace₁ hordered
      intro review row place₂ hrow hrecorded hlater₂
      obtain ⟨at_, hat⟩ := Option.ne_none_iff_exists'.mp hrow
      refine ⟨hstored₁.later hlater₂,
        .inl ⟨at_, "released", hrecorded.trans hat, rfl, .inr ⟨hkind, rfl⟩, ?_⟩⟩
      simp [released, reviewEntries, hat, Json.lookup]

theorem succeed_safe {leaseToken : UUID} {result : JsonObject}
    (hreported : Reported isoformat operation result place) :
    Operates isoformat branch env manager scope slot call (fun _ _ => True)
      (ask (.succeed operation.id leaseToken result) >>= fun reply =>
        Program.ofExcept reply >>= fun _ => pure true) place := by
  intro place' hplace hrely
  obtain ⟨⟨current, hrow, hsame⟩, htruthful⟩ := hreported.later hrely.1
  rw [← hsame.kind] at htruthful
  refine ⟨⟨current, hrow, htruthful⟩, fun choice _ => ⟨?_, operates_ofExcept fun _ _ => trivial⟩⟩
  -- the operation may be another worker's by now; then the lease token is refused
  apply Workplace.guarantees_call hplace
  · exact fun _ _ hfinish => succeed_moves hplace.consistent hfinish
  · rintro - finished ⟨hresult, old, hold, hfinished⟩ -
    obtain rfl := Option.some.inj (hrow.symm.trans hold)
    rw [← hfinished.kind] at htruthful
    exact ⟨result, hresult, htruthful⟩

theorem fail_safe {leaseToken : UUID} {reason : String} :
    Operates isoformat branch env manager scope slot call (fun _ _ => True)
      (ask (.fail operation.id leaseToken reason) >>= fun reply =>
        Program.ofExcept reply >>= fun _ => pure true) place := by
  intro place' hplace _
  refine ⟨trivial, fun choice _ => ⟨?_, operates_ofExcept fun _ _ => trivial⟩⟩
  apply Workplace.guarantees_call hplace
  · exact fun _ _ hfinish => fail_moves hplace.consistent hfinish
  · intro _ failed hfailed hsucceeded
    cases hfailed.symm.trans hsucceeded

theorem process_safe {leaseToken : UUID} (hstored : place.Stored operation) :
    Operates isoformat branch env manager scope slot call (fun _ _ => True)
      (process env isoformat manager slot operation leaseToken) place := by
  apply operates_bind (Coroutines.safe_outcome (attempt_safe hstored))
  rintro (exc | result) place' ⟨hreported, -⟩
  · exact fail_safe
  · exact succeed_safe (hreported result rfl)

theorem runOnce_safe (runtime : WorkspaceOperationRuntime) :
    Operates isoformat branch env manager scope slot call (fun _ _ => True)
      (runtime.runOnce env isoformat manager scope slot) place := by
  intro place' hplace _
  refine ⟨trivial, fun choice _ => ⟨?_, ?_⟩⟩
  · apply Workplace.guarantees_call hplace
    · exact fun _ _ hclaim => (claimNext_moves hplace.consistent hclaim).1
    · intro _ claimed hclaimed hsucceeded
      cases hclaimed.symm.trans hsucceeded
  · apply operates_ofExcept
    rintro (_ | claimed) hanswer
    · trivial
    · obtain ⟨operations, hclaim, hplace'⟩ := Workplace.call_ok (Workplace.transact_ok hanswer)
      have hrow := (claimNext_moves hplace.consistent hclaim).2 claimed rfl
      dsimp only
      split
      · trivial
      · apply process_safe
        refine ⟨claimed, ?_, .refl claimed⟩
        have hoperations := congrArg Workplace.operations hplace'
        exact (congrArg (·.get? claimed.id) hoperations).trans hrow

theorem loadWorkspaceReview_safe {executionId : UUID} {mergedInto : String}
    (hcall : call = .inspectWorkspace executionId mergedInto) :
    Operates isoformat branch env manager scope slot call (fun _ _ => True)
      (loadWorkspaceReview env manager slot executionId mergedInto) place := by
  unfold loadWorkspaceReview
  apply getById_safe
  intro place' hplace' _
  cases hreleased : place'.row.workspaceReleasedAt with
  | some releasedAt => trivial
  | none => exact operates_bind (review_operates hplace' (.inspect hcall)) fun _ _ _ => trivial

theorem cleanupWorkspace_safe {executionId : UUID} {mergedInto confirm : String}
    (hcall : call = .cleanupWorkspace executionId mergedInto confirm) :
    Operates isoformat branch env manager scope slot call (fun _ _ => True)
      (cleanupWorkspace env manager slot executionId mergedInto confirm) place := by
  unfold cleanupWorkspace
  split
  · rename_i hconfirm
    unfold releaseManagedWorkspace
    apply getById_safe
    intro place' hplace' _
    cases hreleased : place'.row.workspaceReleasedAt with
    | some releasedAt => trivial
    | none => exact cleanup_operates hplace' (.cleanup hcall hconfirm) fun _ _ _ _ _ _ => trivial
  · trivial

/-- A call keeps to its checks, whatever the others do. -/
theorem Workplace.program_safe (env : GitEnvironment) (isoformat : Instant → String)
    (manager : OpenClawWorkspaceManager) (scope branch : String) (slot : ℕ) (call : OperationCall)
    (place : Workplace) :
    Operates isoformat branch env manager scope slot call (fun _ _ => True)
      ((operating env isoformat manager scope branch).program slot call) place := by
  cases call with
  | runOnce runtime => exact runOnce_safe runtime
  | inspectWorkspace executionId mergedInto =>
    exact operates_bind (loadWorkspaceReview_safe rfl) fun _ _ _ => trivial
  | cleanupWorkspace executionId mergedInto confirm =>
    exact operates_bind (cleanupWorkspace_safe rfl) fun _ _ _ => trivial
  | request executionId arguments =>
    intro place' hplace _
    refine ⟨rfl, fun choice _ => ⟨?_, trivial⟩⟩
    have hmoves : ∀ value operations, WorkspaceOperations.request place'.operations place'.executions
        executionId arguments choice.id choice.at_ = .ok (value, operations) →
        Moves (fun operation => operation.status = .pending) place'.operations operations := by
      rintro ⟨operation, replayed⟩ operations hrequest
      exact request_moves hplace.consistent hrequest
    apply Workplace.guarantees_call hplace hmoves
    intro _ operation hpending hsucceeded
    cases hpending.symm.trans hsucceeded
  | advance step =>
    intro place' hplace _
    obtain ⟨hsound, hlater⟩ := hplace.advance step
    exact ⟨rfl, fun _ _ =>
      ⟨Workplace.guarantees_of hsound hlater (place'.advance_repository step), trivial⟩⟩
  | act action =>
    intro place' hplace _
    exact ⟨.inl ⟨action, rfl, rfl⟩, fun _ _ => ⟨Workplace.guarantees_act hplace action, trivial⟩⟩

end

/-! ## 5. Runs -/

section

variable (env : GitEnvironment) (manager : OpenClawWorkspaceManager) (scope : String)

abbrev OperatingStep := (operating env isoformat manager scope branch).Step

variable {isoformat branch env manager scope} {place : Workplace} {statement : OperationStatement}
  {inputs : List (operating env isoformat manager scope branch).Input}
  {t : OperatingStep isoformat branch env manager scope}

theorem transact_repository {α : Type} {choice : TransactionChoice}
    {answer : Except RuntimeException (α × Workplace)}
    (h : ∀ value place', answer = .ok (value, place') → place'.repository = place.repository) :
    (transact choice place answer).2.repository = place.repository := by
  rcases Workplace.transact_cases choice place answer with hsame | ⟨value, hanswer⟩
  · rw [hsame]
  · exact h value _ hanswer

/-- Only a command of git changes the repository. -/
theorem serve_repository (choice : statement.Choice) :
    (statement.serve env branch choice place).2.repository = place.repository ∨
      ∃ command, statement = .git command ∧
        Served env branch place.repository command
          (statement.serve env branch choice place).2.repository := by
  have hcall : ∀ {α : Type} {answer : Except ServiceError (α × OperationTable)} value place',
      place.call answer = .ok (value, place') → place'.repository = place.repository := by
    intro α answer value place' h
    obtain ⟨operations, -, rfl⟩ := Workplace.call_ok h
    rfl
  cases statement with
  | git command => exact .inr ⟨command, rfl, serve_spec env branch command choice place.repository⟩
  | claimNext | succeed | fail | request => exact .inl (transact_repository hcall)
  | getById executionId =>
    refine .inl (transact_repository fun row place' h => ?_)
    rw [(Workplace.getById_ok h).2]
  | release executionId =>
    refine .inl (transact_repository fun row place' h => ?_)
    rcases Workplace.release_ok h with ⟨-, -, rfl⟩ | ⟨-, -, -, rfl⟩
    · rfl
    · rfl
  | advance step => exact .inl (place.advance_repository step)

/-- What the steps of a run keep to: the rows stay true, what is over stays as it is, and statements are
issued on what they ask for; so the worktree is removed and the branch deleted only for a cleanup that is
ordered, of an execution that is over, and after its review. -/
structure Backed (t : OperatingStep isoformat branch env manager scope) : Prop where
  sound : Sound isoformat branch t.after.shared
  later : t.before.shared.Later branch t.after.shared
  answered : ∀ slot call began statement, t.output = .answered slot call began statement →
    Workplace.Issues isoformat branch slot call t.before.shared statement
  removed : t.before.shared.repository.worktree ≠ none → t.after.shared.repository.worktree = none →
    ∃ slot call began mergedInto, ∃ repository : Repository, ∃ head target,
      t.output = .answered slot call began (.git (.removeWorktree slot)) ∧
      Workplace.Ordered call t.before.shared .cleanup mergedInto ∧
      t.before.shared.row.isTerminal = true ∧
      t.before.shared.repository.findings slot =
        OpenClaw.reviewed branch (Text.strip mergedInto) head target ++
          repository.findings slot ∧
      t.before.shared.repository.graph.Reaches target head
  deleted : ∀ commit, t.before.shared.repository.refs (branchRef branch) = some commit →
    t.after.shared.repository.refs (branchRef branch) = none →
    ∃ slot call began mergedInto target,
      t.output = .answered slot call began (.git (.deleteBranch slot branch (.commit commit))) ∧
      Workplace.Ordered call t.before.shared .cleanup mergedInto ∧
      t.before.shared.row.isTerminal = true ∧
      .target (Text.strip mergedInto) target ∈ t.before.shared.repository.findings slot ∧
      t.before.shared.repository.graph.Reaches target commit

/-- A step of a run, and the command of git that it serves, if any. -/
structure OperatingCases (t : OperatingStep isoformat branch env manager scope) : Prop where
  sound : Sound isoformat branch t.after.shared
  later : t.before.shared.Later branch t.after.shared
  answered : ∀ slot call began statement, t.output = .answered slot call began statement →
    Workplace.Issues isoformat branch slot call t.before.shared statement
  served : t.after.shared.repository = t.before.shared.repository ∨
    ∃ slot call began command, t.output = .answered slot call began (.git command) ∧
      Served env branch t.before.shared.repository command t.after.shared.repository

theorem operating_cases (hplace : Sound isoformat branch place)
    (ht : t ∈ (operating env isoformat manager scope branch).machine.trace
      ((operating env isoformat manager scope branch).initial place) inputs) : OperatingCases t := by
  have hcoherent : (operating env isoformat manager scope branch).Coherent (fun _ _ => True)
      (Sound isoformat branch) (Workplace.Relies branch) (Workplace.Guarantees isoformat branch)
      (fun slot call _ => Workplace.Issues isoformat branch slot call) (fun _ _ _ _ _ => True)
      ((operating env isoformat manager scope branch).initial place) :=
    Coroutines.coherent_initial hplace
  have hrefl : ∀ slot place, Workplace.Relies branch slot place place :=
    fun _ place => ⟨.refl place, rfl⟩
  have htrans : ∀ slot place place' place'', Workplace.Relies branch slot place place' →
      Workplace.Relies branch slot place' place'' → Workplace.Relies branch slot place place'' :=
    fun _ _ _ _ h h' => ⟨h.1.trans h'.1, h'.2.trans h.2⟩
  have hguar : ∀ slot place place', Sound isoformat branch place →
      Workplace.Guarantees isoformat branch slot place place' →
      Sound isoformat branch place' ∧ ∀ other, other ≠ slot → Workplace.Relies branch other place place' :=
    fun _ _ _ _ h => ⟨h.sound, fun other hother => ⟨h.later, h.others other hother⟩⟩
  have hlawful : ∀ t ∈ (operating env isoformat manager scope branch).machine.trace
      ((operating env isoformat manager scope branch).initial place) inputs,
      (operating env isoformat manager scope branch).Lawful (fun _ _ => True) t :=
    fun _ _ _ _ _ _ _ _ _ _ _ => trivial
  have hsafe : ∀ slot call place, Sound isoformat branch place →
      (operating env isoformat manager scope branch).admits slot call = true →
      (operating env isoformat manager scope branch).Goes (fun _ _ => True) (Sound isoformat branch)
        (Workplace.Relies branch) (Workplace.Guarantees isoformat branch)
        (fun slot call _ => Workplace.Issues isoformat branch slot call) (fun _ _ _ _ _ => True) slot call
        place ((operating env isoformat manager scope branch).program slot call) place := by
    intro slot call place _ _
    apply (operating env isoformat manager scope branch).safe_mono (fun _ _ h => h) _ _
      (Workplace.program_safe env isoformat manager scope branch slot call place)
    · exact fun _ _ _ _ _ _ => trivial
    · exact fun _ _ _ _ _ _ => trivial
  obtain ⟨hbefore, hmeets⟩ := Coroutines.trace_spec hrefl htrans hguar hsafe hcoherent hlawful t ht
  have hissues := Coroutines.trace_answers hrefl htrans hguar hsafe hcoherent hlawful t ht
  obtain ⟨is, i, js, -, hfire⟩ := Machine.mem_trace _ ht
  unfold Coroutines.Meets at hmeets
  -- only an answer changes the workplace
  have hsame : t.after.shared = t.before.shared → OperatingCases t := by
    intro hsame
    refine ⟨?_, ?_, hissues, .inl (by rw [hsame])⟩
    · rw [hsame]
      exact hbefore
    · rw [hsame]
      exact .refl _
  cases houtput : t.output with
  | answered slot call began statement =>
    rw [houtput] at hmeets
    have hanswered : ((operating env isoformat manager scope branch).machine.step
        ((operating env isoformat manager scope branch).machine.run
          ((operating env isoformat manager scope branch).initial place) is) i).1 =
        .answered slot call began statement := by
      rw [← houtput, hfire]
      rfl
    obtain ⟨choice, hserve⟩ := Coroutines.answered_serve hanswered
    have hafter : t.after.shared = (statement.serve env branch choice t.before.shared).2 := by
      rw [hfire]
      exact hserve
    refine ⟨hmeets.sound, hmeets.later, hissues, ?_⟩
    rw [hafter]
    rcases serve_repository choice with hsame | ⟨command, rfl, hserved⟩
    · exact .inl hsame
    · exact .inr ⟨slot, call, began, command, houtput, hserved⟩
  | issued => rw [houtput] at hmeets; exact hsame hmeets.2
  | returned => rw [houtput] at hmeets; exact hsame hmeets.2
  | ignored => rw [houtput] at hmeets; exact hsame hmeets
  | started => rw [houtput] at hmeets; exact hsame hmeets
  | interrupted => rw [houtput] at hmeets; exact hsame hmeets

/-- A command that takes something away is one of a cleanup. -/
theorem issues_cleanup {slot : ℕ} {call : OperationCall} {command : GitStatement}
    (h : Workplace.Issues isoformat branch slot call place (.git command))
    (hact : ∀ action, command ≠ .act action) (htakes : ¬Reads command) :
    ∃ mergedInto began, Workplace.Ordered call place .cleanup mergedInto ∧
      place.row.isTerminal = true ∧
      OpenClaw.Issues branch slot (.cleanup mergedInto) began place.repository command := by
  rcases h with ⟨action, -, rfl⟩ | ⟨kind, mergedInto, began, hordered, hissue, hreads | ⟨rfl, hterminal⟩⟩
  · exact absurd rfl (hact action)
  · exact absurd hreads htakes
  · exact ⟨mergedInto, began, hordered, hterminal, hissue⟩

theorem OperatingCases.backed (h : OperatingCases t) : Backed t where
  sound := h.sound
  later := h.later
  answered := h.answered
  removed := by
    intro hpresent hgone
    rcases h.served with hsame | ⟨slot, call, began, command, houtput, hserved⟩
    · rw [hsame] at hgone
      exact absurd hgone hpresent
    have hissue := h.answered slot call began _ houtput
    generalize t.after.shared.repository = repository' at hserved hgone
    cases hserved with
    | read _ halike => exact absurd (halike.worktree.symm.trans hgone) hpresent
    | acted action =>
      have hkept := (t.before.shared.repository.act_spec branch action).worktree
        (Option.isSome_iff_ne_none.mpr hpresent)
      rw [hgone] at hkept
      cases hkept
    | removed slot' hworktree =>
      obtain ⟨mergedInto, repository, hordered, hterminal, rfl, mergedInto', head, target, hcall, hs,
        hreaches⟩ := issues_cleanup hissue nofun id
      obtain rfl := WorkspaceCall.cleanup.inj hcall
      exact ⟨slot', call, began, mergedInto, repository, head, target, houtput, hordered, hterminal,
        hs.findings, hreaches⟩
    | deleted slot' name head hcommit href => exact absurd hgone hpresent
  deleted := by
    intro commit href hgone
    rcases h.served with hsame | ⟨slot, call, began, command, houtput, hserved⟩
    · rw [hsame, href] at hgone
      cases hgone
    have hissue := h.answered slot call began _ houtput
    generalize t.after.shared.repository = repository' at hserved hgone
    cases hserved with
    | read _ halike =>
      rw [halike.refs, href] at hgone
      cases hgone
    | acted action =>
      have hkept := (t.before.shared.repository.act_spec branch action).refs (branchRef branch)
        (by rw [href]; rfl)
      rw [hgone] at hkept
      cases hkept
    | removed slot' hworktree => cases href.symm.trans hgone
    | deleted slot' name head hcommit href' =>
      obtain ⟨mergedInto, repository, hordered, hterminal, rfl, rfl, mergedInto', commit', found, target,
        hcall, rfl, hs, htarget, -, hreaches⟩ := issues_cleanup hissue nofun id
      obtain rfl := WorkspaceCall.cleanup.inj hcall
      obtain rfl := Option.some.inj (href.symm.trans href')
      obtain rfl := Option.some.inj hcommit
      refine ⟨slot', call, began, mergedInto, target, houtput, hordered, hterminal, ?_, hreaches⟩
      rw [hs.findings]
      exact List.mem_append_left _ htarget

/-- In every run of workers, operators, clients, the executor and the owner of the worktree, of which any may
stop anywhere, every step keeps to `Backed`; and an operation that is over at some time stays as it is, and
if it is a cleanup that succeeded, the worktree and the branch are gone ever after and the row has the
release that its result names. -/
theorem releases_backed (env : GitEnvironment) (isoformat : Instant → String)
    (manager : OpenClawWorkspaceManager) (scope branch : String) (place : Workplace)
    (inputs : List (operating env isoformat manager scope branch).Input)
    (hplace : Sound isoformat branch place) :
    (∀ t ∈ (operating env isoformat manager scope branch).machine.trace
      ((operating env isoformat manager scope branch).initial place) inputs, Backed t) ∧
    ∀ t ∈ (operating env isoformat manager scope branch).machine.trace
      ((operating env isoformat manager scope branch).initial place) inputs,
      ∀ id operation, t.after.shared.operations.get? id = some operation → operation.isTerminal = true →
        ((operating env isoformat manager scope branch).machine.run
          ((operating env isoformat manager scope branch).initial place)
          inputs).shared.operations.get? id = some operation ∧
        (operation.status = .succeeded → operation.kind = .cleanup →
          Gone branch ((operating env isoformat manager scope branch).machine.run
            ((operating env isoformat manager scope branch).initial place) inputs).shared.repository ∧
          ∃ result at_, operation.result = some result ∧
            ((operating env isoformat manager scope branch).machine.run
              ((operating env isoformat manager scope branch).initial place)
              inputs).shared.row.workspaceReleasedAt = some at_ ∧
            Json.lookup result "released_at" = some (jsonText (isoformat at_))) := by
  have hbacked : ∀ t ∈ (operating env isoformat manager scope branch).machine.trace
      ((operating env isoformat manager scope branch).initial place) inputs, Backed t :=
    fun t ht => (operating_cases hplace ht).backed
  refine ⟨hbacked, fun t ht id operation hrow hterminal => ?_⟩
  have hend : Sound isoformat branch ((operating env isoformat manager scope branch).machine.run
      ((operating env isoformat manager scope branch).initial place) inputs).shared :=
    ((operating env isoformat manager scope branch).machine.trace_keeps
      (Q := fun c => Sound isoformat branch c.shared) hplace fun t ht _ => (hbacked t ht).sound).1
  have hfinal : ((operating env isoformat manager scope branch).machine.run
      ((operating env isoformat manager scope branch).initial place)
      inputs).shared.operations.get? id = some operation := by
    apply (operating env isoformat manager scope branch).machine.trace_kept
      (Q := fun c => c.shared.operations.get? id = some operation) ht hrow
    exact fun t' ht' hbefore => (hbacked t' ht').later.final id operation hbefore hterminal
  -- at the end the operation is as it was, and its result still holds of the row
  refine ⟨hfinal, fun hsucceeded hcleanup => ?_⟩
  obtain ⟨result, hresult, htruthful⟩ := hend.succeeded id operation hfinal hsucceeded
  rcases htruthful with ⟨at_, status, hreleased, -, -, hnamed⟩ | ⟨hinspect, -⟩
  · exact ⟨(hend.released (by rw [hreleased]; nofun)).1, result, at_, hresult, hreleased, hnamed⟩
  · cases hcleanup.symm.trans hinspect

end

/-! ## 6. A worker that stops -/

/-- The execution is over, and its branch is merged into `main`. -/
def mergedPlace : Workplace where
  repository := workRepository.setRef "refs/heads/main" (some 1)
  row := { workExecution with workspaceScope := some "machine", id := 7 }
  operations := .empty

theorem mergedPlace_sound (isoformat : Instant → String) : Sound isoformat "work" mergedPlace := by
  have hempty : ∀ id operation, mergedPlace.operations.get? id ≠ some operation := by
    intro id operation h
    cases (Dict.get?_empty id).symm.trans h
  refine ⟨⟨.empty, ?_⟩, rfl, fun h => absurd rfl h, ?_⟩
  · exact fun id operation h => absurd h (hempty id operation)
  · exact fun id operation h => absurd h (hempty id operation)

theorem worker_not_blank : Text.isBlank "worker" = false := by decide

theorem lease_seconds_pos : (0 : ℤ) < 300 := by decide

def plainRuntime : WorkspaceOperationRuntime where
  workerId := "worker"
  leaseSeconds := 300
  worker_named := worker_not_blank
  lease_pos := lease_seconds_pos

/-- Every statement succeeds, at a time. -/
def operationAnswer (at_ : Instant) : (statement : OperationStatement) → statement.Choice
  | .git statement => workAnswer statement
  | .advance _ => ()
  | .claimNext .. | .getById _ | .release _ | .succeed .. | .fail .. | .request .. =>
    { token := 1, id := 2, at_, locked := fun _ => false, fault := none }

/-- A worker removes the worktree and stops; when its lease is over, another one goes on. -/
def stoppedRun : List (operating plainGit toString plainManager "machine" "work").Input :=
  .start 0 (.request 7 ⟨.cleanup, "main", "clean", "operator", some "7"⟩) ::
    [.resume 0, .answer 0 (operationAnswer 0), .resume 0] ++
  .start 1 (.runOnce plainRuntime) ::
    (List.replicate 13 [.resume 1, .answer 1 (operationAnswer 0)]).flatten ++
  .interrupt 1 :: .start 2 (.runOnce plainRuntime) ::
    (List.replicate 12 [.resume 2, .answer 2 (operationAnswer 300000000)]).flatten

/-- The worker that takes something away in a step. -/
def takenBy (t : OperatingStep toString "work" plainGit plainManager "machine") : Option ℕ :=
  match t.output with
  | .answered slot _ _ (.git (.removeWorktree _)) | .answered slot _ _ (.git (.deleteBranch ..)) =>
    some slot
  | _ => none

/-- The other worker deletes the branch and records the release. -/
theorem releases_backed_stopped :
    (∀ t ∈ (operating plainGit toString plainManager "machine" "work").machine.trace
      ((operating plainGit toString plainManager "machine" "work").initial mergedPlace) stoppedRun,
      Backed t) ∧
    ((operating plainGit toString plainManager "machine" "work").machine.trace
      ((operating plainGit toString plainManager "machine" "work").initial mergedPlace)
      stoppedRun).filterMap takenBy = [1, 2] ∧
    ((operating plainGit toString plainManager "machine" "work").machine.run
      ((operating plainGit toString plainManager "machine" "work").initial mergedPlace)
      stoppedRun).shared.row.workspaceReleasedAt = some 300000000 ∧
    (((operating plainGit toString plainManager "machine" "work").machine.run
      ((operating plainGit toString plainManager "machine" "work").initial mergedPlace)
      stoppedRun).shared.operations.get? 2).map WorkspaceOperation.status = some .succeeded :=
  ⟨(releases_backed plainGit toString plainManager "machine" "work" mergedPlace stoppedRun
      (mergedPlace_sound toString)).1,
    by decide +kernel, by decide +kernel, by decide +kernel⟩

end JbOrchestrator.OpenClaw
