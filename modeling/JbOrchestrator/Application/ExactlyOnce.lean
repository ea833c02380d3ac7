import JbOrchestrator.Application.Staging

/-!
# ExactlyOnce — dispatches of one idempotency key, interleaved

Any number of dispatches run at once, and each can be stopped in front of any of its statements.  The
first of a key to commit creates one request, one run and one execution; the others find its receipt
and replay it or refuse.
-/

open Lib

namespace JbOrchestrator.Application

open Domain Workflows Infrastructure

/-! ## 1. Calls -/

structure DispatchCall where
  command : DispatchProjectRequest
  draws : Draws
  /-- what stops the call in front of its statement `n` -/
  faults : ℕ → Option String := fun _ => none

/-- The columns of the receipt that the command asks for. -/
def DispatchProjectRequest.receiptKey (command : DispatchProjectRequest) : ReceiptKey :=
  ⟨command.projectId, Text.strip command.origin.ingressKey, Text.strip command.idempotencyKey⟩

/-- The command is constructed from its fields and dispatched. -/
@[irreducible] def dispatchProjectRequest (sha256 : Sha256) (command : DispatchProjectRequest) (draws : Draws) :
    Dispatching DispatchedRequest := do
  let origin ← lift (throwDomain command.origin.postInit)
  RequestDispatchService.dispatch sha256 { command with origin } draws

/-- The end of the transaction.  A replay returns without a commit, and everything is rolled back; the
identifier of a receipt is its primary key. -/
def DispatchUnit.commit (dispatchUnit : DispatchUnit) (value : DispatchedRequest)
    (world : DispatchWorld) : Except DispatchError DispatchWorld :=
  if value.replayed then .ok world
  else
    match dispatchUnit.unitOfWork.flush world.database, dispatchUnit.receipt with
    | .error error, _ => .error (.service error)
    | .ok database, none =>
      .ok { world with database, created := world.created ++ dispatchUnit.created }
    | .ok database, some receipt =>
      if world.receipts.values.any fun other => other.id = receipt.id then
        .error (.service .integrityError)
      else
        .ok { world with
          database
          receipts := world.receipts.set receipt.key receipt
          created := world.created ++ dispatchUnit.created }

/-- The dispatches of a database. -/
def dispatches (sha256 : Sha256) :
    Store DispatchStatement DispatchStatement.Reply DispatchWorld DispatchUnit DispatchLock DispatchError
      DispatchCall DispatchedRequest where
  exec world taken dispatchUnit statement := statement.exec world taken dispatchUnit
  commit _ value dispatchUnit world := dispatchUnit.commit value world
  program call := (dispatchProjectRequest sha256 call.command call.draws).interruptible
    fun n => (call.faults n).map .interrupted
  start := {}
  exec_free h := (DispatchStatement.exec_eq_some h).2.2.2
  exec_isSome := DispatchStatement.exec_isSome

/-! ## 2. The committed state -/

/-- The receipt names what the call returned. -/
structure RequestDispatchReceipt.Names (receipt : RequestDispatchReceipt) (value : DispatchedRequest) :
    Prop where
  request : receipt.requestId = some value.request.id
  run : receipt.runId = some value.run.id
  workflow : receipt.workflowExecutionId = some value.workflow.id

/-- A key that a receipt can be constructed with. -/
structure ReceiptKey.Valid (key : ReceiptKey) : Prop where
  ingressKey : isIngressKey key.ingressKey = true
  idempotencyKey : ¬ (key.idempotencyKey = "" ∨ 128 < key.idempotencyKey.length)

/-- A completed receipt and the rows behind it. -/
structure RequestDispatchReceipt.Filed (receipt : RequestDispatchReceipt) (key : ReceiptKey)
    (db : Database) : Prop where
  valid : key.Valid
  project : (db.projects.get? key.projectId).isSome
  complete : receipt.isComplete = true
  request : ∀ id, receipt.requestId = some id → (db.requests.get? id).isSome
  run : ∀ id, receipt.runId = some id → (db.runs.get? id).isSome
  workflow : ∀ id, receipt.workflowExecutionId = some id → (db.executions.get? id).isSome

/-- Every committed receipt is complete. -/
structure DispatchWorld.Sound (world : DispatchWorld) : Prop where
  identified : world.database.Identified
  filed : ∀ key receipt, world.receipts.get? key = some receipt → receipt.Filed key world.database

/-- Without receipts there is nothing to complete. -/
theorem sound_of_empty {world : DispatchWorld} (hidentified : world.database.Identified)
    (hreceipts : world.receipts = .empty) : world.Sound where
  identified := hidentified
  filed key receipt h := by
    rw [hreceipts] at h
    cases h

/-- What the other dispatches do between two statements of one that holds the locks. -/
structure DispatchRely (held : Set DispatchLock) (world world' : DispatchWorld) : Prop where
  sound : world.Sound → world'.Sound
  projects : world'.database.projects = world.database.projects
  receipts : ∀ key receipt, world.receipts.get? key = some receipt →
    world'.receipts.get? key = some receipt
  claims : ∀ key, DispatchLock.claim key ∈ held → world.receipts.get? key = none →
    world'.receipts.get? key = none

theorem DispatchRely.refl (held : Set DispatchLock) (world : DispatchWorld) :
    DispatchRely held world world :=
  ⟨id, rfl, fun _ _ => id, fun _ _ => id⟩

theorem DispatchRely.trans {held : Set DispatchLock} {world world' world'' : DispatchWorld}
    (h : DispatchRely held world world') (h' : DispatchRely held world' world'') :
    DispatchRely held world world'' where
  sound hsound := h'.sound (h.sound hsound)
  projects := h'.projects.trans h.projects
  receipts key receipt hreceipt := h'.receipts key receipt (h.receipts key receipt hreceipt)
  claims key hclaim hnone := h'.claims key hclaim (h.claims key hclaim hnone)

/-! ## 3. What a call does -/

/-- The call creates the rows of its key. -/
structure Creates (sha256 : Sha256) (key : ReceiptKey) (payload : DispatchPayload)
    (value : DispatchedRequest) (world world' : DispatchWorld) : Prop where
  first : world.receipts.get? key = none
  receipt : ∃ receipt : RequestDispatchReceipt, world'.receipts = world.receipts.set key receipt ∧
    receipt.Names value ∧ receipt.payloadDigest = payload.digest sha256
  requests : world'.database.requests.keys = world.database.requests.keys ++ [value.request.id]
  runs : world'.database.runs.keys = world.database.runs.keys ++ [value.run.id]
  executions : world'.database.executions.keys =
    world.database.executions.keys ++ [value.workflow.id]
  created : world'.created.map RequestCreated.requestId =
    world.created.map RequestCreated.requestId ++ [value.request.id]

/-- The call returns what the receipt of its key names. -/
structure Replays (sha256 : Sha256) (key : ReceiptKey) (payload : DispatchPayload)
    (value : DispatchedRequest) (world world' : DispatchWorld) : Prop where
  receipt : ∃ receipt : RequestDispatchReceipt, world.receipts.get? key = some receipt ∧
    receipt.Names value ∧ receipt.payloadDigest = payload.digest sha256
  unchanged : world' = world

/-- What a call that returns does, with its locks. -/
def DispatchCommits (sha256 : Sha256) (call : DispatchCall) (value : DispatchedRequest)
    (held : Set DispatchLock) (world world' : DispatchWorld) : Prop :=
  ∃ payload, call.command.payload = .ok payload ∧
    (value.replayed = false ∧ .claim call.command.receiptKey ∈ held ∧
        Creates sha256 call.command.receiptKey payload value world world' ∧
        (world.Sound → world'.Sound) ∧ world'.database.projects = world.database.projects ∨
      value.replayed = true ∧ Replays sha256 call.command.receiptKey payload value world world')

/-- The error for a key with another payload. -/
def usedDifferently : DispatchError :=
  conflict "idempotency key was already used with a different request payload"

/-- A call that finds a receipt of its key fails where the payload is another, or is stopped. -/
def DispatchRaises (sha256 : Sha256) (call : DispatchCall) (error : DispatchError)
    (world : DispatchWorld) : Prop :=
  ∀ payload receipt, call.command.payload = .ok payload →
    world.receipts.get? call.command.receiptKey = some receipt →
      (∃ reason, error = .interrupted reason) ∨
        receipt.payloadDigest ≠ payload.digest sha256 ∧ error = usedDifferently

/-! ## 4. Behind the claim -/

/-- The statement is answered on some committed state. -/
def DispatchReplies (s : DispatchUnit) (statement : DispatchStatement) (reply : statement.Reply)
    (s' : DispatchUnit) : Prop :=
  ∃ world taken, statement.answer world taken s = (reply, s')

/-- Statements that leave the unit of work as it is. -/
def Looks : DispatchStatement → Prop
  | .row statement => Discipline.quiet statement
  | .recommendation _ | .binding _ => True
  | _ => False

/-- A statement of another service answers from its own unit of work and changes nothing else. -/
theorem replies_row {s s' : DispatchUnit} {statement : Statement} {reply : statement.Reply}
    (h : DispatchReplies s (.row statement) reply s') :
    Replies s.unitOfWork statement reply s'.unitOfWork ∧ s'.receipt = s.receipt ∧
      s'.created = s.created := by
  obtain ⟨world, taken, hanswer⟩ := h
  obtain ⟨rfl, rfl⟩ := Prod.mk.inj hanswer
  exact ⟨⟨world.database, fun lock => taken (.row lock), rfl⟩, rfl, rfl⟩

theorem replies_describe {s s' : DispatchUnit} {created : RequestCreated} {reply : Unit}
    (h : DispatchReplies s (.describe created) reply s') :
    s'.unitOfWork = s.unitOfWork ∧ s'.receipt = s.receipt ∧ s'.created = s.created ++ [created] := by
  obtain ⟨world, taken, hanswer⟩ := h
  obtain ⟨-, rfl⟩ := Prod.mk.inj hanswer
  exact ⟨rfl, rfl, rfl⟩

/-- The receipt that was claimed gets its results. -/
theorem replies_saveReceipt {s s' : DispatchUnit} {claimed completed : RequestDispatchReceipt}
    {saved : Bool} (hclaimed : s.receipt = some claimed) (hid : completed.id = claimed.id)
    (h : DispatchReplies s (.saveReceipt completed) saved s') :
    s'.unitOfWork = s.unitOfWork ∧ s'.created = s.created ∧ s'.receipt = some { claimed with
      requestId := completed.requestId
      runId := completed.runId
      workflowExecutionId := completed.workflowExecutionId
      completedAt := completed.completedAt } := by
  obtain ⟨world, taken, hanswer⟩ := h
  have hown : DispatchStatement.receiptOf world s completed.id = some claimed := by
    unfold DispatchStatement.receiptOf
    rw [hclaimed, hid]
    exact List.find?_cons_of_pos (by simp)
  simp only [DispatchStatement.answer, hown] at hanswer
  obtain ⟨-, rfl⟩ := Prod.mk.inj hanswer
  exact ⟨rfl, rfl, rfl⟩

theorem looks_replies {s s' : DispatchUnit} {statement : DispatchStatement}
    {reply : statement.Reply} (hlooks : Looks statement) (h : DispatchReplies s statement reply s') :
    s' = s := by
  cases statement with
  | row statement =>
    obtain ⟨hreply, hreceipt, hcreated⟩ := replies_row h
    have hunit := quiet_replies hlooks hreply
    cases s
    cases s'
    exact DispatchUnit.mk.injEq .. ▸ ⟨hunit, hreceipt, hcreated⟩
  | recommendation id =>
    obtain ⟨world, taken, hanswer⟩ := h
    exact (congrArg Prod.snd hanswer).symm
  | binding projectId =>
    obtain ⟨world, taken, hanswer⟩ := h
    exact (congrArg Prod.snd hanswer).symm
  | _ => cases hlooks

theorem lift_ends {α : Type} {p : Transaction α} {P : UnitOfWork → α → Prop} {s : DispatchUnit}
    (h : p.Ends Replies P s.unitOfWork) :
    (lift p).Ends DispatchReplies (fun s' value =>
      P s'.unitOfWork value ∧ s'.receipt = s.receipt ∧ s'.created = s.created) s := by
  induction p generalizing s with
  | done value => exact ⟨h, rfl, rfl⟩
  | raise error => trivial
  | ask statement next ih =>
    intro reply s' hreply
    obtain ⟨hrow, hreceipt, hcreated⟩ := replies_row hreply
    refine (ih reply (s := s') (h reply s'.unitOfWork hrow)).mono ?_
    rintro s'' value ⟨hvalue, hreceipt', hcreated'⟩
    exact ⟨hvalue, hreceipt'.trans hreceipt, hcreated'.trans hcreated⟩

theorem lift_throwDomain_ends {α : Type} {x : Except DomainError α} {P : DispatchUnit → α → Prop}
    {s : DispatchUnit} (h : ∀ value, x = .ok value → P s value) :
    (lift (throwDomain x)).Ends DispatchReplies P s := by
  cases x with
  | ok value => exact h value rfl
  | error error => trivial

theorem lift_within {α : Type} {p : Transaction α}
    (h : p.Within Discipline.quiet fun _ => True) : (lift p).Within Looks fun _ => True := by
  induction p with
  | done value => trivial
  | raise error => trivial
  | ask statement next ih => exact ⟨h.1, fun reply => ih reply (h.2 reply)⟩

namespace RequestDispatchService

variable {sha256 : Sha256} {command : DispatchProjectRequest} {draws : Draws}
  {payload : DispatchPayload}

theorem namedDefinition_within (named : String × ℤ) :
    (namedDefinition named).Within Looks fun _ => True := by
  obtain ⟨key, version⟩ := named
  refine Program.within_bind ?_ fun _ => Program.within_ofOption trivial
  cases version with
  | ofNat version => exact lift_within (Program.within_perform trivial)
  | negSucc version => trivial

theorem boundDefinition_within (projectId : UUID) :
    (boundDefinition projectId).Within Looks fun _ => True := by
  refine Program.within_bind (Program.within_perform trivial) fun row => ?_
  refine Program.within_bind (Program.within_ofOption trivial) fun binding => ?_
  refine Program.within_bind ?_ fun _ => Program.within_ofOption trivial
  exact lift_within (Program.within_perform trivial)

theorem selectDefinition_within :
    (selectDefinition sha256 command payload).Within Looks fun _ => True := by
  unfold selectDefinition
  split
  · refine Program.within_bind (Program.within_perform trivial) fun event => ?_
    refine Program.within_bind (Program.within_ofExcept fun _ _ => trivial) fun selected => ?_
    exact Program.within_bind (namedDefinition_within _) fun _ => trivial
  split
  · exact Program.within_bind (namedDefinition_within _) fun _ => trivial
  · exact Program.within_bind (boundDefinition_within _) fun _ => trivial

theorem admitAddon_within (definition : WorkflowDefinition) (addon : NodeSkillAddon) :
    (admitAddon definition addon).Within Discipline.quiet fun _ => True := by
  unfold admitAddon
  split
  · trivial
  split
  · trivial
  refine Program.within_bind (Program.within_forEach (fun reference => ?_) _) fun _ => trivial
  exact Program.within_bind (Program.within_perform trivial) fun _ => Program.within_ofOption trivial

theorem applySkillAddons_within (definition : AcceptedDefinition) (addons : List NodeSkillAddon) :
    (applySkillAddons definition addons).Within Discipline.quiet fun _ => True := by
  unfold applySkillAddons
  split
  · trivial
  · exact Program.within_bind (Program.within_forEach (admitAddon_within _) _) fun _ => trivial

theorem complete_ok {receipt completed : RequestDispatchReceipt} {requestId runId executionId : UUID}
    {now : Instant} (h : receipt.complete requestId runId executionId now = .ok completed) :
    completed.id = receipt.id ∧ completed.requestId = some requestId ∧
      completed.runId = some runId ∧ completed.workflowExecutionId = some executionId := by
  unfold RequestDispatchReceipt.complete at h
  split at h
  · cases h
  · obtain rfl := Except.ok.inj h
    exact ⟨rfl, rfl, rfl, rfl⟩

/-- The rows and the receipt of a dispatch that is about to commit. -/
structure Prepared (receipt : RequestDispatchReceipt) (value : DispatchedRequest) (s : DispatchUnit) :
    Prop where
  replayed : value.replayed = false
  receipt : ∃ completed : RequestDispatchReceipt, s.receipt = some completed ∧
    completed.Names value ∧ completed.id = receipt.id ∧ completed.key = receipt.key ∧
    completed.payloadDigest = receipt.payloadDigest
  staged : Staged value.request.id value.run.id [value.workflow.id] s.unitOfWork
  created : s.created.map RequestCreated.requestId = [value.request.id]

theorem createRequested_ends (project : Project) (receipt : RequestDispatchReceipt) :
    (createRequested sha256 command draws payload project receipt).Ends DispatchReplies
      (fun s value => Prepared receipt value s) { receipt := some receipt } := by
  unfold createRequested
  split
  · trivial
  refine Program.ends_bind (selectDefinition_within.ends (fun _ _ _ => looks_replies) ?_)
  rintro ⟨selected, source⟩
  refine Program.ends_bind ((lift_within (applySkillAddons_within selected _)).ends
    (fun _ _ _ => looks_replies) fun composed => ?_)
  refine Program.ends_bind (Program.ends_ofExcept fun definition _ => ?_)
  dsimp only
  split
  · trivial
  refine Program.ends_bind (lift_throwDomain_ends fun received _ => ?_)
  refine Program.ends_bind (lift_throwDomain_ends fun request _ => ?_)
  -- the request and the run, with what describes them
  refine Program.ends_bind fun reply s₁ hreply => ?_
  obtain ⟨hrequest, hreceipt₁, hcreated₁⟩ := replies_row hreply
  refine Program.ends_bind fun reply s₂ hreply => ?_
  obtain ⟨hrun, hreceipt₂, hcreated₂⟩ := replies_row hreply
  refine Program.ends_bind fun reply s₃ hreply => ?_
  obtain ⟨hevent, hreceipt₃, hcreated₃⟩ := replies_row hreply
  refine Program.ends_bind fun reply s₄ hdescribe => ?_
  obtain ⟨hunit₄, hreceipt₄, hcreated₄⟩ := replies_describe hdescribe
  have hstaged := (staged_added hrequest hrun rfl).append hevent
  rw [← hunit₄] at hstaged
  refine Program.ends_bind ((lift_ends (createExecution_ends hstaged)).mono ?_)
  rintro s₅ workflow ⟨hstaged₅, hreceipt₅, hcreated₅⟩
  -- both are loaded
  refine Program.ends_bind fun reply s₆ hreply => ?_
  obtain ⟨hrow, hreceipt₆, hcreated₆⟩ := replies_row hreply
  obtain ⟨hunit₆, run, rfl, hrunId, -⟩ := hstaged₅.run_reply hrow
  rw [← hunit₆] at hstaged₅
  refine Program.ends_bind fun reply s₇ hreply => ?_
  obtain ⟨hrow, hreceipt₇, hcreated₇⟩ := replies_row hreply
  obtain ⟨hunit₇, stored, rfl, hrequestId⟩ := hstaged₅.request_reply hrow
  rw [← hunit₇] at hstaged₅
  dsimp only
  refine Program.ends_bind (lift_throwDomain_ends fun completed hcompleted => ?_)
  refine Program.ends_bind fun saved s₈ hsave => ?_
  obtain ⟨hid, hrequestId', hrunId', hworkflowId⟩ := complete_ok hcompleted
  have hclaimed : s₇.receipt = some receipt :=
    hreceipt₇.trans (hreceipt₆.trans (hreceipt₅.trans (hreceipt₄.trans (hreceipt₃.trans
      (hreceipt₂.trans hreceipt₁)))))
  have hcreated : s₇.created.map RequestCreated.requestId = [request.id] := by
    rw [hcreated₇, hcreated₆, hcreated₅, hcreated₄, hcreated₃, hcreated₂, hcreated₁]
    rfl
  obtain ⟨hunit₈, hcreated₈, hreceipt₈⟩ := replies_saveReceipt hclaimed hid hsave
  cases (saved : Bool) with
  | false => trivial
  | true =>
    refine ⟨rfl, ⟨_, hreceipt₈, ⟨hrequestId', hrunId', hworkflowId⟩, rfl, rfl, rfl⟩, ?_, ?_⟩
    · show Staged stored.id run.id [workflow.id] s₈.unitOfWork
      rw [hunit₈, hrequestId, hrunId]
      exact hstaged₅
    · show s₈.created.map RequestCreated.requestId = [stored.id]
      rw [hcreated₈, hcreated, hrequestId]

end RequestDispatchService

/-! ## 5. The key of a call -/

section

variable {command : DispatchProjectRequest} {origin : RequestOrigin} {payload : DispatchPayload}
  {receipt : RequestDispatchReceipt} {id projectId : UUID} {ingressKey idempotencyKey digest : String}
  {now : Instant}

theorem payload_eq_ok (hpost : command.origin.postInit = .ok origin)
    (h : DispatchProjectRequest.normalize { command with origin } = .ok payload) :
    command.payload = .ok payload := by
  unfold DispatchProjectRequest.payload
  rw [hpost]
  exact h

theorem normalize_of_payload (hpost : command.origin.postInit = .ok origin)
    (h : command.payload = .ok payload) :
    DispatchProjectRequest.normalize { command with origin } = .ok payload := by
  unfold DispatchProjectRequest.payload at h
  rw [hpost] at h
  exact h

theorem postInit_of_payload (h : command.payload = .ok payload) :
    ∃ origin, command.origin.postInit = .ok origin := by
  unfold DispatchProjectRequest.payload at h
  cases hpost : command.origin.postInit with
  | ok origin => exact ⟨origin, rfl⟩
  | error error =>
    rw [hpost] at h
    cases h

/-- The key of the constructed command is the one of its fields. -/
theorem receiptKey_postInit (hpost : command.origin.postInit = .ok origin) :
    DispatchProjectRequest.receiptKey { command with origin } = command.receiptKey := by
  have hingress : origin.ingressKey = Text.strip command.origin.ingressKey := by
    unfold RequestOrigin.postInit at hpost
    dsimp only at hpost
    split at hpost
    · cases hpost
    split at hpost
    · cases hpost
    split at hpost
    · cases hpost
    split at hpost
    · cases hpost
    obtain rfl := Except.ok.inj hpost
    rfl
  unfold DispatchProjectRequest.receiptKey
  rw [hingress, Text.strip_strip]

theorem create_ok (h : RequestDispatchReceipt.create id projectId ingressKey idempotencyKey digest now =
    .ok receipt) :
    receipt.key = ⟨projectId, Text.strip ingressKey, Text.strip idempotencyKey⟩ ∧
      receipt.key.Valid ∧ receipt.payloadDigest = digest := by
  unfold RequestDispatchReceipt.create at h
  split at h
  · cases h
  rename_i hingress
  split at h
  · cases h
  rename_i hkey
  split at h
  · cases h
  obtain rfl := Except.ok.inj h
  exact ⟨rfl, ⟨Bool.eq_true_of_not_eq_false hingress, hkey⟩, rfl⟩

theorem create_of_valid (id : UUID) (now : Instant)
    (hvalid : ReceiptKey.Valid ⟨projectId, Text.strip ingressKey, Text.strip idempotencyKey⟩)
    (hdigest : isPayloadDigest digest = true) :
    ∃ receipt, RequestDispatchReceipt.create id projectId ingressKey idempotencyKey digest now =
      .ok receipt := by
  have hingress : ¬ isIngressKey (Text.strip ingressKey) = false := by
    rw [hvalid.ingressKey]
    exact Bool.noConfusion
  have hdigest' : ¬ isPayloadDigest digest = false := by
    rw [hdigest]
    exact Bool.noConfusion
  unfold RequestDispatchReceipt.create
  rw [if_neg hingress, if_neg hvalid.idempotencyKey, if_neg hdigest']
  exact ⟨_, rfl⟩

theorem isPayloadDigest_digest (sha256 : Sha256) (payload : DispatchPayload) :
    isPayloadDigest (payload.digest sha256) = true := by
  have hlist : (payload.digest sha256).toList =
      "sha256:".toList ++ (sha256.hexdigest payload.text).toList := String.toList_append
  have htake : (payload.digest sha256).toList.take 7 = "sha256:".toList := by
    rw [hlist]
    exact List.take_left' rfl
  have hdrop : (payload.digest sha256).toList.drop 7 = (sha256.hexdigest payload.text).toList := by
    rw [hlist]
    exact List.drop_left' rfl
  unfold isPayloadDigest
  rw [htake, hdrop, String.ofList_toList, sha256.shape]
  rfl

end

/-! ## 6. Every call -/

section

variable (sha256 : Sha256) (call : DispatchCall)

/-- What is left of the call does what a dispatch may do. -/
def Meets (p : Dispatching DispatchedRequest) (held : Set DispatchLock) (s : DispatchUnit)
    (world : DispatchWorld) : Prop :=
  (dispatches sha256).wp DispatchRely (fun _ _ _ => True)
    (Store.Fails DispatchRely DispatchWorld.Sound (DispatchRaises sha256) call)
    ((dispatches sha256).Finishes DispatchRely DispatchWorld.Sound (DispatchCommits sha256)
      (DispatchRaises sha256) call) p held s world

variable {sha256 call} {held : Set DispatchLock} {s : DispatchUnit} {world : DispatchWorld}

/-- One statement, on the state that the others have left. -/
theorem meets_ask {statement : DispatchStatement}
    {f : statement.Reply → Dispatching DispatchedRequest}
    (h : ∀ world', DispatchRely held world world' → ∀ taken,
      Meets sha256 call (f (statement.answer world' taken s).1)
        (held ∪ {l | l ∈ statement.locks world' taken}) (statement.answer world' taken s).2 world') :
    Meets sha256 call (ask statement >>= f) held s world := by
  intro world' hrely _ taken reply s' acquired hexec
  obtain ⟨rfl, rfl, rfl, -⟩ := DispatchStatement.exec_eq_some hexec
  exact h world' hrely taken

theorem meets_row {statement : Statement} {f : statement.Reply → Dispatching DispatchedRequest}
    (hlocks : ∀ db taken, statement.locks db taken = [])
    (h : ∀ world', DispatchRely held world world' → ∀ taken,
      Meets sha256 call (f (statement.answer world'.database taken s.unitOfWork).1) held
        { s with unitOfWork := (statement.answer world'.database taken s.unitOfWork).2 } world') :
    Meets sha256 call (lift (perform statement) >>= f) held s world := by
  show Meets sha256 call (ask (.row statement) >>= f) held s world
  refine meets_ask fun world' hrely taken => ?_
  have hnone : DispatchStatement.locks world' taken (.row statement) = [] :=
    congrArg (List.map DispatchLock.row) (hlocks _ _)
  rw [hnone, show held ∪ {l | l ∈ ([] : List DispatchLock)} = held by simp]
  exact h world' hrely fun lock => taken (.row lock)

/-- An error that no stored receipt contradicts. -/
theorem meets_raise {error : DispatchError}
    (h : ∀ world', DispatchRely held world world' → world'.Sound →
      DispatchRaises sha256 call error world') :
    Meets sha256 call (.raise error) held s world := h

theorem meets_throwDomain {α : Type} {x : Except DomainError α}
    {f : α → Dispatching DispatchedRequest}
    (hok : ∀ value, x = .ok value → Meets sha256 call (f value) held s world)
    (herror : ∀ error, x = .error error → ∀ world', DispatchRely held world world' → world'.Sound →
      DispatchRaises sha256 call (.service (.domain error)) world') :
    Meets sha256 call (lift (throwDomain x) >>= f) held s world := by
  cases x with
  | ok value => exact hok value rfl
  | error error => exact meets_raise (herror error rfl)

theorem meets_ofOption {α : Type} {x : Option α} {error : ServiceError}
    {f : α → Dispatching DispatchedRequest}
    (hsome : ∀ value, x = some value → Meets sha256 call (f value) held s world)
    (hnone : x = none → ∀ world', DispatchRely held world world' → world'.Sound →
      DispatchRaises sha256 call (.service error) world') :
    Meets sha256 call (lift (Program.ofOption error x) >>= f) held s world := by
  cases x with
  | some value => exact hsome value rfl
  | none => exact meets_raise (hnone rfl)

/-- Where no receipt of the key is stored there is nothing to contradict. -/
theorem raises_of_none {error : DispatchError}
    (h : world.receipts.get? call.command.receiptKey = none) : DispatchRaises sha256 call error world := by
  intro payload receipt _ hreceipt
  rw [h] at hreceipt
  cases hreceipt

theorem isComplete_iff {receipt : RequestDispatchReceipt} : receipt.isComplete = true ↔
    ∃ requestId runId executionId, receipt.requestId = some requestId ∧ receipt.runId = some runId ∧
      receipt.workflowExecutionId = some executionId := by
  simp [RequestDispatchReceipt.isComplete, Option.isSome_iff_exists, and_assoc]

theorem load_unloaded {α : Type} {loaded : Dict UUID α} {id : UUID} {row : α}
    (h : loaded.get? id = none) :
    Statement.load loaded id (some row) = (some row, loaded.set id row) := by
  unfold Statement.load
  rw [h]

/-- The rows of a stored receipt are found, and returned as they are. -/
theorem replay_meets {payload : DispatchPayload} {receipt : RequestDispatchReceipt}
    (hpayload : call.command.payload = .ok payload) (hsound : world.Sound)
    (hreceipt : world.receipts.get? call.command.receiptKey = some receipt)
    (hdigest : receipt.payloadDigest = payload.digest sha256) :
    Meets sha256 call (RequestDispatchService.replay receipt) held {} world := by
  obtain ⟨requestId, runId, executionId, hrequestId, hrunId, hexecutionId⟩ :=
    isComplete_iff.mp (hsound.filed _ _ hreceipt).complete
  unfold RequestDispatchService.replay
  rw [hrequestId, hrunId, hexecutionId]
  dsimp only
  refine meets_row (fun _ _ => rfl) fun world₁ hrely₁ taken => ?_
  have hsound₁ := hrely₁.sound hsound
  have hreceipt₁ := hrely₁.receipts _ _ hreceipt
  obtain ⟨request, hrequest⟩ := Option.isSome_iff_exists.mp
    ((hsound₁.filed _ _ hreceipt₁).request _ hrequestId)
  simp only [Statement.answer, hrequest, load_unloaded (Dict.get?_empty _)]
  refine meets_row (fun _ _ => rfl) fun world₂ hrely₂ taken => ?_
  have hsound₂ := hrely₂.sound hsound₁
  have hreceipt₂ := hrely₂.receipts _ _ hreceipt₁
  obtain ⟨run, hrun⟩ := Option.isSome_iff_exists.mp
    ((hsound₂.filed _ _ hreceipt₂).run _ hrunId)
  simp only [Statement.answer, hrun, load_unloaded (Dict.get?_empty _)]
  refine meets_row (fun _ _ => rfl) fun world₃ hrely₃ taken => ?_
  have hsound₃ := hrely₃.sound hsound₂
  have hreceipt₃ := hrely₃.receipts _ _ hreceipt₂
  obtain ⟨execution, hexecution⟩ := Option.isSome_iff_exists.mp
    ((hsound₃.filed _ _ hreceipt₃).workflow _ hexecutionId)
  simp only [Statement.answer, hexecution, Option.map_some, load_unloaded (Dict.get?_empty _)]
  refine meets_row (fun _ _ => rfl) fun world₄ hrely₄ taken => ?_
  have hreceipt₄ := hrely₄.receipts _ _ hreceipt₃
  intro world₅ hrely₅ _
  refine ⟨payload, hpayload, .inr ⟨rfl, ⟨receipt, hrely₅.receipts _ _ hreceipt₄, ⟨?_, ?_, ?_⟩,
    hdigest⟩, rfl⟩⟩
  · rw [hrequestId, ← hsound₁.identified.request _ _ hrequest]
  · rw [hrunId, ← hsound₂.identified.run _ _ hrun]
  · rw [hexecutionId, ← hsound₃.identified.execution _ _ hexecution]
    rfl

theorem Filed.retains {receipt : RequestDispatchReceipt} {key : ReceiptKey} {db db' : Database}
    (h : receipt.Filed key db) (hretains : Retains db db') : receipt.Filed key db' where
  valid := h.valid
  project := hretains.projects.symm ▸ h.project
  complete := h.complete
  request id hid := hretains.request id (h.request id hid)
  run id hid := hretains.run id (h.run id hid)
  workflow id hid := hretains.execution id (h.workflow id hid)

/-- The receipt that a dispatch has claimed, with the lock on its key. -/
structure Claimed (sha256 : Sha256) (call : DispatchCall) (payload : DispatchPayload)
    (receipt : RequestDispatchReceipt) : Prop where
  normalized : call.command.payload = .ok payload
  key : receipt.key = call.command.receiptKey
  valid : receipt.key.Valid
  digest : receipt.payloadDigest = payload.digest sha256

/-- What stays so while the lock is held. -/
structure Unclaimed (key : ReceiptKey) (held : Set DispatchLock) (world : DispatchWorld) : Prop where
  lock : DispatchLock.claim key ∈ held
  first : world.receipts.get? key = none
  project : (world.database.projects.get? key.projectId).isSome

theorem Unclaimed.rely {key : ReceiptKey} {world' : DispatchWorld} (h : Unclaimed key held world)
    (hrely : DispatchRely held world world') : Unclaimed key held world' where
  lock := h.lock
  first := hrely.claims _ h.lock h.first
  project := hrely.projects.symm ▸ h.project

theorem prepared_finishes {payload : DispatchPayload} {receipt : RequestDispatchReceipt}
    {value : DispatchedRequest} (hclaimed : Claimed sha256 call payload receipt)
    (hfirst : Unclaimed call.command.receiptKey held world)
    (h : RequestDispatchService.Prepared receipt value s) :
    (dispatches sha256).Finishes DispatchRely DispatchWorld.Sound (DispatchCommits sha256)
      (DispatchRaises sha256) call held s value world := by
  intro world' hrely hsound
  have hfirst' := hfirst.rely hrely
  obtain ⟨completed, hreceipt, hnames, -, hkey, hdigest⟩ := h.receipt
  rw [hclaimed.key] at hkey
  have hcommit : (dispatches sha256).commit call value s world' = s.commit value world' := rfl
  rw [hcommit]
  unfold DispatchUnit.commit
  rw [h.replayed, if_neg Bool.noConfusion, hreceipt]
  cases hflush : s.unitOfWork.flush world'.database with
  | error error => exact raises_of_none hfirst'.first
  | ok database =>
    obtain ⟨hretains, hadds⟩ := flush_spec hflush
    dsimp only
    by_cases hprimary : (world'.receipts.values.any fun other => other.id = completed.id) = true
    · rw [if_pos hprimary]
      exact raises_of_none hfirst'.first
    rw [if_neg hprimary]
    have hrequests : database.requests.keys = world'.database.requests.keys ++ [value.request.id] := by
      rw [hadds.requests, h.staged.requests]
    have hruns : database.runs.keys = world'.database.runs.keys ++ [value.run.id] := by
      rw [hadds.runs, h.staged.runs]
    have hexecutions :
        database.executions.keys = world'.database.executions.keys ++ [value.workflow.id] := by
      rw [hadds.executions, h.staged.executions]
    have hvalid : call.command.receiptKey.Valid := hclaimed.key ▸ hclaimed.valid
    -- the new receipt is complete, the others stay so
    have hfiled : completed.Filed call.command.receiptKey database := by
      refine ⟨hvalid, hretains.projects.symm ▸ hfirst'.project,
        isComplete_iff.mpr ⟨_, _, _, hnames.request, hnames.run, hnames.workflow⟩, ?_, ?_, ?_⟩
      · intro id hid
        obtain rfl := Option.some.inj (hnames.request.symm.trans hid)
        rw [← Dict.mem_keys_iff, hrequests]
        exact List.mem_append_right _ List.mem_cons_self
      · intro id hid
        obtain rfl := Option.some.inj (hnames.run.symm.trans hid)
        rw [← Dict.mem_keys_iff, hruns]
        exact List.mem_append_right _ List.mem_cons_self
      · intro id hid
        obtain rfl := Option.some.inj (hnames.workflow.symm.trans hid)
        rw [← Dict.mem_keys_iff, hexecutions]
        exact List.mem_append_right _ List.mem_cons_self
    refine ⟨payload, hclaimed.normalized, .inl ⟨h.replayed, hfirst'.lock, ?_, ?_, hretains.projects⟩⟩
    · refine ⟨hfirst'.first, ⟨completed, ?_, hnames, hdigest.trans hclaimed.digest⟩, hrequests, hruns,
        hexecutions, ?_⟩
      · rw [hkey]
      · rw [List.map_append, h.created]
    · intro _
      refine ⟨hretains.identified hsound.identified, fun key other hother => ?_⟩
      rw [hkey, Dict.get?_set] at hother
      split at hother
      · rename_i hsame
        obtain rfl := Option.some.inj hother
        rw [hsame]
        exact hfiled
      · exact Filed.retains (hsound.filed key other hother) hretains

/-- Behind its claim a dispatch is on its own. -/
theorem createRequested_meets {payload : DispatchPayload} {receipt : RequestDispatchReceipt}
    {command : DispatchProjectRequest} {project : Project}
    (hclaimed : Claimed sha256 call payload receipt)
    (hfirst : Unclaimed call.command.receiptKey held world) :
    Meets sha256 call (RequestDispatchService.createRequested sha256 command call.draws payload project
      receipt) held { receipt := some receipt } world := by
  refine Store.wp_ends _ ?_ (fun held d d' (hfixed : Unclaimed _ held d) hrely => hfixed.rely hrely) ?_
    ?_ ?_ (RequestDispatchService.createRequested_ends project receipt) hfirst
  · intro d taken s statement reply s' acquired hexec
    obtain ⟨rfl, rfl, -, -⟩ := DispatchStatement.exec_eq_some hexec
    exact ⟨d, taken, rfl⟩
  · exact fun held held' d hsubset hfixed => ⟨hsubset hfixed.lock, hfixed.first, hfixed.project⟩
  · exact fun held s error d hfixed d' hrely _ => raises_of_none (hfixed.rely hrely).first
  · exact fun held s value d hfixed hprepared => prepared_finishes hclaimed hfixed hprepared

/-- One call of a key gets the claim; the others find its receipt. -/
theorem claimOrReplay_meets {payload : DispatchPayload} {receipt : RequestDispatchReceipt}
    {command : DispatchProjectRequest} {project : Project}
    (hclaimed : Claimed sha256 call payload receipt) (hsound : world.Sound)
    (hproject : (world.database.projects.get? call.command.projectId).isSome) :
    Meets sha256 call (RequestDispatchService.claimOrReplay sha256 command call.draws payload project
      receipt) held {} world := by
  refine meets_ask fun world₁ hrely₁ taken => ?_
  have hsound₁ := hrely₁.sound hsound
  have hproject₁ := hrely₁.projects.symm ▸ hproject
  cases hstored : world₁.receipts.get? receipt.key with
  | none =>
    simp only [DispatchStatement.answer, DispatchStatement.locks, hstored, Option.isSome_none,
      Bool.false_eq_true, if_false, if_true]
    refine createRequested_meets hclaimed ⟨?_, ?_, hproject₁⟩
    · rw [← hclaimed.key]
      exact .inr List.mem_cons_self
    · rw [← hclaimed.key, hstored]
  | some stored =>
    simp only [DispatchStatement.answer, DispatchStatement.locks, hstored, Option.isSome_some,
      Bool.false_eq_true, if_false, if_true]
    refine meets_ask fun world₂ hrely₂ taken => ?_
    have hstored₂ := hrely₂.receipts _ _ hstored
    simp only [DispatchStatement.answer, hstored₂]
    show Meets sha256 call (if stored.payloadDigest ≠ receipt.payloadDigest then _ else _) _ {} world₂
    rw [hclaimed.digest]
    rw [hclaimed.key] at hstored₂
    split
    · rename_i hdigest
      refine meets_raise fun world' hrely' _ payload' receipt' hpayload hreceipt => ?_
      obtain rfl := Except.ok.inj (hclaimed.normalized.symm.trans hpayload)
      obtain rfl := Option.some.inj ((hrely'.receipts _ _ hstored₂).symm.trans hreceipt)
      exact .inr ⟨hdigest, rfl⟩
    · rename_i hdigest
      exact replay_meets hclaimed.normalized (hrely₂.sound hsound₁) hstored₂ (not_not.mp hdigest)

theorem dispatch_meets {origin : RequestOrigin} (hpost : call.command.origin.postInit = .ok origin)
    (hsound : world.Sound) :
    Meets sha256 call (RequestDispatchService.dispatch sha256 { call.command with origin } call.draws)
      held {} world := by
  unfold RequestDispatchService.dispatch
  cases hnormalize : DispatchProjectRequest.normalize { call.command with origin } with
  | error error =>
    refine meets_raise fun world' _ _ payload receipt hpayload _ => ?_
    rw [normalize_of_payload hpost hpayload] at hnormalize
    cases hnormalize
  | ok payload =>
  have hpayload := payload_eq_ok hpost hnormalize
  refine meets_row (fun _ _ => rfl) fun world₁ hrely₁ taken => ?_
  have hsound₁ := hrely₁.sound hsound
  refine meets_ofOption (fun project hproject => ?_)
    fun hproject world' hrely' hsound' payload' receipt _ hreceipt => ?_
  · have hkey : (⟨call.command.projectId, Text.strip origin.ingressKey,
        Text.strip call.command.idempotencyKey⟩ : ReceiptKey) = call.command.receiptKey :=
      receiptKey_postInit hpost
    refine meets_throwDomain (fun receipt hcreate => ?_)
      fun error hcreate world' _ hsound' payload' receipt _ hreceipt => ?_
    · obtain ⟨hreceiptKey, hvalid, hdigest⟩ := create_ok hcreate
      exact claimOrReplay_meets ⟨hpayload, hreceiptKey.trans hkey, hvalid, hdigest⟩ hsound₁
        (Option.isSome_iff_exists.mpr ⟨project, hproject⟩)
    · -- the key of a stored receipt is one that a receipt can have
      have hvalid := (hsound'.filed _ _ hreceipt).valid
      rw [← hkey] at hvalid
      obtain ⟨receipt', hreceipt'⟩ := create_of_valid call.draws.receiptId call.draws.now hvalid
        (isPayloadDigest_digest sha256 payload)
      exact absurd (hcreate.symm.trans hreceipt') (fun h => by cases h)
  · have hexists : (world'.database.projects.get? call.command.projectId).isSome :=
      (hsound'.filed _ _ hreceipt).project
    have hmissing : world₁.database.projects.get? call.command.projectId = none := hproject
    rw [hrely'.projects, hmissing] at hexists
    cases hexists

theorem dispatchProjectRequest_meets (hsound : world.Sound) :
    Meets sha256 call (dispatchProjectRequest sha256 call.command call.draws) held {} world := by
  unfold dispatchProjectRequest
  apply meets_throwDomain
  · intro origin hpost
    exact dispatch_meets hpost hsound
  · intro error hpost world' _ _ payload receipt hpayload _
    obtain ⟨origin, horigin⟩ := postInit_of_payload hpayload
    rw [horigin] at hpost
    cases hpost

variable (sha256 call) in
/-- Every call, wherever it is stopped. -/
theorem dispatches_verified : (dispatches sha256).Verified DispatchRely (fun _ _ _ _ => True)
    DispatchWorld.Sound (DispatchCommits sha256) (DispatchRaises sha256) call := by
  intro world hsound
  refine (dispatches sha256).wp_interruptible ?_ (dispatchProjectRequest_meets hsound)
  intro n error hfault held s d d' _ _ payload receipt _ _
  obtain ⟨reason, -, rfl⟩ := Option.map_eq_some_iff.mp hfault
  exact .inl ⟨reason, rfl⟩

end

/-! ## 7. Every interleaving -/

/-- A call with a receipt and another payload fails with a conflict, one with the same payload only when
it is stopped. -/
structure RefusesReuse (sha256 : Sha256) (payload : DispatchPayload) (receipt : RequestDispatchReceipt)
    (error : DispatchError) : Prop where
  differs : receipt.payloadDigest ≠ payload.digest sha256 →
    error = usedDifferently ∨ ∃ reason, error = .interrupted reason
  agrees : receipt.payloadDigest = payload.digest sha256 → ∃ reason, error = .interrupted reason

section

variable (sha256 : Sha256)

/-- The step commits a dispatch that has created the rows of the key. -/
def createsFor (key : ReceiptKey) (t : (dispatches sha256).Step) : Bool :=
  match t.output with
  | .committed call value => !value.replayed && decide (call.command.receiptKey = key)
  | _ => false

/-- The dispatches that start from `world` and take the steps `inputs`. -/
def dispatchTrace (world : DispatchWorld) (inputs : List (Store.Input DispatchCall)) :
    List (dispatches sha256).Step :=
  (dispatches sha256).machine.trace ((dispatches sha256).initial world) inputs

/-- The committed state behind them. -/
def dispatchRun (world : DispatchWorld) (inputs : List (Store.Input DispatchCall)) : DispatchWorld :=
  ((dispatches sha256).machine.run ((dispatches sha256).initial world) inputs).shared

structure ExactlyOnce (world : DispatchWorld) (inputs : List (Store.Input DispatchCall)) : Prop where
  /-- every call that returns has created the rows of its key, or replays the receipt of the key -/
  returned : ∀ t ∈ dispatchTrace sha256 world inputs, ∀ call value, t.output = .committed call value →
    ∃ payload, call.command.payload = .ok payload ∧
      (value.replayed = false ∧
          Creates sha256 call.command.receiptKey payload value t.before.shared t.after.shared ∨
        value.replayed = true ∧
          Replays sha256 call.command.receiptKey payload value t.before.shared t.after.shared)
  /-- every other step, a failure among them, leaves nothing behind -/
  unchanged : ∀ t ∈ dispatchTrace sha256 world inputs,
    (∀ call value, t.output ≠ .committed call value) → t.after.shared = t.before.shared
  refused : ∀ t ∈ dispatchTrace sha256 world inputs, ∀ call error payload receipt,
    t.output = .raised call error → call.command.payload = .ok payload →
      t.before.shared.receipts.get? call.command.receiptKey = some receipt →
        RefusesReuse sha256 payload receipt error
  once : ∀ key, (dispatchTrace sha256 world inputs).countP (createsFor sha256 key) ≤ 1
  /-- all calls of a key that return name the rows of one receipt -/
  same : ∀ t ∈ dispatchTrace sha256 world inputs, ∀ call value, t.output = .committed call value →
    ∃ receipt : RequestDispatchReceipt,
      (dispatchRun sha256 world inputs).receipts.get? call.command.receiptKey = some receipt ∧
        receipt.Names value ∧
          ∀ payload, call.command.payload = .ok payload → receipt.payloadDigest = payload.digest sha256
  sound : (dispatchRun sha256 world inputs).Sound

variable {sha256} {call : DispatchCall} {value : DispatchedRequest} {held : Set DispatchLock}
  {world world' : DispatchWorld}

/-- What the others may rely on when a dispatch commits. -/
theorem DispatchCommits.rely (hsound : world.Sound)
    (h : DispatchCommits sha256 call value held world world') :
    world'.Sound ∧ ∀ held', Disjoint held held' → DispatchRely held' world world' := by
  obtain ⟨payload, -, ⟨-, hlock, hcreates, hkeeps, hprojects⟩ | ⟨-, -, rfl⟩⟩ := h
  · refine ⟨hkeeps hsound, fun held' hdisjoint => ⟨hkeeps, hprojects, ?_, ?_⟩⟩
    · intro key receipt hreceipt
      obtain ⟨created, hreceipts, -⟩ := hcreates.receipt
      have hne : key ≠ call.command.receiptKey := by
        rintro rfl
        rw [hcreates.first] at hreceipt
        cases hreceipt
      rw [hreceipts, Dict.get?_set_of_ne _ _ hne, hreceipt]
    · intro key hclaim hnone
      obtain ⟨created, hreceipts, -⟩ := hcreates.receipt
      have hne : key ≠ call.command.receiptKey := by
        rintro rfl
        exact Set.disjoint_left.mp hdisjoint hlock hclaim
      rw [hreceipts, Dict.get?_set_of_ne _ _ hne, hnone]
  · exact ⟨hsound, fun held' _ => .refl held' _⟩

/-- Coherent configurations of dispatches. -/
def DispatchesCoherent (sha256 : Sha256) (config : (dispatches sha256).Config) : Prop :=
  (dispatches sha256).Coherent DispatchRely (fun _ _ _ _ => True) DispatchWorld.Sound
    (DispatchCommits sha256) (DispatchRaises sha256) config

theorem DispatchesCoherent.step {config : (dispatches sha256).Config}
    (h : DispatchesCoherent sha256 config) (input : Store.Input DispatchCall) :
    DispatchesCoherent sha256 ((dispatches sha256).machine.step config input).2 ∧
      (dispatches sha256).Respects (DispatchCommits sha256) (DispatchRaises sha256)
        ((dispatches sha256).machine.fire config input) :=
  Store.Coherent.step DispatchRely.refl (fun _ _ _ _ => DispatchRely.trans)
    (fun hsound hcommits => hcommits.rely hsound) (dispatches_verified sha256) h input
    fun _ _ _ _ _ _ _ _ => trivial

theorem dispatchesCoherent_initial (hsound : world.Sound) :
    DispatchesCoherent sha256 ((dispatches sha256).initial world) :=
  (dispatches sha256).coherent_initial _ _ _ _ _ hsound

/-- Every step of a run. -/
theorem dispatchTrace_respects (hsound : world.Sound) (inputs : List (Store.Input DispatchCall)) :
    (dispatchRun sha256 world inputs).Sound ∧
      ∀ t ∈ dispatchTrace sha256 world inputs, t.before.shared.Sound ∧
        (dispatches sha256).Respects (DispatchCommits sha256) (DispatchRaises sha256) t :=
  Store.trace_spec DispatchRely.refl (fun _ _ _ _ => DispatchRely.trans)
    (fun hsound hcommits => hcommits.rely hsound) (dispatches_verified sha256)
    (dispatchesCoherent_initial hsound) fun _ _ _ _ _ _ _ _ _ _ => trivial

section

variable {t : (dispatches sha256).Step}
  (h : (dispatches sha256).Respects (DispatchCommits sha256) (DispatchRaises sha256) t)
include h

theorem shared_of_not_committed (hnone : ∀ call value, t.output ≠ .committed call value) :
    t.after.shared = t.before.shared := by
  unfold Store.Respects at h
  split at h
  · rename_i call value houtput
    exact absurd houtput (hnone call value)
  · exact h.2
  · exact h

theorem committed_of_respects {call : DispatchCall} {value : DispatchedRequest}
    (houtput : t.output = .committed call value) :
    ∃ held, DispatchCommits sha256 call value held t.before.shared t.after.shared := by
  unfold Store.Respects at h
  rw [houtput] at h
  exact h

theorem raises_of_respects {call : DispatchCall} {error : DispatchError}
    (houtput : t.output = .raised call error) : DispatchRaises sha256 call error t.before.shared := by
  unfold Store.Respects at h
  rw [houtput] at h
  exact h.1

/-- Whatever a call returns, its receipt names it. -/
theorem named_of_committed {call : DispatchCall} {value : DispatchedRequest}
    (houtput : t.output = .committed call value) :
    ∃ receipt : RequestDispatchReceipt,
      t.after.shared.receipts.get? call.command.receiptKey = some receipt ∧ receipt.Names value ∧
        ∀ payload, call.command.payload = .ok payload → receipt.payloadDigest = payload.digest sha256 := by
  obtain ⟨held, payload, hpayload, hcases⟩ := committed_of_respects h houtput
  have hdigest : ∀ {receipt : RequestDispatchReceipt},
      receipt.payloadDigest = payload.digest sha256 → ∀ payload', call.command.payload = .ok payload' →
        receipt.payloadDigest = payload'.digest sha256 := by
    intro receipt hdigest payload' hpayload'
    obtain rfl := Except.ok.inj (hpayload.symm.trans hpayload')
    exact hdigest
  rcases hcases with ⟨-, -, hcreates, -⟩ | ⟨-, hreplays⟩
  · obtain ⟨receipt, hreceipts, hnames, hstored⟩ := hcreates.receipt
    refine ⟨receipt, ?_, hnames, hdigest hstored⟩
    rw [hreceipts, Dict.get?_set_self]
  · obtain ⟨receipt, hreceipt, hnames, hstored⟩ := hreplays.receipt
    rw [hreplays.unchanged]
    exact ⟨receipt, hreceipt, hnames, hdigest hstored⟩

/-- No step replaces a receipt. -/
theorem receipt_kept {key : ReceiptKey} {receipt : RequestDispatchReceipt}
    (hsound : t.before.shared.Sound) (hreceipt : t.before.shared.receipts.get? key = some receipt) :
    t.after.shared.receipts.get? key = some receipt := by
  by_cases hcommitted : ∃ call value, t.output = .committed call value
  · obtain ⟨call, value, houtput⟩ := hcommitted
    obtain ⟨held, hcommits⟩ := committed_of_respects h houtput
    exact ((hcommits.rely hsound).2 ∅ (Set.disjoint_empty held)).receipts key receipt hreceipt
  · rw [shared_of_not_committed h fun call value houtput => hcommitted ⟨call, value, houtput⟩]
    exact hreceipt

end

/-- Whether the key is still without a receipt. -/
def vacancies (key : ReceiptKey) (config : (dispatches sha256).Config) : ℕ :=
  if (config.shared.receipts.get? key).isSome then 0 else 1

/-- A dispatch that creates the rows of a key fills its place. -/
theorem vacancies_step {config : (dispatches sha256).Config} (h : DispatchesCoherent sha256 config)
    (key : ReceiptKey) (input : Store.Input DispatchCall) :
    vacancies key ((dispatches sha256).machine.step config input).2 +
      (if createsFor sha256 key ((dispatches sha256).machine.fire config input) then 1 else 0) ≤
        vacancies key config := by
  have hrespects := (h.step input).2
  set t := (dispatches sha256).machine.fire config input with ht
  show vacancies key t.after + _ ≤ vacancies key t.before
  by_cases hcommitted : ∃ call value, t.output = .committed call value
  · obtain ⟨call, value, houtput⟩ := hcommitted
    have hcreatesFor : createsFor sha256 key t =
        (!value.replayed && decide (call.command.receiptKey = key)) := by
      unfold createsFor
      rw [houtput]
    obtain ⟨held, payload, -, ⟨hreplayed, -, hcreates, -⟩ | ⟨hreplayed, hreplays⟩⟩ :=
      committed_of_respects hrespects houtput
    · obtain ⟨receipt, hreceipts, -⟩ := hcreates.receipt
      by_cases hkey : call.command.receiptKey = key
      · subst hkey
        simp [vacancies, hcreatesFor, hreplayed, hreceipts, hcreates.first]
      · simp [vacancies, hcreatesFor, hkey, hreceipts, Dict.get?_set_of_ne _ _ (Ne.symm hkey)]
    · simp [vacancies, hcreatesFor, hreplayed, hreplays.unchanged]
  · have hsame := shared_of_not_committed hrespects fun call value houtput =>
      hcommitted ⟨call, value, houtput⟩
    have hnone : createsFor sha256 key t = false := by
      unfold createsFor
      split
      · rename_i call value houtput
        exact absurd ⟨call, value, houtput⟩ hcommitted
      · rfl
    simp [vacancies, hnone, hsame]

/-- Dispatches of any keys, interleaved in any way. -/
theorem exactlyOnce (hsound : world.Sound) (inputs : List (Store.Input DispatchCall)) :
    ExactlyOnce sha256 world inputs := by
  obtain ⟨hrun, htrace⟩ := dispatchTrace_respects hsound inputs
  refine ⟨?_, fun t ht => shared_of_not_committed (htrace t ht).2, ?_, ?_, ?_, hrun⟩
  · intro t ht call value houtput
    obtain ⟨held, payload, hpayload, ⟨hreplayed, -, hcreates, -⟩ | ⟨hreplayed, hreplays⟩⟩ :=
      committed_of_respects (htrace t ht).2 houtput
    · exact ⟨payload, hpayload, .inl ⟨hreplayed, hcreates⟩⟩
    · exact ⟨payload, hpayload, .inr ⟨hreplayed, hreplays⟩⟩
  · intro t ht call error payload receipt houtput hpayload hreceipt
    rcases raises_of_respects (htrace t ht).2 houtput payload receipt hpayload hreceipt with
      hstopped | ⟨hdiffers, hconflict⟩
    · exact ⟨fun _ => .inr hstopped, fun _ => hstopped⟩
    · exact ⟨fun _ => .inl hconflict, fun hagrees => absurd hagrees hdiffers⟩
  · intro key
    have hcount := (dispatches sha256).machine.countP_trace_le (I := DispatchesCoherent sha256)
      (createsFor sha256 key) (vacancies key) (fun config input h => (h.step input).1)
      (fun config input h => vacancies_step h key input) (dispatchesCoherent_initial hsound) inputs
    have hstart : vacancies key ((dispatches sha256).initial world) ≤ 1 := by
      unfold vacancies
      split <;> omega
    exact (Nat.le_add_right _ _).trans (hcount.trans hstart)
  · intro t ht call value houtput
    obtain ⟨receipt, hreceipt, hnames, hdigest⟩ := named_of_committed (htrace t ht).2 houtput
    have hkept := (dispatches sha256).machine.trace_kept
      (Q := fun config => config.shared.receipts.get? call.command.receiptKey = some receipt) ht hreceipt
      fun t' ht' => receipt_kept (htrace t' ht').2 (htrace t' ht').1
    exact ⟨receipt, hkept, hnames, hdigest⟩

end

/-- A request whose actor is `actor`. -/
def requestOf (actor : String) : DispatchProjectRequest where
  projectId := 1
  prompt := "Fix the build"
  idempotencyKey := "message-42"
  origin := { ingressKey := "chat", externalRequestId := "42", actorId := some actor }

end JbOrchestrator.Application
