import JbOrchestrator.Application.Fencing
import JbOrchestrator.Application.Pinning

/-!
# Artifacts — what tasks hand on

A completion records the artifact of the visit that it ends, after the output contract of the phase
pack; a claim resolves the inputs of its node from the recorded artifacts.  Both hold the row lock of
the execution, under which no other session changes its artifacts.
-/

open Lib

namespace JbOrchestrator.Application

open Domain Workflows Infrastructure Infrastructure.Database

/-! ## 1. Recorded artifacts -/

/-- What holds of an artifact of an execution with this snapshot. -/
structure Recorded (settings : Settings) (snapshot : WorkflowSnapshot) (artifact : TaskArtifact) :
    Prop where
  visit : 1 ≤ artifact.visitCount
  outcome : artifact.outcome = .success ∨ artifact.outcome = .failure
  contract : ∃ definition, snapshot.node artifact.producerNodeKey = some definition ∧
    (artifact.outcome = .success → ∀ reference, definition.phasePack = some reference →
      ∃ phasePack, snapshot.phasePack reference = some phasePack ∧
        (phasePack.outputContract = [] ∨
          settings.validateOutput phasePack.outputContract artifact.content = []))

theorem enforceOutputContract_success {validateOutput : OutputValidator}
    {phasePack : PhasePackDefinition} {outcome : NodeOutcome} {output : JsonObject}
    {decision : OutputContractDecision}
    (hdecision : enforceOutputContract validateOutput (some phasePack) outcome output = decision)
    (h : decision.outcome = .success) :
    phasePack.outputContract = [] ∨
      validateOutput phasePack.outputContract decision.output = [] := by
  subst hdecision
  unfold enforceOutputContract at h ⊢
  dsimp only at h ⊢
  split at h
  · rename_i hskip
    rw [if_pos hskip]
    rcases hskip with hne | hempty
    · exact absurd h hne
    · exact .inl (List.isEmpty_iff.mp hempty)
  · rename_i hchecked
    rw [if_neg hchecked]
    cases hviolations : validateOutput phasePack.outputContract output with
    | nil => exact .inr hviolations
    | cons violation violations =>
      rw [hviolations] at h
      cases h

theorem TaskArtifact.create_ok {id executionId : UUID} {producerNodeKey : NodeKey} {visitCount : ℕ}
    {outcome : NodeOutcome} {content : JsonObject} {createdAt : Instant} {artifact : TaskArtifact}
    (h : TaskArtifact.create id executionId producerNodeKey visitCount outcome content createdAt =
      .ok artifact) :
    artifact = ⟨id, executionId, producerNodeKey, visitCount, outcome, content, createdAt⟩ ∧
      1 ≤ visitCount ∧ (outcome = .success ∨ outcome = .failure) := by
  unfold TaskArtifact.create at h
  split at h
  · cases h
  split at h
  · cases h
  rename_i hvisit
  split at h
  · cases h
  rename_i houtcome
  obtain rfl := Except.ok.inj h
  refine ⟨rfl, by omega, ?_⟩
  by_contra hneither
  exact houtcome (not_or.mp hneither)

/-- The phase pack of a node is the one that the snapshot has. -/
theorem nodePhasePack_cases (snapshot : WorkflowSnapshot) (definition : NodeDefinition) :
    nodePhasePack snapshot definition = .raise stopIteration ∨
      ∃ phasePack, nodePhasePack snapshot definition = pure phasePack ∧
        ∀ reference, definition.phasePack = some reference →
          snapshot.phasePack reference = phasePack ∧ phasePack ≠ none := by
  unfold nodePhasePack
  cases hreference : definition.phasePack with
  | none => exact .inr ⟨none, rfl, nofun⟩
  | some reference =>
    dsimp only
    cases hpack : snapshot.phasePack reference with
    | none => exact .inl rfl
    | some phasePack =>
      refine .inr ⟨some phasePack, rfl, ?_⟩
      rintro other ⟨⟩
      exact ⟨hpack, nofun⟩

/-- The artifact of a decision keeps the contract. -/
theorem recorded_of_create {settings : Settings} {snapshot : WorkflowSnapshot}
    {definition : NodeDefinition} {phasePack : Option PhasePackDefinition} {reported : NodeOutcome}
    {output : JsonObject} {id executionId : UUID} {nodeKey : NodeKey} {visitCount : ℕ}
    {createdAt : Instant} {artifact : TaskArtifact} {decision : OutputContractDecision}
    (hnode : snapshot.node nodeKey = some definition)
    (hpack : ∀ reference, definition.phasePack = some reference →
      snapshot.phasePack reference = phasePack ∧ phasePack ≠ none)
    (hdecision : enforceOutputContract settings.validateOutput phasePack reported output = decision)
    (h : TaskArtifact.create id executionId nodeKey visitCount decision.outcome decision.output
      createdAt = .ok artifact) :
    artifact.executionId = executionId ∧ Recorded settings snapshot artifact := by
  obtain ⟨rfl, hvisit, houtcome⟩ := TaskArtifact.create_ok h
  refine ⟨rfl, hvisit, houtcome, definition, hnode, ?_⟩
  intro hsuccess reference hreference
  obtain ⟨hfound, hsome⟩ := hpack reference hreference
  cases phasePack with
  | none => exact absurd rfl hsome
  | some phasePack => exact ⟨phasePack, hfound, enforceOutputContract_success hdecision hsuccess⟩

/-! ## 2. Artifacts of a unit of work -/

def Write.artifact? : Write → Option TaskArtifact
  | .insertArtifact artifact => some artifact
  | _ => none

/-- The artifacts that a unit of work will insert. -/
def inserted (unitOfWork : UnitOfWork) : List TaskArtifact :=
  unitOfWork.writes.filterMap Write.artifact?

theorem apply_artifacts {write : Write} {db db' : Database} (h : write.apply db = .ok db') :
    db'.artifacts = db.artifacts ++ (Write.artifact? write).toList := by
  cases write with
  | insertArtifact artifact =>
    simp only [Write.apply] at h
    split at h
    · cases h
    · obtain rfl := Except.ok.inj h
      rfl
  | _ =>
    simp only [Write.apply] at h
    repeat' split at h
    all_goals cases h
    all_goals exact (List.append_nil _).symm

theorem foldlM_artifacts {writes : List Write} {db db' : Database}
    (h : writes.foldlM Write.apply db = .ok db') :
    db'.artifacts = db.artifacts ++ writes.filterMap Write.artifact? := by
  induction writes generalizing db with
  | nil =>
    obtain rfl := Except.ok.inj h
    exact (List.append_nil _).symm
  | cons write writes ih =>
    obtain ⟨middle, hwrite, hwrites⟩ := foldlM_cons_ok h
    rw [ih hwrites, apply_artifacts hwrite, List.append_assoc, List.filterMap_cons]
    cases Write.artifact? write <;> rfl

theorem flush_artifacts {unitOfWork : UnitOfWork} {db db' : Database}
    (h : unitOfWork.flush db = .ok db') : db'.artifacts = db.artifacts ++ inserted unitOfWork := by
  obtain ⟨middle, hwrites, rfl⟩ := flush_ok h
  have hartifacts := foldlM_artifacts hwrites
  exact hartifacts

/-- The statements that add no artifact. -/
def addsNone : Statement → Prop
  | .addArtifact _ => False
  | _ => True

theorem inserted_answer {db : Database} {taken : RowLock → Bool} {unitOfWork : UnitOfWork}
    {statement : Statement} (h : addsNone statement) :
    inserted (statement.answer db taken unitOfWork).2 = inserted unitOfWork := by
  cases statement with
  | addArtifact => cases h
  | _ =>
    unfold inserted
    simp only [Statement.answer]
    repeat' split
    all_goals first
      | rfl
      | simp [Write.artifact?]

theorem projectRun_addsNone (execution : WorkflowExecution) (run : Run) :
    (projectRun execution run).Within addsNone fun _ => True := by
  unfold projectRun
  split
  · trivial
  · refine Program.within_bind (Program.within_ofExcept fun _ _ => trivial) fun changed => ?_
    exact Program.within_bind (Program.within_perform trivial) fun _ => Program.within_perform trivial

theorem projectRequest_addsNone (execution : WorkflowExecution) (run : Run) (request : UserRequest) :
    (projectRequest execution run request).Within addsNone fun _ => True := by
  have hchange : ∀ (x : Except DomainError UserRequest) (event : DomainEvent),
      (throwDomain x >>= fun changed => perform (.saveRequest changed) >>= fun _ =>
        perform (.append event) : Transaction Unit).Within addsNone fun _ => True := by
    intro x event
    refine Program.within_bind (Program.within_ofExcept fun _ _ => trivial) fun changed => ?_
    exact Program.within_bind (Program.within_perform trivial) fun _ => Program.within_perform trivial
  unfold projectRequest
  split
  · exact hchange _ _
  · split
    · exact hchange _ _
    · trivial

theorem synchronize_addsNone (execution : WorkflowExecution) :
    (synchronizeExecutionLifecycle execution).Within addsNone fun _ => True := by
  unfold synchronizeExecutionLifecycle
  split
  · trivial
  · refine Program.within_bind (Program.within_perform trivial) fun row => ?_
    refine Program.within_bind (Program.within_ofOption trivial) fun run => ?_
    refine Program.within_bind (Program.within_perform trivial) fun row => ?_
    refine Program.within_bind (Program.within_ofOption trivial) fun request => ?_
    exact Program.within_bind (projectRun_addsNone _ _) fun _ => projectRequest_addsNone _ _ _

/-! ## 3. Inputs of a claim -/

/-- No later visit of its node has left an artifact. -/
def Newest (db : Database) (artifact : TaskArtifact) : Prop :=
  artifact ∈ db.artifacts ∧ ∀ other ∈ db.artifacts, other.executionId = artifact.executionId →
    other.producerNodeKey = artifact.producerNodeKey → other.visitCount ≤ artifact.visitCount

theorem mem_latestArtifacts {db : Database} {executionId : UUID} {nodeKeys : List NodeKey}
    {artifact : TaskArtifact} : artifact ∈ db.latestArtifacts executionId nodeKeys ↔
      Newest db artifact ∧ artifact.executionId = executionId ∧
        artifact.producerNodeKey ∈ nodeKeys := by
  unfold Database.latestArtifacts Newest
  rw [List.mem_insertionSort, List.mem_filter, decide_eq_true_eq]
  constructor
  · rintro ⟨hmem, rfl, hkey, hnewest⟩
    exact ⟨⟨hmem, hnewest⟩, rfl, hkey⟩
  · rintro ⟨⟨hmem, hnewest⟩, rfl, hkey⟩
    exact ⟨hmem, rfl, hkey, hnewest⟩

/-- The inputs of a node: what the artifacts are and where each named input comes from. -/
structure Resolved (db : Database) (snapshot : WorkflowSnapshot) (executionId : UUID)
    (nodeKey : NodeKey) (inputs : List TaskArtifact × List TaskArtifactInput) : Prop where
  newest : ∀ artifact ∈ inputs.1, artifact.executionId = executionId ∧ Newest db artifact
  named : ∀ input ∈ inputs.2, input.artifact ∈ inputs.1 ∧
    ∃ definition, snapshot.node nodeKey = some definition ∧
      ∃ mapping ∈ definition.inputMappings, mapping.inputKey = input.name ∧
        mapping.sourceNode = input.artifact.producerNodeKey
  required : ∀ definition reference phasePack, snapshot.node nodeKey = some definition →
    definition.phasePack = some reference → snapshot.phasePack reference = some phasePack →
    ∀ input ∈ phasePack.inputs, input.required = true → ∃ named ∈ inputs.2, named.name = input.key

/-- A claim as its worker receives it: the execution, the node and the context that it comes from. -/
structure Supplies (db : Database) (claim : TaskClaim) (execution : WorkflowExecution)
    (definition : NodeDefinition) (envelope : TaskContextEnvelope) : Prop where
  row : db.executions.get? claim.executionId = some execution
  node : execution.snapshot.node claim.nodeKey = some definition
  context : claim.context = some envelope
  request : execution.snapshot.requestContext = some envelope.request
  phasePack : ∀ reference, definition.phasePack = some reference →
    execution.snapshot.phasePack reference = claim.phasePack ∧ claim.phasePack ≠ none
  skills : ∀ reference ∈ definition.skills ++ (claim.phasePack.map PhasePackDefinition.skills).getD [],
    ∃ skill ∈ claim.skills, execution.snapshot.skill reference = some skill
  inputs : Resolved db execution.snapshot claim.executionId claim.nodeKey
    (envelope.upstreamArtifacts, envelope.namedInputs)

/-! ## 4. Under the lock of an execution -/

/-- The artifacts of a locked execution stay as they are. -/
def SameArtifacts (held : Set RowLock) (db db' : Database) : Prop :=
  ∀ artifact : TaskArtifact, .execution artifact.executionId ∈ held →
    (artifact ∈ db'.artifacts ↔ artifact ∈ db.artifacts)

def ledgered : Discipline ⟨False, False⟩ where
  rely held world world' := Rely held world.database world'.database ∧
    SameArtifacts held world.database world'.database
  guard _ _ _ _ := True
  refl held world := ⟨Rely.refl held world.database, fun _ _ => Iff.rfl⟩
  trans _ _ _ _ h h' := ⟨h.1.trans h'.1, fun artifact hheld =>
    (h'.2 artifact hheld).trans (h.2 artifact hheld)⟩
  mono hsubset h := ⟨h.1.mono hsubset, fun artifact hheld => h.2 artifact (hsubset hheld)⟩
  rows h := h.1
  fresh h := h.elim
  settled h := h.elim

section

variable {settings : Settings} {held held' : Set RowLock} {unitOfWork : UnitOfWork}
  {world world' : World}

theorem Newest.rely {artifact : TaskArtifact} (h : Newest world.database artifact)
    (hheld : .execution artifact.executionId ∈ held) (hrely : ledgered.rely held world world') :
    Newest world'.database artifact := by
  refine ⟨(hrely.2 artifact hheld).mpr h.1, fun other hother hexecution hkey => ?_⟩
  have hmem := (hrely.2 other (hexecution ▸ hheld)).mp hother
  exact h.2 other hmem hexecution hkey

theorem Resolved.rely {snapshot : WorkflowSnapshot} {executionId : UUID} {nodeKey : NodeKey}
    {inputs : List TaskArtifact × List TaskArtifactInput}
    (h : Resolved world.database snapshot executionId nodeKey inputs)
    (hheld : .execution executionId ∈ held) (hrely : ledgered.rely held world world') :
    Resolved world'.database snapshot executionId nodeKey inputs where
  newest artifact hmem := by
    obtain ⟨hid, hnewest⟩ := h.newest artifact hmem
    exact ⟨hid, hnewest.rely (hid ▸ hheld) hrely⟩
  named := h.named
  required := h.required

/-- The pending artifacts are recorded ones of executions that the session has locked. -/
def Recording (settings : Settings) (held : Set RowLock) (unitOfWork : UnitOfWork) (world : World) :
    Prop :=
  ∀ artifact ∈ inserted unitOfWork, .execution artifact.executionId ∈ held ∧
    ∃ stored, world.database.executions.get? artifact.executionId = some stored ∧
      Recorded settings stored.snapshot artifact

theorem Recording.rely (h : Recording settings held unitOfWork world)
    (hrely : ledgered.rely held world world') : Recording settings held unitOfWork world' := by
  intro artifact hmem
  obtain ⟨hheld, stored, hrow, hrecorded⟩ := h artifact hmem
  exact ⟨hheld, stored, hrely.1.executions _ _ hheld hrow, hrecorded⟩

/-- The claim of a session that has locked its execution. -/
def Handing (held : Set RowLock) (result : Result) (world : World) : Prop :=
  ∀ claim, result = .claim (some claim) → .execution claim.executionId ∈ held ∧
    ∃ execution definition envelope, Supplies world.database claim execution definition envelope

theorem Handing.rely {result : Result} (h : Handing held result world)
    (hrely : ledgered.rely held world world') : Handing held result world' := by
  intro claim hresult
  obtain ⟨hheld, execution, definition, envelope, hsupplies⟩ := h claim hresult
  refine ⟨hheld, execution, definition, envelope, ?_⟩
  exact { hsupplies with
    row := hrely.1.executions _ _ hheld hsupplies.row
    inputs := hsupplies.inputs.rely hheld hrely }

end

/-! ## 5. Completions -/

section

variable {settings : Settings} {call : Call} {held : Set RowLock} {unitOfWork : UnitOfWork}
  {world : World} {β : Type}

/-- The precondition of a part of a call, whatever it raises. -/
def wpAny (settings : Settings) (call : Call) (P : Set RowLock → UnitOfWork → β → World → Prop)
    (p : Transaction β) (held : Set RowLock) (unitOfWork : UnitOfWork) (world : World) : Prop :=
  ledgered.wp settings call (fun _ _ _ _ => True) P p held unitOfWork world

theorem wpAny_of_fails {P : Set RowLock → UnitOfWork → β → World → Prop} {p : Transaction β}
    (h : ledgered.wp settings call (ledgered.fails call) P p held unitOfWork world) :
    wpAny settings call P p held unitOfWork world :=
  (services settings).wp_mono (fun _ _ _ _ _ => trivial) (fun _ _ _ _ h => h) h

/-- The statements behind the artifact. -/
theorem wp_recording {p : Transaction β} (hp : p.Within addsNone fun _ => True)
    (h : Recording settings held unitOfWork world) :
    wpAny settings call (fun held unitOfWork _ world => Recording settings held unitOfWork world) p
      held unitOfWork world := by
  refine (services settings).wp_keeps hp (fun _ _ _ _ hrely hbefore => hbefore.rely hrely) ?_ h
  intro held world taken unitOfWork statement reply after acquired hnone hexec hbefore artifact hmem
  obtain ⟨-, rfl, -⟩ := Statement.exec_eq_some hexec
  rw [inserted_answer hnone] at hmem
  obtain ⟨hheld, hrecorded⟩ := hbefore artifact hmem
  exact ⟨.inl hheld, hrecorded⟩

/-- From the phase pack of a node to the artifact of its completion. -/
theorem wp_record {stored : WorkflowExecution} {definition : NodeDefinition} {nodeKey : NodeKey}
    (operation : OutputContractDecision → Operation) {reported : NodeOutcome} {output : JsonObject}
    {artifactId : UUID} {visitCount : ℕ} {now : Instant}
    (rest : OutputContractDecision → WorkflowExecution → TaskArtifact → Transaction β)
    (hrest : ∀ decision after artifact, (rest decision after artifact).Within addsNone fun _ => True)
    (hworld : world.Consistent) (hopened : Opened held unitOfWork world stored stored)
    (hwrites : unitOfWork.writes = []) (hnode : stored.snapshot.node nodeKey = some definition) :
    wpAny settings call (fun held unitOfWork _ world => Recording settings held unitOfWork world)
      (nodePhasePack stored.snapshot definition >>= fun phasePack =>
        let decision := enforceOutputContract settings.validateOutput phasePack reported output
        applyOperation stored (operation decision) >>= fun after =>
          throwDomain (TaskArtifact.create artifactId after.id nodeKey visitCount decision.outcome
            decision.output now) >>= fun artifact =>
              perform (.addArtifact artifact) >>= fun _ => rest decision after artifact)
      held unitOfWork world := by
  rcases nodePhasePack_cases stored.snapshot definition with hraise | ⟨phasePack, hpack, hresolved⟩
  · rw [hraise]
    exact trivial
  rw [hpack]
  refine Discipline.wp_bind (Discipline.wp_pure ?_)
  refine Discipline.wp_bind (Discipline.wp_applyOperation (fun calls after hstep => ?_)
    fun _ => trivial)
  have hstored := hworld.stored _ _ hopened.row
  have hid := (effect_of_step hstored.sound hstored.active hstep).sameShape.id
  refine Discipline.wp_bind (Discipline.wp_throwDomain (fun artifact hartifact => ?_)
    fun _ _ => trivial)
  obtain ⟨hexecution, hrecorded⟩ := recorded_of_create hnode hresolved rfl hartifact
  refine Discipline.wp_bind (Discipline.wp_unlocked (fun _ _ => rfl) fun world₁ hrely _ => ?_)
  refine wp_recording (hrest _ _ _) fun pending hpending => ?_
  obtain rfl : pending = artifact := by
    simpa [inserted, Statement.answer, hwrites, Write.artifact?] using hpending
  rw [hexecution, hid]
  exact ⟨hopened.held, stored, hrely.1.executions _ _ hopened.held hopened.row, hrecorded⟩

/-- The statements behind the artifact of both completions. -/
theorem conclusion_addsNone (event : DomainEvent) (after : WorkflowExecution) :
    (perform (.saveExecution after) >>= fun _ => perform (.append event) >>= fun _ =>
      synchronizeExecutionLifecycle after >>= fun _ => pure after : Transaction _).Within addsNone
        fun _ => True := by
  refine Program.within_bind (Program.within_perform trivial) fun _ => ?_
  refine Program.within_bind (Program.within_perform trivial) fun _ => ?_
  exact Program.within_bind (synchronize_addsNone after) fun _ => trivial

theorem completeTask_recording (executionId : UUID) (nodeKey : NodeKey) (outcome : NodeOutcome)
    (output : Option JsonObject) (artifactId : UUID) (now : Instant) (hworld : world.Consistent) :
    wpAny settings call (fun held unitOfWork _ world => Recording settings held unitOfWork world)
      (WorkflowService.completeTask settings executionId nodeKey outcome output artifactId now) ∅ {}
      world := by
  refine Discipline.wp_bind (wp_getExecution hworld (fun _ _ _ _ _ => trivial) ?_)
  rintro held unitOfWork world₁ stored hworld₁ rfl hopened hwrites -
  refine Discipline.wp_bind (Discipline.wp_ofOption (fun node _ => ?_) fun _ => trivial)
  refine Discipline.wp_bind (Discipline.wp_ofOption (fun definition hnode => ?_) fun _ => trivial)
  exact wp_record (fun decision => .completeTask nodeKey decision.outcome
      (if decision.rejected then some decision.output else output) none now)
    (fun decision after artifact => perform (.saveExecution after) >>= fun _ =>
      perform (.append (.workflowNodeCompleted after.id after.status nodeKey decision.outcome
        artifact.id decision.rejected)) >>= fun _ =>
          synchronizeExecutionLifecycle after >>= fun _ => pure after)
    (fun _ after _ => conclusion_addsNone _ after) hworld₁ hopened hwrites hnode

theorem complete_recording (claim : TaskClaim) (result : TaskResult) (artifactId : UUID)
    (changedAt : Instant) (hworld : world.Consistent) :
    wpAny settings call (fun held unitOfWork _ world => Recording settings held unitOfWork world)
      (TaskDispatchService.complete settings claim result artifactId changedAt) ∅ {} world := by
  refine Discipline.wp_bind (wp_getExecution hworld (fun _ _ _ _ _ => trivial) ?_)
  intro held unitOfWork world₁ stored hworld₁ _ hopened hwrites _
  refine Discipline.wp_bind (Discipline.wp_ofOption (fun definition hnode => ?_) fun _ => trivial)
  exact wp_record (fun decision => .completeTask claim.nodeKey decision.outcome
      (some decision.output) (some claim.leaseToken) changedAt)
    (fun decision after artifact => perform (.saveExecution after) >>= fun _ =>
      perform (.append (.taskCompleted after.id after.status claim.nodeKey claim.workerId
        decision.outcome artifact.id decision.rejected)) >>= fun _ =>
          synchronizeExecutionLifecycle after >>= fun _ => pure after)
    (fun _ after _ => conclusion_addsNone _ after) hworld₁ hopened hwrites hnode

end

/-! ## 6. Claims -/

section

variable {settings : Settings} {call : Call} {held : Set RowLock} {unitOfWork : UnitOfWork}
  {world : World} {β : Type}

/-- A loop over options is one option. -/
theorem forEach_ofOption {α δ : Type} (error : ServiceError) (g : δ → Option α) (xs : List δ) :
    (Program.forEach (fun x => Program.ofOption error (g x)) xs : Transaction (List α)) =
        .raise error ∨
      ∃ values, (Program.forEach (fun x => Program.ofOption error (g x)) xs : Transaction (List α)) =
          pure values ∧ List.Forall₂ (fun x value => g x = some value) xs values := by
  induction xs with
  | nil => exact .inr ⟨[], rfl, List.Forall₂.nil⟩
  | cons x xs ih =>
    unfold Program.forEach
    cases hx : g x with
    | none => exact .inl rfl
    | some value =>
      rcases ih with hraise | ⟨values, hvalues, hall⟩
      · refine .inl ?_
        show (Program.forEach _ xs >>= fun values => _) = _
        rw [hraise]
        rfl
      · refine .inr ⟨value :: values, ?_, List.Forall₂.cons hx hall⟩
        show (Program.forEach _ xs >>= fun values => _) = _
        rw [hvalues]
        rfl

theorem wp_resolveArtifactInputs {execution : WorkflowExecution} {nodeKey : NodeKey}
    {P : Set RowLock → UnitOfWork → List TaskArtifact × List TaskArtifactInput → World → Prop}
    (hP : ∀ inputs world', ledgered.rely held world world' →
      Resolved world'.database execution.snapshot execution.id nodeKey inputs → P held unitOfWork inputs world') :
    wpAny settings call P (TaskDispatchService.resolveArtifactInputs execution nodeKey) held unitOfWork
      world := by
  unfold TaskDispatchService.resolveArtifactInputs
  refine Discipline.wp_bind (Discipline.wp_ofOption (fun definition hnode => ?_) fun _ => trivial)
  cases hreference : definition.phasePack with
  | none =>
    refine Discipline.wp_bind (Discipline.wp_unlocked (fun _ _ => rfl) fun world' hrely _ => ?_)
    refine Discipline.wp_pure (hP _ world' hrely ⟨?_, nofun, ?_⟩)
    · intro artifact hmem
      obtain ⟨hnewest, hid, -⟩ := mem_latestArtifacts.mp hmem
      exact ⟨hid, hnewest⟩
    · intro other reference phasePack hother hpacked
      obtain rfl := Option.some.inj (hnode.symm.trans hother)
      rw [hreference] at hpacked
      cases hpacked
  | some reference =>
    refine Discipline.wp_bind (Discipline.wp_ofOption (fun phasePack hpack => ?_) fun _ => trivial)
    refine Discipline.wp_bind (Discipline.wp_unlocked (fun _ _ => rfl) fun world' hrely _ => ?_)
    dsimp only
    split
    · exact trivial
    rename_i hmissing
    refine Discipline.wp_pure (hP _ world' hrely ⟨?_, ?_, ?_⟩)
    · intro artifact hmem
      obtain ⟨hnewest, hid, -⟩ := mem_latestArtifacts.mp hmem
      exact ⟨hid, hnewest⟩
    · intro input hmem
      obtain ⟨mapping, hmapping, hfound⟩ := List.mem_filterMap.mp hmem
      obtain ⟨artifact, hartifact, rfl⟩ := Option.map_eq_some_iff.mp hfound
      refine ⟨List.mem_of_find?_eq_some hartifact, definition, hnode, mapping, hmapping, rfl, ?_⟩
      exact (by simpa using List.find?_some hartifact : artifact.producerNodeKey = _).symm
    · intro other otherReference otherPack hother hpacked hotherPack input hinput hrequired
      obtain rfl := Option.some.inj (hnode.symm.trans hother)
      obtain rfl := Option.some.inj (hreference.symm.trans hpacked)
      obtain rfl := Option.some.inj (hpack.symm.trans hotherPack)
      by_contra hnone
      refine hmissing (List.ne_nil_of_mem (a := input.key) ?_)
      rw [List.mem_insertionSort, List.mem_filter, List.mem_dedup, decide_eq_true_eq]
      refine ⟨List.mem_map_of_mem (List.mem_filter.mpr ⟨hinput, hrequired⟩), fun hkey => hnone ?_⟩
      exact List.mem_map.mp hkey

/-- The claim on a candidate whose execution is locked. -/
theorem claimCandidate_handing {workerId : String} {token : UUID} {changedAt : Instant} {key : NodeKey}
    {stored loaded : WorkflowExecution} (hworld : world.Consistent)
    (hopened : Opened held unitOfWork world stored loaded)
    (hloads : ∀ operation, candidateKey operation = some key →
      Loads ⟨False, False⟩ stored operation loaded) (hwrites : unitOfWork.writes = []) :
    wpAny settings call (fun held unitOfWork claim world => inserted unitOfWork = [] ∧
        Handing held (.claim (some claim)) world)
      (TaskDispatchService.claimCandidate settings ⟨loaded, key⟩ workerId token changedAt) held
      unitOfWork world := by
  refine Discipline.wp_bind (Discipline.wp_ofOption (fun definition hnode => ?_) fun _ => trivial)
  rcases nodePhasePack_cases loaded.snapshot definition with hraise | ⟨phasePack, hpack, hresolved⟩
  · rw [hraise]
    exact trivial
  rw [hpack]
  refine Discipline.wp_bind (Discipline.wp_pure ?_)
  refine Discipline.wp_bind (wp_resolveArtifactInputs fun inputs world₁ hrely₁ hinputs => ?_)
  have hclaims := hloads (.claimTask key workerId
    (TaskDispatchService.leaseSeconds settings definition) token changedAt) rfl
  refine Discipline.wp_bind (Discipline.wp_applyOperation (fun calls after hstep => ?_)
    fun _ => trivial)
  have hloaded := hclaims.isStored (hworld.stored _ _ hopened.row)
  have hshape := (effect_of_step hloaded.sound hloaded.active hstep).sameShape
  have hsame := hclaims.sameShape (hworld.stored _ _ hopened.row).sound
  refine Discipline.wp_bind (Discipline.wp_ofOption (fun node hclaimed => ?_) fun _ => trivial)
  have hkey := (hshape.sound hloaded.sound).nodeKey key node hclaimed
  refine Discipline.wp_bind (Discipline.wp_ofOption (fun leaseToken _ => ?_) fun _ => trivial)
  rcases forEach_ofOption stopIteration
      (fun reference : String × ℕ => after.snapshot.skill ⟨reference.1, reference.2⟩)
      (sortReferences ((definition.skills ++
        (phasePack.map PhasePackDefinition.skills).getD []).map fun reference =>
          (reference.key, reference.version))) with hraise | ⟨skills, hskills, hall⟩
  · rw [hraise]
    exact trivial
  rw [hskills]
  refine Discipline.wp_bind (Discipline.wp_pure ?_)
  refine Discipline.wp_bind (Discipline.wp_unlocked (fun _ _ => rfl) fun world₂ hrely₂ taken₂ => ?_)
  refine Discipline.wp_bind (Discipline.wp_unlocked (fun _ _ => rfl) fun world₃ hrely₃ _ => ?_)
  have hrely := ledgered.trans _ _ _ _ hrely₂ hrely₃
  have hrow := (ledgered.rows (ledgered.trans _ _ _ _ hrely₁ hrely)).executions _ _ hopened.held
    hopened.row
  have hempty : inserted unitOfWork = [] := by rw [inserted, hwrites]; rfl
  refine Discipline.wp_pure ⟨?_, ?_⟩
  · have hsaved := @inserted_answer world₂.database taken₂ unitOfWork (.saveExecution after) trivial
    exact hsaved.trans hempty
  rintro claim ⟨⟩
  have hid : after.id = stored.id := hshape.id.trans hsame.id
  have hsnapshot : after.snapshot = stored.snapshot := hshape.snapshot.trans hsame.snapshot
  obtain ⟨request, hrequest⟩ :=
    Option.ne_none_iff_exists'.mp (hworld.stored _ _ hopened.row).context
  have hlock : .execution after.id ∈ held := by
    rw [hid]
    exact hopened.held
  refine ⟨hlock, stored, definition, ⟨request, inputs.1, inputs.2⟩, ?_⟩
  constructor
  · show world₃.database.executions.get? after.id = some stored
    rw [hid]
    exact hrow
  · show stored.snapshot.node node.nodeKey = some definition
    rw [hkey, ← hsame.snapshot]
    exact hnode
  · show (after.snapshot.requestContext.map _) = _
    rw [hsnapshot, hrequest]
    rfl
  · exact hrequest
  · rw [← hsame.snapshot]
    exact hresolved
  · intro reference hmem
    obtain ⟨skill, hskill, hfound⟩ := exists_of_forall₂ hall
      (x := (reference.key, reference.version))
      (mem_sortReferences.mpr (List.mem_map.mpr ⟨reference, hmem, rfl⟩))
    rw [hsnapshot] at hfound
    exact ⟨skill, hskill, hfound⟩
  · show Resolved world₃.database stored.snapshot after.id node.nodeKey inputs
    rw [hkey, hid, ← hsame.snapshot, ← hsame.id]
    exact hinputs.rely (hsame.id ▸ hopened.held) hrely

theorem claimNext_handing (workerId : String) (executorKeys : Option (List String)) (token : UUID)
    (changedAt : Instant) (hworld : world.Consistent) :
    wpAny settings call (fun held unitOfWork claim world => inserted unitOfWork = [] ∧
        Handing held (.claim claim) world)
      (TaskDispatchService.claimNext settings workerId executorKeys token changedAt) ∅ {} world := by
  have hnone : ∀ held world, wpAny settings call (fun held unitOfWork claim world =>
      inserted unitOfWork = [] ∧ Handing held (.claim claim) world) (pure none) held {} world := by
    intro held world
    refine Discipline.wp_pure ⟨rfl, fun claim hclaim => ?_⟩
    exact absurd (Result.claim.inj hclaim) nofun
  refine Discipline.wp_bind ?_
  unfold getReadyForUpdate
  split
  · exact hnone ∅ world
  refine Discipline.wp_bind (Discipline.wp_unlocked (fun _ _ => rfl) fun world₁ hrely₁ _ => ?_)
  apply wpAny_of_fails
  refine wp_candidate (hworld.rely hrely₁) (fun _ h => .inl ⟨executorKeys, h⟩) ?_ ?_
  · exact hnone
  intro held unitOfWork world₂ key stored loaded hworld₂ hopened hloads hwrites _
  refine Discipline.wp_bind ?_
  exact claimCandidate_handing hworld₂ hopened hloads hwrites

end

/-! ## 7. Commits -/

/-- What a commit adds to the artifacts, and what it hands out. -/
structure LedgerCommits (settings : Settings) (call : Call) (result : Result) (held : Set RowLock)
    (world world' : World) : Prop where
  commits : WorldCommits ⟨False, False⟩ call result held world world'
  recorded : ∀ artifact ∈ world'.database.artifacts, artifact ∈ world.database.artifacts ∨
    .execution artifact.executionId ∈ held ∧
      ∃ stored, world.database.executions.get? artifact.executionId = some stored ∧
        Recorded settings stored.snapshot artifact
  handed : ∀ claim, result = .claim (some claim) →
    ∃ execution definition envelope, Supplies world.database claim execution definition envelope

/-- The calls that add an artifact or hand out a claim. -/
def Call.handsOn : Call → Bool
  | .completeTask .. => true
  | .complete .. => true
  | .claimNext .. => true
  | _ => false

section

variable {settings : Settings} {call : Call} {result : Result} {held : Set RowLock}
  {unitOfWork : UnitOfWork} {world : World}

theorem Commits.hands_nothing {isolation : Isolation} {db db' : Database}
    (h : Commits isolation held db db' call result) (hcall : Call.handsOn call = false) :
    db'.artifacts = db.artifacts ∧ ∀ claim, result ≠ .claim (some claim) := by
  cases h with
  | idle hresult hupdates =>
    refine ⟨hupdates.artifacts.trans (List.append_nil _), fun claim hclaim => ?_⟩
    subst hclaim
    rcases hresult with h | h <;> cases h
  | requested _ _ _ _ _ hupdates =>
    exact ⟨hupdates.artifacts.trans (List.append_nil _), fun claim h => by cases h⟩
  | started _ _ _ _ _ _ hupdates =>
    exact ⟨hupdates.artifacts.trans (List.append_nil _), fun claim h => by cases h⟩
  | cancelled _ _ _ _ _ _ _ _ hupdates =>
    exact ⟨hupdates.artifacts.trans (List.append_nil _), fun claim h => by cases h⟩
  | operated _ _ _ _ hperforms _ _ _ hupdates =>
    cases hperforms with
    | completeTask => cases hcall
    | complete => cases hcall
    | claimNext => cases hcall
    | _ => exact ⟨hupdates.artifacts.trans (List.append_nil _), fun claim h => by cases h⟩

/-- A commit leaves the snapshots of the executions. -/
theorem Commits.snapshot_kept {isolation : Isolation} {db db' : Database}
    (h : Commits isolation held db db' call result) {id : UUID} {stored : WorkflowExecution}
    (hrow : db.executions.get? id = some stored) :
    ∃ execution, db'.executions.get? id = some execution ∧ execution.snapshot = stored.snapshot := by
  cases h with
  | idle _ hupdates => exact ⟨stored, hupdates.executions ▸ hrow, rfl⟩
  | requested _ _ _ _ _ hupdates => exact ⟨stored, hupdates.executions ▸ hrow, rfl⟩
  | cancelled _ _ _ _ _ _ _ _ hupdates => exact ⟨stored, hupdates.executions ▸ hrow, rfl⟩
  | started _ _ _ hnew _ _ hupdates =>
    refine ⟨stored, ?_, rfl⟩
    rw [hupdates.executions, Dict.get?_set, if_neg]
    · exact hrow
    · rintro rfl
      rw [hnew] at hrow
      cases hrow
  | operated hstored _ _ _ _ _ _ _ hupdates =>
    rw [hupdates.executions, Dict.get?_set]
    split
    · rename_i hid
      subst hid
      obtain rfl := Option.some.inj (hstored.symm.trans hrow)
      exact ⟨_, rfl, rfl⟩
    · exact ⟨stored, hrow, rfl⟩

theorem finishes_ledger (h : ledgered.finishes settings call held unitOfWork result world)
    (hrecording : Recording settings held unitOfWork world) (hhanding : Handing held result world) :
    (services settings).Finishes ledgered.rely World.Consistent (LedgerCommits settings)
      (Raises ⟨False, False⟩) call held unitOfWork result world := by
  intro world' hrely hworld'
  have hcommit := h world' hrely hworld'
  simp only [services] at hcommit ⊢
  cases hflush : unitOfWork.flush world'.database with
  | error error =>
    rw [hflush] at hcommit
    exact hcommit
  | ok database =>
    rw [hflush] at hcommit
    refine ⟨hcommit, fun artifact hmem => ?_, fun claim hresult => ?_⟩
    · rw [show (⟨database, _⟩ : World).database = database from rfl, flush_artifacts hflush,
        List.mem_append] at hmem
      exact hmem.imp id (hrecording.rely hrely artifact)
    · exact (hhanding.rely hrely claim hresult).2

theorem finishes_quiet (h : ledgered.finishes settings call held unitOfWork result world)
    (hcall : Call.handsOn call = false) :
    (services settings).Finishes ledgered.rely World.Consistent (LedgerCommits settings)
      (Raises ⟨False, False⟩) call held unitOfWork result world := by
  intro world' hrely hworld'
  have hcommit := h world' hrely hworld'
  split at hcommit
  · obtain ⟨hsame, hnone⟩ := hcommit.2.hands_nothing hcall
    exact ⟨hcommit, fun artifact hmem => .inl (hsame ▸ hmem), fun claim hresult =>
      absurd hresult (hnone claim)⟩
  · exact hcommit

theorem handsOn_hands (hcall : Call.handsOn call = true) (hworld : world.Consistent) :
    wpAny settings call (fun held unitOfWork result world => Recording settings held unitOfWork world ∧
      Handing held result world) (call.program settings) ∅ {} world := by
  cases call with
  | completeTask executionId nodeKey outcome output artifactId now =>
    refine Discipline.wp_bind ((services settings).wp_mono (fun _ _ _ _ h => h) ?_
      (completeTask_recording executionId nodeKey outcome output artifactId now hworld))
    exact fun held unitOfWork execution world hrecording => ⟨hrecording, fun claim h => by cases h⟩
  | complete claim result artifactId changedAt =>
    refine Discipline.wp_bind ((services settings).wp_mono (fun _ _ _ _ h => h) ?_
      (complete_recording claim result artifactId changedAt hworld))
    exact fun held unitOfWork execution world hrecording => ⟨hrecording, fun claim h => by cases h⟩
  | claimNext workerId executorKeys token changedAt =>
    refine Discipline.wp_bind ((services settings).wp_mono (fun _ _ _ _ h => h) ?_
      (claimNext_handing workerId executorKeys token changedAt hworld))
    rintro held unitOfWork claim world ⟨hnone, hhanding⟩
    refine ⟨fun artifact hmem => ?_, hhanding⟩
    rw [hnone] at hmem
    cases hmem
  | _ => cases hcall

end

theorem verified_ledger (settings : Settings) (call : Call) :
    (services settings).Verified ledgered.rely (ledgered.guard) World.Consistent
      (LedgerCommits settings) (Raises ⟨False, False⟩) call := by
  intro world hworld
  have hcorrect := correct ledgered settings call world hworld
  cases hcall : Call.handsOn call with
  | false =>
    exact (services settings).wp_mono (fun _ _ _ _ h => h)
      (fun _ _ _ _ hfinishes => finishes_quiet hfinishes hcall) hcorrect
  | true =>
    refine (services settings).wp_mono (fun _ _ _ _ h => h.1) ?_
      ((services settings).wp_and hcorrect (handsOn_hands hcall hworld))
    rintro held unitOfWork result world' ⟨hfinishes, hrecording, hhanding⟩
    exact finishes_ledger hfinishes hrecording hhanding

/-! ## 8. Runs -/

/-- Every artifact is a recorded one of a stored execution. -/
def Ledger (settings : Settings) (db : Database) : Prop :=
  ∀ artifact ∈ db.artifacts, ∃ execution, db.executions.get? artifact.executionId = some execution ∧
    Recorded settings execution.snapshot artifact

theorem LedgerCommits.ledger {settings : Settings} {call : Call} {result : Result}
    {held : Set RowLock} {world world' : World} (h : LedgerCommits settings call result held world world')
    (hledger : Ledger settings world.database) : Ledger settings world'.database := by
  intro artifact hmem
  obtain ⟨stored, hrow, hrecorded⟩ : ∃ stored,
      world.database.executions.get? artifact.executionId = some stored ∧
        Recorded settings stored.snapshot artifact := by
    rcases h.recorded artifact hmem with hold | ⟨-, hnew⟩
    · exact hledger artifact hold
    · exact hnew
  obtain ⟨execution, hafter, hsnapshot⟩ := h.commits.2.snapshot_kept hrow
  exact ⟨execution, hafter, hsnapshot ▸ hrecorded⟩

section

variable (settings : Settings) {world : World} (hblank : Blank world.database)
  (hartifacts : world.database.artifacts = []) (inputs : List (Store.Input Call))
include hblank

theorem ledger_trace :
    ∀ t ∈ (services settings).machine.trace ((services settings).initial world) inputs,
      (services settings).Respects (LedgerCommits settings) (Raises ⟨False, False⟩) t := by
  have hverified := verified_ledger settings
  intro t ht
  refine ((Store.trace_spec ledgered.refl ledgered.trans ?_ hverified
    ((services settings).coherent_initial _ _ _ _ _ hblank.aligned.consistent) ?_).2 t ht).2
  · intro call result held before after hbefore h
    obtain ⟨hafter, hrely⟩ := h.commits.2.spec hbefore
    refine ⟨hafter, fun held' hdisjoint => ⟨hrely held' hdisjoint, fun artifact hheld => ⟨?_, ?_⟩⟩⟩
    · intro hmem
      rcases h.recorded artifact hmem with hold | ⟨hlock, -⟩
      · exact hold
      · exact absurd hheld (Set.disjoint_left.mp hdisjoint hlock)
    · intro hmem
      obtain ⟨new, hnew, -⟩ := h.commits.2.artifacts
      rw [hnew]
      exact List.mem_append_left _ hmem
  · intro t _ i session statement next _ _ _ _
    trivial

include hartifacts

theorem ledger_kept :
    Ledger settings ((services settings).machine.run ((services settings).initial world)
        inputs).shared.database ∧
      ∀ t ∈ (services settings).machine.trace ((services settings).initial world) inputs,
        Ledger settings t.before.shared.database ∧ Ledger settings t.after.shared.database := by
  refine (services settings).machine.trace_keeps
    (Q := fun config => Ledger settings config.shared.database) ?_ ?_
  · intro artifact hmem
    rw [show ((services settings).initial world).shared = world from rfl, hartifacts] at hmem
    cases hmem
  · intro t ht hledger
    have hstep := ledger_trace settings hblank inputs t ht
    unfold Store.Respects at hstep
    split at hstep
    · obtain ⟨held, hcommits⟩ := hstep
      exact hcommits.ledger hledger
    · rw [hstep.2]
      exact hledger
    · rw [hstep]
      exact hledger

/-- Whatever the sessions interleave, every artifact belongs to a stored execution, and a success of a
node with a phase pack satisfies its output contract. -/
theorem artifacts_recorded :
    Ledger settings ((services settings).machine.run ((services settings).initial world)
      inputs).shared.database :=
  (ledger_kept settings hblank hartifacts inputs).1

/-- Whatever the sessions interleave, a worker receives with its claim the newest artifacts of the
nodes before its own, every required input among them, and none that breaks its contract. -/
theorem claims_supplied :
    ∀ t ∈ (services settings).machine.trace ((services settings).initial world) inputs,
      ∀ call claim, t.output = .committed call (.claim (some claim)) →
        ∃ execution definition envelope,
          Supplies t.before.shared.database claim execution definition envelope ∧
            ∀ artifact ∈ envelope.upstreamArtifacts, Recorded settings execution.snapshot artifact := by
  intro t ht call claim houtput
  have hledger := ((ledger_kept settings hblank hartifacts inputs).2 t ht).1
  have hstep := ledger_trace settings hblank inputs t ht
  unfold Store.Respects at hstep
  rw [houtput] at hstep
  obtain ⟨held, hcommits⟩ := hstep
  obtain ⟨execution, definition, envelope, hsupplies⟩ := hcommits.handed claim rfl
  refine ⟨execution, definition, envelope, hsupplies, fun artifact hmem => ?_⟩
  obtain ⟨hid, hnewest⟩ := hsupplies.inputs.newest artifact hmem
  obtain ⟨other, hother, hrecorded⟩ := hledger artifact hnewest.1
  rw [hid, hsupplies.row] at hother
  obtain rfl := Option.some.inj hother
  exact hrecorded

end

/-- The plan is handed to the build. -/
def planThenBuild : WorkflowDefinition where
  key := "plan-then-build"
  version := 1
  entryNode := "plan"
  nodes := [
    { key := "plan", kind := .task, maxAttempts := 2, maxVisits := 2, phasePack := some ⟨"plan", 1⟩ },
    { key := "build", kind := .task, maxAttempts := 2, maxVisits := 2, phasePack := some ⟨"build", 1⟩
      inputMappings := [⟨"plan", "plan"⟩] },
    { key := "done", kind := .terminal, terminalStatus := some .succeeded }]
  edges := [⟨"plan", .success, "build", none⟩, ⟨"plan", .failure, "plan", none⟩,
    ⟨"build", .success, "done", none⟩, ⟨"build", .failure, "build", none⟩]

theorem planThenBuild_accepted : planThenBuild.construct = .ok () := by decide +kernel

def planPack : PhasePackDefinition where
  key := "plan"
  version := 1
  name := "Plan"
  description := "What to build"
  instructions := "Write the plan"
  outputContract := [("required", .list [jsonText "plan"])]

def buildPack : PhasePackDefinition where
  key := "build"
  version := 1
  name := "Build"
  description := "The change"
  instructions := "Follow the plan"
  inputs := [⟨"plan", "The plan", true⟩]

/-- A contract is the list of the keys it requires. -/
def requiring : Settings where
  validateOutput contract output :=
    if contract.all fun _ => output.any fun entry => entry.1 = "plan" then []
    else [⟨"", "'plan' is a required property", some "required"⟩]
  grace_pos := Nat.le_of_ble_eq_true rfl

def planningProject : World where
  database := {
    registry := {
      definitions := [⟨planThenBuild, planThenBuild_accepted⟩]
      phasePacks := [planPack, buildPack] }
    projects := ⟨[(1, { id := 1, key := "p", name := "p", repositoryUrl := "u" })]⟩ }

theorem blank_planningProject : Blank planningProject.database := ⟨rfl, rfl, rfl, rfl⟩

/-- A worker looks for a task while the plan is being completed, and again afterwards. -/
def planInputs : List (Store.Input Call) :=
  .«open» 0 requestTask :: List.replicate 5 (.advance 0) ++
    .«open» 1 (.start 20 planThenBuild.key none 30 (fun _ => 0) 1) :: List.replicate 14 (.advance 1) ++
    .«open» 2 (.beginTask 30 "plan" 2) :: List.replicate 5 (.advance 2) ++
    .«open» 3 (.completeTask 30 "plan" .success (some [("plan", jsonText "steps")]) 40 3) ::
      List.replicate 4 (.advance 3) ++
    .«open» 4 (.claimNext "worker" none 77 4) :: List.replicate 2 (.advance 4) ++
    List.replicate 4 (.advance 3) ++ .«open» 5 (.claimNext "worker" none 78 4) ::
      List.replicate 8 (.advance 5)

abbrev planTrace := (services requiring).machine.trace
  ((services requiring).initial planningProject) planInputs

/-- A claim of the build is committed. -/
def claimsBuild (t : ServiceStep requiring) : Bool :=
  match t.output with
  | .committed _ (.claim (some claim)) => claim.nodeKey = "build"
  | _ => false

theorem artifacts_recorded_plan :
    ((services requiring).machine.run ((services requiring).initial planningProject)
      planInputs).shared.database.artifacts.map TaskArtifact.key = [(30, "plan", 1)] ∧
    Ledger requiring ((services requiring).machine.run ((services requiring).initial planningProject)
      planInputs).shared.database :=
  ⟨by decide +kernel, artifacts_recorded requiring blank_planningProject rfl planInputs⟩

/-- The build is claimed with the plan. -/
theorem claims_supplied_plan :
    ∃ t ∈ planTrace, ∃ call claim, t.output = .committed call (.claim (some claim)) ∧
      claim.nodeKey = "build" ∧
      ∃ execution definition envelope,
        Supplies t.before.shared.database claim execution definition envelope ∧
          ∀ artifact ∈ envelope.upstreamArtifacts,
            Recorded requiring execution.snapshot artifact := by
  have hbuild : planTrace.any claimsBuild = true := by decide +kernel
  obtain ⟨t, ht, hclaims⟩ := List.any_eq_true.mp hbuild
  unfold claimsBuild at hclaims
  split at hclaims
  · rename_i call claim houtput
    exact ⟨t, ht, call, claim, houtput, by simpa using hclaims,
      claims_supplied requiring blank_planningProject rfl planInputs t ht call claim houtput⟩
  · cases hclaims

end JbOrchestrator.Application
