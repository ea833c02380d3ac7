import JbOrchestrator.Application.Verification

/-!
# Calls — every service commits as `Commits` says

One lemma for each service, under any discipline; `verified` collects them.
-/

open Lib

namespace JbOrchestrator.Application

open Domain Workflows Infrastructure Infrastructure.Database

section

variable {isolation : Isolation} {D : Discipline isolation} {settings : Settings} {call : Call}
  {world : World}

/-! ## 1. Operations on an execution -/

theorem wp_operate {β : Type} {P : Set RowLock → UnitOfWork → β → World → Prop}
    {held : Set RowLock} {unitOfWork : UnitOfWork} {operation : Operation}
    {stored loaded : WorkflowExecution} {f : WorkflowExecution → Transaction β}
    (hworld : world.Consistent) (hopened : Opened held unitOfWork world stored loaded)
    (hloads : Loads isolation stored operation loaded)
    (hP : ∀ calls after, engine.step loaded operation = (⟨.ok (), calls⟩, after) →
      after.id = stored.id → after.snapshot = stored.snapshot →
      D.wp settings call (D.fails call) P (f after) held unitOfWork world) :
    D.wp settings call (D.fails call) P (applyOperation loaded operation >>= f) held unitOfWork
      world := by
  refine Discipline.wp_bind (Discipline.wp_applyOperation (fun calls after hstep => ?_)
    fun _ => Discipline.fails_of_not_transition rfl)
  have hstored := hworld.stored _ _ hopened.row
  have hloaded := hloads.isStored hstored
  have hshape := (hloads.sameShape hstored.sound).trans
    (effect_of_step hloaded.sound hloaded.active hstep).sameShape
  exact hP calls after hstep hshape.id hshape.snapshot

/-- Every commit of the call does what `Commits` says, and it raises as `Refuses` says. -/
def Correct (D : Discipline isolation) (settings : Settings) (call : Call) : Prop :=
  ∀ world, world.Consistent → D.wp settings call (D.fails call) (D.finishes settings call)
    (call.program settings) ∅ {} world

theorem wp_opened {β : Type} {P : Set RowLock → UnitOfWork → β → World → Prop} {executionId : UUID}
    {f : WorkflowExecution → Transaction β} (hworld : world.Consistent)
    (hP : ∀ held unitOfWork world' stored, world'.Consistent → stored.id = executionId →
      Opened held unitOfWork world' stored stored → unitOfWork.writes = [] →
      unitOfWork.events = [] →
      D.wp settings call (D.fails call) P (f stored) held unitOfWork world') :
    D.wp settings call (D.fails call) P (getExecution executionId >>= f) ∅ {} world :=
  Discipline.wp_bind (wp_getExecution hworld
    (fun _ _ _ _ => Discipline.fails_of_not_transition) hP)

theorem beginTask_correct (executionId : UUID) (nodeKey : NodeKey) (now : Instant) :
    Correct D settings (.beginTask executionId nodeKey now) := by
  intro world hworld
  refine Discipline.wp_bind (wp_opened hworld ?_)
  rintro held unitOfWork world₁ stored hworld₁ rfl hopened hwrites hevents
  refine wp_operate hworld₁ hopened (.locked _) fun calls after hstep hid hsnapshot => ?_
  refine wp_save [] hopened hid ⟨[], by simp, by simp [hwrites]⟩ (by simp [hevents])
    fun _ _ _ hsaved => ?_
  exact finishes_saved (.locked _) hstep hid hsaved .beginTask

/-- The end of a service that synchronizes the lifecycle. -/
theorem wp_conclude {β : Type} {P : Set RowLock → UnitOfWork → β → World → Prop}
    {held : Set RowLock} {unitOfWork : UnitOfWork} {operation : Operation} {result : Result}
    {stored loaded after : WorkflowExecution} {calls : List ActivateCall}
    (artifacts : List TaskArtifact) {event : DomainEvent} {f : Unit → Transaction β}
    (hworld : world.Consistent) (hopened : Opened held unitOfWork world stored loaded)
    (hloads : Loads isolation stored operation loaded)
    (hstep : engine.step loaded operation = (⟨.ok (), calls⟩, after)) (hid : after.id = stored.id)
    (hsnapshot : after.snapshot = stored.snapshot)
    (hwrites : ∃ budget, (∀ write ∈ budget, isBudgetWrite write = true) ∧
      unitOfWork.writes = artifacts.map Write.insertArtifact ++ budget)
    (hevents : ∀ event ∈ unitOfWork.events, DomainEvent.isBudget event = true)
    (hperforms : Performs loaded after call result operation true artifacts event)
    (hf : ∀ held' unitOfWork' world', D.finishes settings call held' unitOfWork' result world' →
      D.wp settings call (D.fails call) P (f ()) held' unitOfWork' world') :
    D.wp settings call (D.fails call) P (perform (.saveExecution after) >>= fun _ =>
      perform (.append event) >>= fun _ => synchronizeExecutionLifecycle after >>= f)
      held unitOfWork world := by
  refine wp_save artifacts hopened hid hwrites hevents fun before world₁ hrely₁ hsaved => ?_
  refine Discipline.wp_bind (wp_synchronizeSaved (hworld.rely hrely₁) hsaved hloads hstep hsnapshot
    ?_)
  intro held' unitOfWork' world' run request run' request' events hsaved' hprojected
  exact hf _ _ _ (finishes_projected hloads hstep hid hsaved' hprojected hperforms)

theorem nodePhasePack_within (snapshot : WorkflowSnapshot) (definition : NodeDefinition) :
    (nodePhasePack snapshot definition).Within Discipline.quiet
      fun error => error.isTransition = false := by
  unfold nodePhasePack
  split
  · trivial
  · exact Program.within_bind (Program.within_ofOption rfl) fun _ => trivial

/-- The phase pack of a node of a loaded execution. -/
theorem wp_nodePhasePack {β : Type} {P : Set RowLock → UnitOfWork → β → World → Prop}
    {held : Set RowLock} {unitOfWork : UnitOfWork} {stored loaded : WorkflowExecution}
    {snapshot : WorkflowSnapshot} {definition : NodeDefinition}
    {f : Option PhasePackDefinition → Transaction β} (hworld : world.Consistent)
    (hopened : Opened held unitOfWork world stored loaded)
    (hP : ∀ phasePack world', world'.Consistent → Opened held unitOfWork world' stored loaded →
      D.wp settings call (D.fails call) P (f phasePack) held unitOfWork world') :
    D.wp settings call (D.fails call) P (nodePhasePack snapshot definition >>= f) held unitOfWork
      world :=
  Discipline.wp_bind (Discipline.wp_quiet (nodePhasePack_within snapshot definition)
    (fun phasePack world' hrely => hP phasePack world' (hworld.rely hrely)
      (hopened.rely Set.Subset.rfl hrely rfl rfl rfl rfl))
    fun _ _ => Discipline.fails_of_not_transition)

theorem wp_addArtifact {β : Type} {P : Set RowLock → UnitOfWork → β → World → Prop}
    {held : Set RowLock} {unitOfWork : UnitOfWork} {stored loaded : WorkflowExecution}
    {x : Except DomainError TaskArtifact} {f : TaskArtifact → Unit → Transaction β}
    (herror : ∀ error, x = .error error → error.isTransition = false) (hworld : world.Consistent)
    (hopened : Opened held unitOfWork world stored loaded) (hwrites : unitOfWork.writes = [])
    (hevents : unitOfWork.events = [])
    (hP : ∀ artifact unitOfWork' world', x = .ok artifact → world'.Consistent →
      Opened held unitOfWork' world' stored loaded →
      (∃ budget, (∀ write ∈ budget, isBudgetWrite write = true) ∧
        unitOfWork'.writes = [artifact].map Write.insertArtifact ++ budget) →
      (∀ event ∈ unitOfWork'.events, DomainEvent.isBudget event = true) →
      D.wp settings call (D.fails call) P (f artifact ()) held unitOfWork' world') :
    D.wp settings call (D.fails call) P (throwDomain x >>= fun artifact =>
      perform (.addArtifact artifact) >>= f artifact) held unitOfWork world := by
  refine Discipline.wp_bind (Discipline.wp_throwDomain (fun artifact hartifact => ?_)
    fun error h => Discipline.fails_of_not_transition (herror error h))
  refine Discipline.wp_bind (Discipline.wp_unlocked (fun _ _ => rfl) fun world' hrely _ => ?_)
  refine hP artifact _ world' hartifact (hworld.rely hrely)
    (hopened.rely Set.Subset.rfl hrely rfl rfl rfl rfl) ⟨[], by simp, ?_⟩ ?_
  · simp [Statement.answer, hwrites]
  · simp [Statement.answer, hevents]

theorem completeTask_correct (executionId : UUID) (nodeKey : NodeKey) (outcome : NodeOutcome)
    (output : Option JsonObject) (artifactId : UUID) (now : Instant) :
    Correct D settings (.completeTask executionId nodeKey outcome output artifactId now) := by
  intro world hworld
  refine Discipline.wp_bind (wp_opened hworld ?_)
  rintro held unitOfWork world₁ stored hworld₁ rfl hopened hwrites hevents
  refine Discipline.wp_bind (Discipline.wp_ofOption (fun node hnode => ?_)
    fun _ => Discipline.fails_of_not_transition rfl)
  refine Discipline.wp_bind (Discipline.wp_ofOption (fun definition _ => ?_)
    fun _ => Discipline.fails_of_not_transition rfl)
  refine wp_nodePhasePack hworld₁ hopened fun phasePack world₂ hworld₂ hopened₂ => ?_
  refine wp_operate hworld₂ hopened₂ (.locked _) fun calls after hstep hid hsnapshot => ?_
  refine wp_addArtifact (fun _ => TaskArtifact.create_error) hworld₂ hopened₂ hwrites hevents ?_
  intro artifact unitOfWork₃ world₃ hartifact hworld₃ hopened₃ hwrites₃ hevents₃
  have hkey := TaskArtifact.create_key hartifact
  rw [hid] at hkey
  exact wp_conclude [artifact] hworld₃ hopened₃ (.locked _) hstep hid hsnapshot hwrites₃ hevents₃
    (.completeTask hnode hkey) fun _ _ _ hfinishes => hfinishes

theorem failTask_correct (executionId : UUID) (nodeKey : NodeKey) (reason : String)
    (now : Instant) : Correct D settings (.failTask executionId nodeKey reason now) := by
  intro world hworld
  refine Discipline.wp_bind (wp_opened hworld ?_)
  rintro held unitOfWork world₁ stored hworld₁ rfl hopened hwrites hevents
  refine wp_operate hworld₁ hopened (.locked _) fun calls after hstep hid hsnapshot => ?_
  exact wp_conclude [] hworld₁ hopened (.locked _) hstep hid hsnapshot
    ⟨[], by simp, by simp [hwrites]⟩ (by simp [hevents]) .failTask fun _ _ _ hfinishes => hfinishes

theorem resolveApproval_correct (executionId : UUID) (nodeKey : NodeKey) (approved : Bool)
    (now : Instant) : Correct D settings (.resolveApproval executionId nodeKey approved now) := by
  intro world hworld
  refine Discipline.wp_bind (wp_opened hworld ?_)
  rintro held unitOfWork world₁ stored hworld₁ rfl hopened hwrites hevents
  refine wp_operate hworld₁ hopened (.locked _) fun calls after hstep hid hsnapshot => ?_
  exact wp_conclude [] hworld₁ hopened (.locked _) hstep hid hsnapshot
    ⟨[], by simp, by simp [hwrites]⟩ (by simp [hevents]) .resolveApproval
    fun _ _ _ hfinishes => hfinishes

/-- The reservations are released before the execution is saved. -/
theorem wp_release {β : Type} {P : Set RowLock → UnitOfWork → β → World → Prop}
    {held : Set RowLock} {unitOfWork : UnitOfWork} {stored loaded : WorkflowExecution}
    {runId : UUID} {reason : String} {changedAt : Instant} {f : Unit → Transaction β}
    (hworld : world.Consistent) (hopened : Opened held unitOfWork world stored loaded)
    (hwrites : unitOfWork.writes = []) (hevents : unitOfWork.events = [])
    (hP : ∀ held' unitOfWork' world', world'.Consistent →
      Opened held' unitOfWork' world' stored loaded →
      (∃ budget, (∀ write ∈ budget, isBudgetWrite write = true) ∧
        unitOfWork'.writes = [].map Write.insertArtifact ++ budget) →
      (∀ event ∈ unitOfWork'.events, DomainEvent.isBudget event = true) →
      D.wp settings call (D.fails call) P (f ()) held' unitOfWork' world') :
    D.wp settings call (D.fails call) P (releaseRunReservations runId reason changedAt >>= f) held
      unitOfWork world := by
  refine Discipline.wp_bind (wp_releaseRunReservations
    (fun _ _ _ _ => Discipline.fails_of_not_transition) ?_)
  intro held' unitOfWork' world' hheld hrely hbudgeted
  obtain ⟨writes, hwrites', hbudget⟩ := hbudgeted.writes
  obtain ⟨events, hevents', hbudget'⟩ := hbudgeted.events
  refine hP held' unitOfWork' world' (hworld.rely hrely) (hopened.rely hheld hrely
    hbudgeted.executions hbudgeted.nodes hbudgeted.runs hbudgeted.requests) ⟨writes, hbudget, ?_⟩ ?_
  · rw [hwrites', hwrites]
    rfl
  · rw [hevents', hevents]
    exact hbudget'

theorem cancel_correct (executionId : UUID) (now : Instant) :
    Correct D settings (.cancel executionId now) := by
  intro world hworld
  refine Discipline.wp_bind (wp_opened hworld ?_)
  rintro held unitOfWork world₁ stored hworld₁ rfl hopened hwrites hevents
  refine wp_operate hworld₁ hopened (.locked _) fun calls after hstep hid hsnapshot => ?_
  refine wp_release hworld₁ hopened hwrites hevents ?_
  intro held₂ unitOfWork₂ world₂ hworld₂ hopened₂ hwrites₂ hevents₂
  exact wp_conclude [] hworld₂ hopened₂ (.locked _) hstep hid hsnapshot hwrites₂ hevents₂ .cancel
    fun _ _ _ hfinishes => hfinishes

/-! ## 2. Claims -/

theorem heartbeat_correct (claim : TaskClaim) (changedAt : Instant) :
    Correct D settings (.heartbeat claim changedAt) := by
  intro world hworld
  refine Discipline.wp_bind (wp_opened hworld ?_)
  intro held unitOfWork world₁ stored hworld₁ hclaim hopened hwrites hevents
  refine Discipline.wp_bind (Discipline.wp_ofOption (fun definition _ => ?_)
    fun _ => Discipline.fails_of_not_transition rfl)
  refine wp_operate hworld₁ hopened (.locked _) fun calls after hstep hid hsnapshot => ?_
  refine wp_save [] hopened hid ⟨[], by simp, by simp [hwrites]⟩ (by simp [hevents])
    fun _ _ _ hsaved => ?_
  exact finishes_saved (.locked _) hstep hid hsaved (.heartbeat hclaim)

theorem complete_correct (claim : TaskClaim) (result : TaskResult) (artifactId : UUID)
    (changedAt : Instant) : Correct D settings (.complete claim result artifactId changedAt) := by
  intro world hworld
  refine Discipline.wp_bind (wp_opened hworld ?_)
  intro held unitOfWork world₁ stored hworld₁ hclaim hopened hwrites hevents
  refine Discipline.wp_bind (Discipline.wp_ofOption (fun definition _ => ?_)
    fun _ => Discipline.fails_of_not_transition rfl)
  refine wp_nodePhasePack hworld₁ hopened fun phasePack world₂ hworld₂ hopened₂ => ?_
  refine wp_operate hworld₂ hopened₂ (.locked _) fun calls after hstep hid hsnapshot => ?_
  refine wp_addArtifact (fun _ => TaskArtifact.create_error) hworld₂ hopened₂ hwrites hevents ?_
  intro artifact unitOfWork₃ world₃ hartifact hworld₃ hopened₃ hwrites₃ hevents₃
  have hkey := TaskArtifact.create_key hartifact
  rw [hid, hclaim] at hkey
  exact wp_conclude [artifact] hworld₃ hopened₃ (.locked _) hstep hid hsnapshot hwrites₃ hevents₃
    (.complete hclaim hkey) fun _ _ _ hfinishes => hfinishes

theorem fail_correct (claim : TaskClaim) (reason : String) (changedAt : Instant) :
    Correct D settings (.fail claim reason changedAt) := by
  intro world hworld
  refine Discipline.wp_bind (wp_opened hworld ?_)
  intro held unitOfWork world₁ stored hworld₁ hclaim hopened hwrites hevents
  refine wp_operate hworld₁ hopened (.locked _) fun calls after hstep hid hsnapshot => ?_
  exact wp_conclude [] hworld₁ hopened (.locked _) hstep hid hsnapshot
    ⟨[], by simp, by simp [hwrites]⟩ (by simp [hevents]) (.fail hclaim)
    fun _ _ _ hfinishes => hfinishes

/-! ## 3. Candidates -/

/-- The candidate was found by one of the two queries. -/
def IsCandidate (db : Database) (candidate : Candidate) : Prop :=
  (∃ executorKeys, candidate ∈ db.readyCandidates executorKeys) ∨
    ∃ changedAt, candidate ∈ db.expiredCandidates changedAt

/-- The first candidate that can be locked, on a session that has loaded nothing. -/
theorem wp_lockFirst {P : Set RowLock → UnitOfWork → Option Candidate → World → Prop}
    {first : World} {candidates : List Candidate} {held : Set RowLock} (hfirst : first.Consistent)
    (hworld : world.Consistent)
    (hcandidates : ∀ candidate ∈ candidates, IsCandidate first.database candidate)
    (hrely : D.rely ∅ first world) (hnone : ∀ held' world', P held' {} none world')
    (hsome : ∀ held' world' row stored, world'.Consistent →
      world'.database.executions.get? stored.id = some stored → stored.status = .running →
      .execution stored.id ∈ held' →
      (isolation.freshNodes → stored.nodes.get? row.nodeKey = some row) →
      P held' { nodes := Dict.empty.set stored.id ⟨[(row.nodeKey, row)]⟩ } (some ⟨stored.id, row⟩)
        world') :
    D.wp settings call (D.fails call) P (lockFirst candidates) held {} world := by
  induction candidates generalizing held world with
  | nil => exact hnone held world
  | cons candidate candidates ih =>
    rw [List.forall_mem_cons] at hcandidates
    refine Discipline.wp_bind (Discipline.wp_perform ?_)
    intro world' hrely' hguard taken
    have hworld' := hworld.rely hrely'
    have hfirst' := D.trans _ _ _ _ hrely (D.mono (Set.empty_subset held) hrely')
    simp only [Statement.answer, Statement.locks]
    split
    · exact ih hworld' hcandidates.2 hfirst'
    · rename_i hlocked
      simp only [not_or, Bool.not_eq_true, Option.all_eq_true_iff_get, not_forall] at hlocked
      obtain ⟨hfree, hsome', hrunning⟩ := hlocked
      obtain ⟨stored, hrow⟩ := Option.isSome_iff_exists.mp hsome'
      have hid := Database.Consistent.executionId hworld' _ _ hrow
      simp only [hrow, Option.get_some, decide_eq_false_iff_not, not_not] at hrunning
      obtain ⟨executionId, row⟩ := candidate
      obtain rfl : stored.id = executionId := hid
      refine Discipline.wp_pure (hsome _ world' row stored hworld' hrow hrunning ?_ ?_)
      · simp [hfree]
      · intro hfresh
        exact D.fresh hfresh hfirst hcandidates.1 hfirst' hguard hrow

/-- Loading the candidate whose execution is locked. -/
theorem wp_taskCandidate {P : Set RowLock → UnitOfWork → Option WorkflowTaskCandidate → World → Prop}
    {held : Set RowLock} {row : NodeExecution} {stored : WorkflowExecution}
    (hworld : world.Consistent) (hrow : world.database.executions.get? stored.id = some stored)
    (hrunning : stored.status = .running) (hheld : .execution stored.id ∈ held)
    (hfresh : isolation.freshNodes → stored.nodes.get? row.nodeKey = some row)
    (hP : ∀ unitOfWork' world' loaded, world'.Consistent →
      Opened held unitOfWork' world' stored loaded →
      (∀ operation, candidateKey operation = some row.nodeKey →
        Loads isolation stored operation loaded) →
      unitOfWork'.writes = [] → unitOfWork'.events = [] →
      P held unitOfWork' (some ⟨loaded, row.nodeKey⟩) world') :
    D.wp settings call (D.fails call) P (taskCandidate (some ⟨stored.id, row⟩)) held
      { nodes := Dict.empty.set stored.id ⟨[(row.nodeKey, row)]⟩ } world := by
  refine Discipline.wp_bind (Discipline.wp_unlocked (fun _ _ => rfl) fun world₁ hrely₁ _ => ?_)
  have hrow₁ := (D.rows hrely₁).executions _ _ hheld hrow
  simp only [Statement.answer, Statement.load, Dict.get?_empty, hrow₁, Option.map_some]
  refine Discipline.wp_bind (wp_toExecution (hworld.rely hrely₁) hrow₁ hheld
    (Dict.get?_set_self _ _ _) rfl rfl ?_)
  intro unitOfWork' world' loaded hworld' hloaded hopened hwrites hevents
  refine Discipline.wp_pure (hP unitOfWork' world' loaded hworld' hopened ?_ hwrites hevents)
  intro operation hkey
  rw [hloaded, Dict.get?_set_self, Option.getD_some]
  exact .candidate hkey hrunning hfresh

/-- What both candidate queries hand to their service. -/
theorem wp_candidate {P : Set RowLock → UnitOfWork → Option WorkflowTaskCandidate → World → Prop}
    {candidates : List Candidate} (hworld : world.Consistent)
    (hcandidates : ∀ candidate ∈ candidates, IsCandidate world.database candidate)
    (hnone : ∀ held' world', P held' {} none world')
    (hP : ∀ held' unitOfWork' world' key stored loaded, world'.Consistent →
      Opened held' unitOfWork' world' stored loaded →
      (∀ operation, candidateKey operation = some key → Loads isolation stored operation loaded) →
      unitOfWork'.writes = [] → unitOfWork'.events = [] →
      P held' unitOfWork' (some ⟨loaded, key⟩) world') :
    D.wp settings call (D.fails call) P (lockFirst candidates >>= taskCandidate) ∅ {} world := by
  refine Discipline.wp_bind (wp_lockFirst hworld hworld hcandidates (D.refl _ _) ?_ ?_)
  · intro held' world'
    exact Discipline.wp_pure (hnone held' world')
  · intro held' world' row stored hworld' hrow hrunning hheld hfresh
    refine wp_taskCandidate hworld' hrow hrunning hheld hfresh ?_
    intro unitOfWork'' world'' loaded hworld'' hopened hloads hwrites hevents
    exact hP _ _ _ _ _ _ hworld'' hopened hloads hwrites hevents

variable (settings) in
theorem finishes_idle {held : Set RowLock} {result : Result}
    (hresult : result = .claim none ∨ result = .recovered false) :
    D.finishes settings call held {} result world := by
  refine finishes_of_flush fun world' database _ _ hflush => .idle hresult ?_
  obtain ⟨db, hwrites, rfl⟩ := flush_ok hflush
  obtain rfl := Except.ok.inj hwrites
  exact ⟨rfl, rfl, rfl, (List.append_nil _).symm, rfl⟩

theorem resolveArtifactInputs_within (execution : WorkflowExecution) (nodeKey : NodeKey) :
    (TaskDispatchService.resolveArtifactInputs execution nodeKey).Within Discipline.quiet
      fun error => error.isTransition = false := by
  refine Program.within_bind (Program.within_ofOption rfl) fun node => ?_
  split
  · exact Program.within_bind (Program.within_perform trivial) fun _ => trivial
  · refine Program.within_bind (Program.within_ofOption rfl) fun phasePack => ?_
    refine Program.within_bind (Program.within_perform trivial) fun artifacts => ?_
    dsimp only
    split
    · rfl
    · trivial

/-- The token of a claim, on its node. -/
theorem claimTask_token {loaded after : WorkflowExecution} {key : NodeKey} {workerId : String}
    {leaseSeconds : ℕ} {token : UUID} {changedAt : Instant} {calls : List ActivateCall}
    {node : NodeExecution}
    (h : Effect loaded (.claimTask key workerId leaseSeconds token changedAt) calls after)
    (hnode : after.nodes.get? key = some node) : node.leaseToken = some token := by
  cases h with
  | claimTask hfound =>
    rw [WorkflowExecution.claimed_nodes, Dict.get?_modify_self, hfound, Option.map_some] at hnode
    obtain rfl := Option.some.inj hnode
    rfl

theorem recoverExpired_correct (changedAt : Instant) :
    Correct D settings (.recoverExpired changedAt) := by
  intro world hworld
  refine Discipline.wp_bind (Discipline.wp_bind (Discipline.wp_bind
    (Discipline.wp_unlocked (fun _ _ => rfl) fun world₁ hrely₁ _ => ?_)))
  refine wp_candidate (hworld.rely hrely₁) (fun _ h => .inr ⟨changedAt, h⟩) ?_ ?_
  · intro held world'
    exact finishes_idle settings (.inr rfl)
  · intro held unitOfWork world₂ key stored loaded hworld₂ hopened hloads hwrites hevents
    refine Discipline.wp_bind (Discipline.wp_bind (Discipline.wp_ofOption (fun node _ => ?_)
      fun _ => Discipline.fails_of_not_transition rfl))
    have hexpires := hloads (.expireTask key changedAt) rfl
    refine wp_operate hworld₂ hopened hexpires fun calls after hstep hid hsnapshot => ?_
    refine wp_save [] hopened hid ⟨[], by simp, by simp [hwrites]⟩ (by simp [hevents])
      fun before world₃ hrely₃ hsaved => ?_
    refine wp_synchronizeSaved (hworld₂.rely hrely₃) hsaved hexpires hstep hsnapshot ?_
    intro held' unitOfWork' world' run request run' request' events hsaved' hprojected
    exact finishes_projected hexpires hstep hid hsaved' hprojected .recoverExpired

theorem skills_within (execution : WorkflowExecution) (references : List (String × ℕ)) :
    (Program.forEach (fun reference : String × ℕ => Program.ofOption stopIteration
      (execution.snapshot.skill ⟨reference.1, reference.2⟩)) references : Transaction _).Within
        Discipline.quiet fun error => error.isTransition = false :=
  Program.within_forEach (fun _ => Program.within_ofOption (by rfl)) references

theorem claimNext_correct (workerId : String) (executorKeys : Option (List String)) (token : UUID)
    (changedAt : Instant) :
    Correct D settings (.claimNext workerId executorKeys token changedAt) := by
  intro world hworld
  refine Discipline.wp_bind (Discipline.wp_bind ?_)
  unfold getReadyForUpdate
  split
  · exact finishes_idle settings (.inl rfl)
  refine Discipline.wp_bind (Discipline.wp_unlocked (fun _ _ => rfl) fun world₁ hrely₁ _ => ?_)
  refine wp_candidate (hworld.rely hrely₁) (fun _ h => .inl ⟨executorKeys, h⟩) ?_ ?_
  · intro held world'
    exact finishes_idle settings (.inl rfl)
  intro held unitOfWork world₂ key stored loaded hworld₂ hopened hloads hwrites hevents
  refine Discipline.wp_bind (Discipline.wp_bind (Discipline.wp_ofOption (fun definition _ => ?_)
    fun _ => Discipline.fails_of_not_transition rfl))
  refine wp_nodePhasePack hworld₂ hopened fun phasePack world₃ hworld₃ hopened₃ => ?_
  refine Discipline.wp_bind (Discipline.wp_quiet (resolveArtifactInputs_within _ _) ?_
    fun _ _ => Discipline.fails_of_not_transition)
  intro inputs world₄ hrely₄
  have hworld₄ := hworld₃.rely hrely₄
  have hopened₄ := hopened₃.rely Set.Subset.rfl hrely₄ rfl rfl rfl rfl
  have hclaims := hloads (.claimTask key workerId
    (TaskDispatchService.leaseSeconds settings definition) token changedAt) rfl
  refine wp_operate hworld₄ hopened₄ hclaims fun calls after hstep hid hsnapshot => ?_
  refine Discipline.wp_bind (Discipline.wp_ofOption (fun node hnode => ?_)
    fun _ => Discipline.fails_of_not_transition rfl)
  refine Discipline.wp_bind (Discipline.wp_ofOption (fun leaseToken hleaseToken => ?_)
    fun _ => Discipline.fails_of_not_transition rfl)
  refine Discipline.wp_bind (Discipline.wp_quiet (skills_within _ _) ?_
    fun _ _ => Discipline.fails_of_not_transition)
  intro skills world₅ hrely₅
  have hopened₅ := hopened₄.rely Set.Subset.rfl hrely₅ rfl rfl rfl rfl
  have hloaded := hclaims.isStored (hworld₄.stored _ _ hopened₄.row)
  have heffect := effect_of_step hloaded.sound hloaded.active hstep
  obtain rfl : leaseToken = token :=
    Option.some.inj (hleaseToken.symm.trans (claimTask_token heffect hnode))
  have hkey := (heffect.sameShape.sound hloaded.sound).nodeKey key node hnode
  refine wp_save [] hopened₅ hid ⟨[], by simp, by simp [hwrites]⟩ (by simp [hevents])
    fun _ _ _ hsaved => ?_
  rw [hkey] at hsaved
  exact finishes_saved hclaims hstep hid hsaved (.claimNext hnode (by
    simp [TaskDispatchService.taskClaim, TaskClaim.attempt, hkey, heffect.sameShape.id]) rfl)

/-! ## 4. Requests and runs -/

theorem finishes_requested {held : Set RowLock} {unitOfWork : UnitOfWork} {projectId project : UUID}
    {prompt : String} {title : Option String} {now : Instant} (request : UserRequest) (run : Run)
    (hreference : run.requestId = request.id) (hactive : request.status = .active)
    (hqueued : run.status = .queued)
    (hwrites : unitOfWork.writes = [.insertRequest request, .insertRun run])
    (hevents : unitOfWork.events = [.requestCreated request.id project run.id]) :
    D.finishes settings (.createRequest projectId prompt title request.id run.id now) held unitOfWork
      (.created ⟨request, run⟩) world := by
  refine finishes_of_flush fun world' database _ _ hflush => ?_
  obtain ⟨db, hfold, rfl⟩ := flush_ok hflush
  rw [hwrites] at hfold
  obtain ⟨db₁, hinsert, hfold⟩ := foldlM_cons_ok hfold
  obtain ⟨db₂, hinsert', hnil⟩ := foldlM_cons_ok hfold
  obtain rfl := Except.ok.inj hnil
  simp only [Write.apply] at hinsert hinsert'
  split at hinsert
  · cases hinsert
  · rename_i hnew
    obtain rfl := Except.ok.inj hinsert
    split at hinsert'
    · cases hinsert'
    · rename_i hnew'
      obtain rfl := Except.ok.inj hinsert'
      exact .requested hnew hnew' hreference hactive hqueued
        ⟨rfl, rfl, rfl, (List.append_nil _).symm, by rw [hevents]⟩

theorem createRequest_correct (projectId : UUID) (prompt : String) (title : Option String)
    (requestId runId : UUID) (now : Instant) :
    Correct D settings (.createRequest projectId prompt title requestId runId now) := by
  intro world _
  refine Discipline.wp_bind (Discipline.wp_bind
    (Discipline.wp_unlocked (fun _ _ => rfl) fun world₁ hrely₁ _ => ?_))
  refine Discipline.wp_bind (Discipline.wp_ofOption (fun project _ => ?_)
    fun _ => Discipline.fails_of_not_transition rfl)
  split
  · exact Discipline.wp_raise (Discipline.fails_of_not_transition rfl)
  refine Discipline.wp_bind (Discipline.wp_throwDomain (fun created hcreated => ?_)
    fun error herror => Discipline.fails_of_not_transition (UserRequest.create_error herror))
  obtain ⟨hid, hreceived⟩ := UserRequest.create_ok hcreated
  refine Discipline.wp_bind (Discipline.wp_throwDomain (fun request hrequest => ?_)
    fun error herror => ?_)
  · obtain ⟨-, hactive, hid'⟩ := UserRequest.setStatus_ok hrequest
    obtain rfl : request.id = requestId := hid'.trans hid
    refine Discipline.wp_bind (Discipline.wp_unlocked (fun _ _ => rfl) fun _ _ _ => ?_)
    refine Discipline.wp_bind (Discipline.wp_unlocked (fun _ _ => rfl) fun _ _ _ => ?_)
    refine Discipline.wp_bind (Discipline.wp_unlocked (fun _ _ => rfl) fun world₂ _ _ => ?_)
    exact finishes_requested request
      { id := runId, requestId := request.id, createdAt := now, updatedAt := now } rfl hactive rfl
      rfl rfl
  · refine absurd ?_ (UserRequest.setStatus_error herror)
    simp [hreceived, allowedRequestTransitions]

theorem known_empty (db : Database) : Known {} db where
  run _ _ h := by cases h
  request _ _ h := by cases h

theorem approveRun_correct (runId : UUID) (now : Instant) :
    Correct D settings (.approveRun runId now) := by
  intro world hworld
  refine Discipline.wp_bind (wp_lockRun hworld (known_empty _)
    (fun _ _ _ _ => Discipline.fails_of_not_transition) ?_)
  intro held world₁ runs run _ _ _ hworld₁ _ _ hid hruns hrow
  refine wp_executionByRun ?_ fun _ _ _ =>
    Discipline.wp_raise (Discipline.fails_of_not_transition rfl)
  intro world₂ hrely₂ hnone
  have hrow₁ : world₁.database.runs.get? runId = some run := by
    rcases hrow with h | ⟨-, h⟩
    · cases h
    · exact h
  have hstatus := Database.Consistent.unstarted hworld₁ _ _ hrow₁
    ((D.rows hrely₂).unstarted _ hnone)
  refine Discipline.wp_bind (Discipline.wp_throwDomain (fun after hafter => ?_) ?_)
  · -- neither a queued nor a cancelled run can become ready
    obtain ⟨hallowed, -⟩ := Run.transitionTo_ok hafter
    rcases hstatus with h | h <;> simp [h, allowedRunTransitions] at hallowed
  · intro error _ world' _ _ _
    exact .approveRun runId now

theorem finishes_cancelled {held : Set RowLock} {unitOfWork : UnitOfWork} {runId : UUID}
    {now : Instant} {run run' : Run} {request request' : UserRequest} {budget : List Write}
    {budgetEvents : List DomainEvent} (hrow : world.database.runs.get? runId = some run)
    (hheld : .run runId ∈ held) (hrequest : world.database.requests.get? run.requestId = some request)
    (hheld' : .request run.requestId ∈ held)
    (hsettled : isolation.settledRuns → world.database.Unstarted runId)
    (hrun' : run.transitionTo .cancelled now = .ok run')
    (hrequest' : request.cancel now = .ok request')
    (hbudget : ∀ write ∈ budget, isBudgetWrite write = true)
    (hbudgetEvents : ∀ event ∈ budgetEvents, DomainEvent.isBudget event = true)
    (hwrites : unitOfWork.writes =
      budget ++ (runWrites run (some run') ++ requestWrites request (some request')))
    (hevents : unitOfWork.events = budgetEvents ++ [.runCancelled runId run.requestId]) :
    D.finishes settings (.cancelRun runId now) held unitOfWork (.run run') world := by
  refine finishes_of_flush fun world' database hrely hworld' hflush => ?_
  obtain ⟨db, hfold, rfl⟩ := flush_ok hflush
  rw [hwrites] at hfold
  obtain ⟨middle, hbudgets, hfold⟩ := foldlM_append_ok hfold
  have hsame := foldlM_budget hbudget hbudgets
  have hrows := D.rows hrely
  have hrequestRow := hrows.requests _ _ hheld' hrequest
  refine .cancelled (hrows.runs _ _ hheld hrow) hheld hrequestRow hheld'
    (fun h => hrows.settled _ hheld (hsettled h)) hrun' hrequest' hbudgetEvents ?_
  have hmiddle : Updates world'.database middle world'.database.executions none none [] [] :=
    ⟨hsame.executions, hsame.runs, hsame.requests, by rw [hsame.artifacts, List.append_nil],
      by rw [hsame.events, List.append_nil]⟩
  refine hmiddle.synchronized ?_
    (fun changed hchanged => ⟨_, _, Option.some.inj hchanged ▸ hrequest'⟩) hfold ?_
  · rw [Database.Consistent.requestId hworld' _ _ hrequestRow]
    exact hrequestRow
  · rw [hevents]

theorem cancelUnstarted_correct {world : World} (hworld : world.Consistent) (runId : UUID)
    (now : Instant) (hnone : world.database.Unstarted runId) :
    D.wp settings (.cancelRun runId now) (D.fails (.cancelRun runId now))
      (fun held unitOfWork value world =>
        D.finishes settings (.cancelRun runId now) held unitOfWork (.run value) world)
      (OrchestrationService.cancelUnstarted runId now) ∅ {} world := by
  refine wp_lockRun hworld (known_empty _) (fun _ _ _ _ => Discipline.fails_of_not_transition) ?_
  intro held₁ world₁ runs run _ hrely₁ hguard hworld₁ hknown₁ hrunHeld hrunId hruns hrunRow
  have hsettled := fun h => D.settled h hnone rfl hrely₁ hguard
  refine wp_lockRequest hworld₁ hknown₁ (fun _ _ _ _ => Discipline.fails_of_not_transition) ?_
  intro held₂ world₂ requests request hheld₂ hrely₂ hworld₂ hrequestHeld hrequestId hrequests
    hrequestRow
  refine Discipline.wp_bind (wp_releaseRunReservations
    (fun _ _ _ _ => Discipline.fails_of_not_transition) ?_)
  intro held₃ unitOfWork₃ world₃ hheld₃ hrely₃ hbudgeted
  have hrely := Discipline.chain hheld₂ hrely₂ hrely₃
  have hfails : ∀ error, D.fails (.cancelRun runId now) held₃ unitOfWork₃ error world₃ := by
    intro error world' hrely' _ _
    refine .cancelRun fun h => ?_
    have hrows := (D.rows hrely).trans (Rely.mono (hheld₂.trans hheld₃) (D.rows hrely'))
    exact hrows.settled _ hrunHeld (hsettled h)
  refine Discipline.wp_bind (Discipline.wp_throwDomain (fun run' hrun' => ?_) fun _ _ => hfails _)
  refine Discipline.wp_bind
    (Discipline.wp_throwDomain (fun request' hrequest' => ?_) fun _ _ => hfails _)
  refine Discipline.wp_bind (Discipline.wp_unlocked (fun _ _ => rfl) fun world₄ hrely₄ _ => ?_)
  refine Discipline.wp_bind (Discipline.wp_unlocked (fun _ _ => rfl) fun world₅ hrely₅ _ => ?_)
  refine Discipline.wp_bind (Discipline.wp_unlocked (fun _ _ => rfl) fun world₆ hrely₆ _ => ?_)
  have hrely₃₆ := D.trans _ _ _ _ hrely₄ (D.trans _ _ _ _ hrely₅ hrely₆)
  have hrows₁ := (D.rows hrely).trans (Rely.mono (hheld₂.trans hheld₃) (D.rows hrely₃₆))
  have hrows₂ := (D.rows hrely₃).trans (Rely.mono hheld₃ (D.rows hrely₃₆))
  obtain ⟨budget, hwrites, hbudget⟩ := hbudgeted.writes
  obtain ⟨budgetEvents, hevents, hbudgetEvents⟩ := hbudgeted.events
  have hid := (Run.transitionTo_ok hrun').2.2.1
  have hid' := (UserRequest.setStatus_ok hrequest').2.2
  refine finishes_cancelled ?_ (hheld₃ (hheld₂ hrunHeld)) ?_ (hheld₃ hrequestHeld) ?_ hrun' hrequest'
    hbudget hbudgetEvents ?_ ?_
  · rcases hrunRow with h | ⟨-, h⟩
    · cases h
    · exact hrows₁.runs _ _ hrunHeld h
  · rcases hrequestRow with h | ⟨-, h⟩
    · cases h
    · exact hrows₂.requests _ _ hrequestHeld h
  · exact fun h => hrows₁.settled _ hrunHeld (hsettled h)
  · simp only [Statement.answer, Statement.load, hbudgeted.runs, hbudgeted.requests, hid, hid',
      hrunId, hrequestId, hruns, hrequests, hwrites]
    simp [runWrites, requestWrites]
  · simp only [Statement.answer, Statement.load, hbudgeted.runs, hbudgeted.requests, hid, hid',
      hrunId, hrequestId, hruns, hrequests, hevents]
    rfl

theorem cancelRun_correct (runId : UUID) (now : Instant) :
    Correct D settings (.cancelRun runId now) := by
  intro world hworld
  refine Discipline.wp_bind (wp_executionByRun_forUpdate hworld ?_ ?_)
  · intro world₁ hworld₁ hnone
    exact cancelUnstarted_correct hworld₁ runId now hnone
  rintro held unitOfWork world₁ stored hworld₁ rfl hopened hwrites hevents
  simp only [OrchestrationService.cancelExecution]
  split
  · exact Discipline.wp_raise (Discipline.fails_of_not_transition rfl)
  refine wp_operate hworld₁ hopened (.locked _) fun calls after hstep hid hsnapshot => ?_
  refine wp_release hworld₁ hopened hwrites hevents ?_
  intro held₂ unitOfWork₂ world₂ hworld₂ hopened₂ hwrites₂ hevents₂
  refine wp_save [] hopened₂ hid hwrites₂ hevents₂ fun before world₃ hrely₃ hsaved => ?_
  refine Discipline.wp_bind (wp_synchronizeSaved (hworld₂.rely hrely₃) hsaved (.locked _) hstep
    hsnapshot ?_)
  intro held' unitOfWork' world' run request run' request' events hsaved' hprojected
  refine Discipline.wp_bind (Discipline.wp_unlocked (fun _ _ => rfl) fun world'' hrely'' _ => ?_)
  refine Discipline.wp_ofOption (fun value _ => ?_)
    fun _ => Discipline.fails_of_not_transition rfl
  exact finishes_congr (finishes_projected (.locked _) hstep hid hsaved' hprojected .cancelRun)
    hrely'' rfl rfl

/-! ## 5. Starting a workflow -/

theorem resolvePhasePacks_within (definition : WorkflowDefinition) :
    (resolvePhasePacks definition).Within Discipline.quiet
      fun error => error.isTransition = false :=
  Program.within_forEach (fun _ => Program.within_bind (Program.within_perform trivial)
    fun _ => Program.within_ofOption (by rfl)) _

theorem resolveSkills_within (definition : WorkflowDefinition)
    (phasePacks : List PhasePackDefinition) :
    (resolveSkills definition phasePacks).Within Discipline.quiet
      fun error => error.isTransition = false :=
  Program.within_forEach (fun _ => Program.within_bind (Program.within_perform trivial)
    fun _ => Program.within_ofOption (by rfl)) _

theorem routeModels_within (definition : WorkflowDefinition) :
    (routeModels definition).Within Discipline.quiet fun error => error.isTransition = false := by
  unfold routeModels
  split
  · trivial
  refine Program.within_bind (Program.within_perform trivial) fun profiles => ?_
  refine Program.within_forEach (fun routed => ?_) _
  refine Program.within_bind (Program.within_ofExcept fun error herror => ?_) fun _ => trivial
  cases hroute : ModelRouting.route routed.2 profiles (routed.1.executorKey.getD "default") with
  | ok selection =>
    rw [hroute] at herror
    cases herror
  | error error' =>
    rw [hroute] at herror
    obtain rfl := Except.error.inj herror
    rfl

/-- A run without an execution that was loaded earlier, and its request. -/
structure Pending (run : Run) (request : UserRequest) (db : Database) : Prop where
  status : run.status = .queued ∨ run.status = .cancelled
  run : ∃ run', db.runs.get? run.id = some run' ∧
    (run' = run ∧ (db.Unstarted run.id → db.requests.get? run.requestId = some request) ∨
      run.version < run'.version ∧ run.status.isTerminal = false)

theorem Pending.rely {run : Run} {request : UserRequest} {held : Set RowLock} {db db' : Database}
    (h : Pending run request db) (hrely : Rely held db db') : Pending run request db' where
  status := h.status
  run := by
    obtain ⟨run', hrun', hcases⟩ := h.run
    obtain ⟨run'', hrun'', -, hgrows⟩ := hrely.grows _ _ hrun'
    refine ⟨run'', hrun'', ?_⟩
    rcases hcases with ⟨rfl, hrequest⟩ | ⟨hversion, hlive⟩
    · rcases hgrows with ⟨rfl, hsame⟩ | hlater
      · exact .inl ⟨rfl, fun hnone => (hsame hnone).trans (hrequest (hrely.unstarted _ hnone))⟩
      · exact .inr hlater
    · rcases hgrows with ⟨rfl, -⟩ | ⟨hversion', -⟩
      · exact .inr ⟨hversion, hlive⟩
      · exact .inr ⟨hversion.trans hversion', hlive⟩

/-- The version of the run tells whether its row has changed. -/
theorem Pending.unchanged {run stored : Run} {request : UserRequest} {db : Database}
    (h : Pending run request db) (hrow : db.runs.get? run.id = some stored)
    (hversion : stored.version = run.version) (hnone : db.Unstarted run.id) :
    stored = run ∧ db.requests.get? run.requestId = some request := by
  obtain ⟨run', hrun', ⟨rfl, hrequest⟩ | ⟨hlater, -⟩⟩ := h.run
  · obtain rfl := Option.some.inj (hrow.symm.trans hrun')
    exact ⟨rfl, hrequest hnone⟩
  · obtain rfl := Option.some.inj (hrow.symm.trans hrun')
    exact absurd hversion (Nat.ne_of_gt hlater)

theorem finishes_started {held : Set RowLock} {before unitOfWork : UnitOfWork}
    {key : String} {version : Option ℕ} {nodeId : NodeKey → UUID} {now : Instant}
    {definition : AcceptedDefinition} {created after : WorkflowExecution} {calls : List ActivateCall}
    {selections : List NodeModelSelection} {run loaded : Run} {request loaded' : UserRequest}
    {run' : Option Run} {request' : Option UserRequest} {events : List DomainEvent}
    (hcreates : definition.Creates created) (hcontext : created.snapshot.requestContext ≠ none)
    (hstep : engine.step created (.start now) = (⟨.ok (), calls⟩, after))
    (hrunId : run.id = created.snapshot.runId) (hpending : Pending run request world.database)
    (hruns : before.runs.get? run.id = some run)
    (hrequests : before.requests.get? run.requestId = some request)
    (hwrites : before.writes = [.insertExecution after])
    (hevents : before.events = [.workflowStarted after.id after.status "explicit" selections])
    (hprojected : Projected held before unitOfWork world.database after loaded loaded' run' request'
      events) :
    D.finishes settings (.start created.snapshot.runId key version created.id nodeId now) held
      unitOfWork (.execution after) world := by
  obtain ⟨-, hsnapshot, hid, hmoving⟩ := Stored.of_start hcreates hcontext hstep
  have hafter : after.snapshot.runId = run.id := by rw [hsnapshot, hrunId]
  obtain rfl : loaded = run := by
    rcases hprojected.runRow with h | ⟨h, -⟩ <;> rw [hafter, hruns] at h
    · exact (Option.some.inj h).symm
    · cases h
  obtain rfl : loaded' = request := by
    rcases hprojected.requestRow with h | ⟨h, -⟩ <;> rw [hrequests] at h
    · exact (Option.some.inj h).symm
    · cases h
  obtain ⟨runEvents, requestEvents, rfl, hfollows, hfollows'⟩ := hprojected.follows
  refine finishes_of_flush fun world' database hrely hworld' hflush => ?_
  obtain ⟨db, hfold, rfl⟩ := flush_ok hflush
  rw [hprojected.writes, hwrites, List.singleton_append] at hfold
  obtain ⟨middle, hinsert, hfold⟩ := foldlM_cons_ok hfold
  obtain ⟨hnew, hunstarted, rfl⟩ := insertExecution_ok hinsert
  have hpending' := hpending.rely (D.rows hrely)
  -- the run has been written, and with it its version was checked
  obtain ⟨changed, rfl⟩ : ∃ changed, run' = some changed := by
    cases hfollows with
    | same hsame => exact absurd hsame (not_mem_allowed_of_moving hmoving hpending.status).1
    | changed => exact ⟨_, rfl⟩
  obtain ⟨middle', hrunWrites, -⟩ := foldlM_append_ok hfold
  obtain ⟨stored, hstored, hversion⟩ := (runWrites_ok hrunWrites).2 changed rfl
  rw [(hfollows.some rfl).2.1] at hstored
  obtain ⟨rfl, hrequest⟩ := hpending'.unchanged hstored hversion (hafter ▸ hunstarted)
  have hrow : world'.database.runs.get? after.snapshot.runId = some stored := hafter ▸ hstored
  have hsync := Synchronized.mk hrow hprojected.runHeld hrequest hprojected.requestHeld hfollows
    hfollows'
  have hmiddle : Updates world'.database
      { world'.database with executions := world'.database.executions.set after.id after }
      (world'.database.executions.set created.id after) none none [] [] :=
    ⟨by rw [hid], rfl, rfl, (List.append_nil _).symm, (List.append_nil _).symm⟩
  have hrow' : world'.database.requests.get? loaded'.id = some loaded' := by
    rw [Database.Consistent.requestId hworld' _ _ hrequest]
    exact hrequest
  have hupdates : Updates world'.database { db with events := db.events ++ unitOfWork.events }
      (world'.database.executions.set created.id after) (some changed) request' []
      (.workflowStarted after.id after.status "explicit" selections ::
        (runEvents ++ requestEvents)) := by
    refine hmiddle.synchronized hrow' hfollows'.columns hfold ?_
    rw [hprojected.events, hevents]
    rfl
  rw [hsnapshot] at hunstarted
  rw [hid] at hnew
  exact .started hcreates hcontext hstep hnew hunstarted hsync hupdates

theorem get?_set_empty {α : Type} {id id' : UUID} {row row' : α}
    (h : ((Dict.empty : Dict UUID α).set id row).get? id' = some row') : id' = id ∧ row' = row := by
  rw [Dict.get?_set] at h
  split at h
  · rename_i hid
    exact ⟨hid, (Option.some.inj h).symm⟩
  · cases h

theorem start_correct (runId : UUID) (key : String) (version : Option ℕ) (executionId : UUID)
    (nodeId : NodeKey → UUID) (now : Instant) :
    Correct D settings (.start runId key version executionId nodeId now) := by
  intro world hworld
  -- the run and its request are read without a lock
  refine Discipline.wp_bind (Discipline.wp_bind
    (Discipline.wp_unlocked (fun _ _ => rfl) fun world₁ hrely₁ _ => ?_))
  have hworld₁ := hworld.rely hrely₁
  cases hrun : world₁.database.runs.get? runId with
  | none =>
    simp only [Statement.answer, Statement.load, Dict.get?_empty, hrun]
    exact Discipline.wp_bind (Discipline.wp_ofOption (fun _ h => by cases h)
      fun _ => Discipline.fails_of_not_transition rfl)
  | some run =>
  obtain rfl := Database.Consistent.runId hworld₁ _ _ hrun
  simp only [Statement.answer, Statement.load, Dict.get?_empty, hrun]
  refine Discipline.wp_bind (Discipline.wp_ofOption ?_ fun h => by cases h)
  rintro value ⟨⟩
  refine Discipline.wp_bind (Discipline.wp_unlocked (fun _ _ => rfl) fun world₂ hrely₂ _ => ?_)
  have hworld₂ := hworld₁.rely hrely₂
  cases hrequest : world₂.database.requests.get? run.requestId with
  | none =>
    simp only [Statement.answer, Statement.load, Dict.get?_empty, hrequest]
    exact Discipline.wp_bind (Discipline.wp_ofOption (fun _ h => by cases h)
      fun _ => Discipline.fails_of_not_transition rfl)
  | some request =>
  have hrequestId := Database.Consistent.requestId hworld₂ _ _ hrequest
  simp only [Statement.answer, Statement.load, Dict.get?_empty, hrequest]
  refine Discipline.wp_bind (Discipline.wp_ofOption ?_ fun h => by cases h)
  rintro value ⟨⟩
  refine Discipline.wp_bind (Discipline.wp_unlocked (fun _ _ => rfl) fun world₃ hrely₃ _ => ?_)
  refine Discipline.wp_bind (Discipline.wp_ofOption (fun project _ => ?_)
    fun _ => Discipline.fails_of_not_transition rfl)
  refine Discipline.wp_bind (Discipline.wp_unlocked (fun _ _ => rfl) fun world₄ hrely₄ _ => ?_)
  refine Discipline.wp_bind (Discipline.wp_ofOption (fun definition _ => ?_)
    fun _ => Discipline.fails_of_not_transition rfl)
  refine wp_executionByRun ?_ fun _ _ _ =>
    Discipline.wp_raise (Discipline.fails_of_not_transition rfl)
  intro world₅ hrely₅ hnone
  refine Discipline.wp_bind (Discipline.wp_quiet (resolvePhasePacks_within _) ?_
    fun _ _ => Discipline.fails_of_not_transition)
  intro phasePacks world₆ hrely₆
  refine Discipline.wp_bind (Discipline.wp_quiet (resolveSkills_within _ _) ?_
    fun _ _ => Discipline.fails_of_not_transition)
  intro skills world₇ hrely₇
  refine Discipline.wp_bind (Discipline.wp_quiet (routeModels_within _) ?_
    fun _ _ => Discipline.fails_of_not_transition)
  intro selections world₈ hrely₈
  refine Discipline.wp_bind (Discipline.wp_applyOperation (fun calls after hstep => ?_)
    fun _ => Discipline.fails_of_not_transition rfl)
  refine Discipline.wp_bind (Discipline.wp_unlocked (fun _ _ => rfl) fun world₉ hrely₉ _ => ?_)
  refine Discipline.wp_bind (Discipline.wp_unlocked (fun _ _ => rfl) fun world₁₀ hrely₁₀ _ => ?_)
  let created := WorkflowExecution.create (WorkflowSnapshot.fromDefinition definition.definition run.id
    (some {
      requestId := request.id
      projectId := project.id
      projectKey := project.key
      projectName := project.name
      repositoryUrl := project.repositoryUrl
      defaultBranch := project.defaultBranch
      prompt := request.prompt
      title := request.title }) phasePacks skills selections) executionId nodeId now
  have hcreates : definition.Creates created :=
    ⟨run.id, _, phasePacks, skills, selections, executionId, nodeId, now, rfl⟩
  have hcontext : created.snapshot.requestContext ≠ none := by
    intro h
    cases h
  obtain ⟨-, hsnapshot, hid, hmoving⟩ := Stored.of_start hcreates hcontext hstep
  have hlater : D.rely ∅ world₅ world₁₀ := D.trans _ _ _ _ hrely₆ (D.trans _ _ _ _ hrely₇
    (D.trans _ _ _ _ hrely₈ (D.trans _ _ _ _ hrely₉ hrely₁₀)))
  have hbetween : D.rely ∅ world₂ world₅ :=
    D.trans _ _ _ _ hrely₃ (D.trans _ _ _ _ hrely₄ hrely₅)
  have hstatus := Database.Consistent.unstarted hworld₁ _ _ hrun ((D.rows
    (D.trans _ _ _ _ hrely₂ hbetween)).unstarted _ hnone)
  have hpending : Pending run request world₂.database := by
    obtain ⟨run', hrun', -, hgrows⟩ := (D.rows hrely₂).grows _ _ hrun
    exact ⟨hstatus, run', hrun', hgrows.imp (fun h => ⟨h.1, fun _ => hrequest⟩) id⟩
  have hpending₁₀ := hpending.rely (D.rows (D.trans _ _ _ _ hbetween hlater))
  have hworld₁₀ := hworld₂.rely (D.trans _ _ _ _ hbetween hlater)
  refine Discipline.wp_bind (wp_synchronize hworld₁₀ ?_ (hsnapshot ▸ hcontext) ?_
    (fun _ _ _ _ => Discipline.fails_of_not_transition) ?_)
  · refine ⟨fun id other hother => ?_, fun id other hother => ?_⟩
    · obtain ⟨rfl, rfl⟩ := get?_set_empty hother
      obtain ⟨stored, hstored, -⟩ := hpending₁₀.run
      exact ⟨rfl, by rw [hstored]; rfl⟩
    · obtain ⟨rfl, rfl⟩ := get?_set_empty hother
      exact ⟨hrequestId, (D.rows (D.trans _ _ _ _ hbetween hlater)).kept _ (by rw [hrequest]; rfl)⟩
  · intro held' unitOfWork' world' loaded loaded' run' request' events hheld hrely hprojected
    exact finishes_started hcreates hcontext hstep rfl (hpending₁₀.rely (D.rows hrely))
      (Dict.get?_set_self _ _ _) (Dict.get?_set_self _ _ _) rfl rfl hprojected
  · intro held' unitOfWork' world' other error hheld hrely hother hotherHeld hne hnot world'' hrely''
      _ _
    have hrunId : after.snapshot.runId = run.id := by rw [hsnapshot]; rfl
    obtain rfl : other = run := by
      rcases hother with h | ⟨h, -⟩ <;> rw [hrunId] at h
      · exact (get?_set_empty h).2
      · replace h : ((Dict.empty : Dict UUID Run).set run.id run).get? run.id = none := h
        rw [Dict.get?_set_self] at h
        cases h
    have hterminal := (not_mem_allowed_of_moving hmoving hstatus).2 hnot
    have hrows := (D.rows hrely).trans (Rely.mono hheld (D.rows hrely''))
    have hended := (D.rows (D.trans _ _ _ _ hrely₂ (D.trans _ _ _ _ hbetween hlater))).trans hrows
    have hunstarted := (D.rows (D.trans _ _ _ _ hrely₂ hbetween)).unstarted _ hnone
    obtain ⟨stored, hstored, ⟨rfl, -⟩ | ⟨-, hlive⟩⟩ := (hpending₁₀.rely hrows).run
    · exact .start hstored hterminal (hended.ended _ _ hrun hterminal hunstarted)
    · rw [hterminal] at hlive
      cases hlive

end

/-- Every call is correct under every discipline. -/
theorem correct {isolation : Isolation} (D : Discipline isolation) (settings : Settings)
    (call : Call) : Correct D settings call := by
  cases call with
  | createRequest => apply createRequest_correct
  | approveRun => apply approveRun_correct
  | cancelRun => apply cancelRun_correct
  | start => apply start_correct
  | beginTask => apply beginTask_correct
  | completeTask => apply completeTask_correct
  | failTask => apply failTask_correct
  | resolveApproval => apply resolveApproval_correct
  | cancel => apply cancel_correct
  | claimNext => apply claimNext_correct
  | heartbeat => apply heartbeat_correct
  | complete => apply complete_correct
  | fail => apply fail_correct
  | recoverExpired => apply recoverExpired_correct

end JbOrchestrator.Application
