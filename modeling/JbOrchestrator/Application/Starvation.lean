import JbOrchestrator.Application.Pinning
import Mathlib.Data.List.MinMax

/-!
# Starvation — what `claim_next` makes of its oldest candidate

`claim_next` takes the oldest READY node that passes the filter and raises when a required input of it
has no artifact.  It answers the call exactly when this one node can be claimed, whatever the others are.
-/

open Lib

namespace JbOrchestrator.Application

open Domain Workflows Infrastructure Infrastructure.Database

/-! ## 1. Candidates -/

/-- Every required input of the node is mapped to a node that has recorded an artifact. -/
def InputsRecorded (db : Database) (execution : WorkflowExecution) (nodeKey : NodeKey) : Prop :=
  ∀ definition reference phasePack, execution.snapshot.node nodeKey = some definition →
    definition.phasePack = some reference → execution.snapshot.phasePack reference = some phasePack →
      ∀ input ∈ phasePack.inputs, input.required = true →
        ∃ mapping ∈ definition.inputMappings, mapping.inputKey = input.key ∧
          ∃ artifact ∈ db.artifacts, artifact.executionId = execution.id ∧
            artifact.producerNodeKey = mapping.sourceNode

/-- The required inputs of the candidate are recorded. -/
def Resolvable (db : Database) (candidate : Candidate) : Prop :=
  ∃ execution, db.executions.get? candidate.executionId = some execution ∧
    InputsRecorded db execution candidate.node.nodeKey

/-- The candidate can be claimed: its inputs are recorded, and it is a task with attempts left. -/
def Claimable (db : Database) (candidate : Candidate) : Prop :=
  Resolvable db candidate ∧
    ∃ execution definition, db.executions.get? candidate.executionId = some execution ∧
      execution.snapshot.node candidate.node.nodeKey = some definition ∧ definition.kind = .task ∧
        candidate.node.attemptCount < definition.maxAttempts

theorem mem_readyCandidates {db : Database} {executorKeys : Option (List String)}
    {candidate : Candidate} (hdb : db.Consistent) (h : candidate ∈ db.readyCandidates executorKeys) :
    ∃ execution, db.executions.get? candidate.executionId = some execution ∧
      execution.nodes.get? candidate.node.nodeKey = some candidate.node ∧
      candidate.node.status = .ready ∧ execution.status = .running ∧ executorKeys ≠ some [] := by
  obtain ⟨execution, key, hrow, hnode, hfilter⟩ := mem_join ((List.mem_insertionSort _).mp h)
  have hkey := (hdb.stored _ _ hrow).sound.nodeKey key _ hnode
  simp only [readyForUpdate, Bool.and_eq_true, decide_eq_true_eq] at hfilter
  refine ⟨execution, hrow, hkey ▸ hnode, hfilter.1.1, hfilter.1.2, ?_⟩
  rintro rfl
  simp at hfilter

/-- Where the engine has kept its invariant, a candidate with recorded inputs can be claimed. -/
theorem claimable_iff {db : Database} {executorKeys : Option (List String)} {candidate : Candidate}
    (hdb : db.Consistent) (h : candidate ∈ db.readyCandidates executorKeys)
    (hinv : ∀ id execution, db.executions.get? id = some execution → execution.Inv) :
    Claimable db candidate ↔ Resolvable db candidate := by
  refine ⟨And.left, fun hresolvable => ⟨hresolvable, ?_⟩⟩
  obtain ⟨execution, hrow, hnode, hready, -⟩ := mem_readyCandidates hdb h
  obtain ⟨definition, hdefinition, hnodeInv⟩ := (hinv _ _ hrow).node hnode
  exact ⟨execution, definition, hrow, hdefinition, hnodeInv.task (.inl hready),
    hnodeInv.ready_attempts hready⟩

/-! ## 2. Statements on their own -/

section

variable {settings : Settings} {world : World} {unitOfWork : UnitOfWork}

theorem serve_perform (statement : Statement) :
    (services settings).serve (perform statement) unitOfWork world =
      .ok (statement.answer world.database (fun _ => false) unitOfWork) := by
  have hexec : (services settings).exec world (fun _ => false) unitOfWork statement =
      some ((statement.answer world.database (fun _ => false) unitOfWork).1,
        (statement.answer world.database (fun _ => false) unitOfWork).2,
        statement.locks world.database fun _ => false) := by
    show statement.exec world.database (fun _ => false) unitOfWork = _
    simp [Statement.exec]
  show (services settings).serve (.ask statement .done) unitOfWork world = _
  simp only [Store.serve, hexec, Option.get_some]

theorem serve_statement {β : Type} {statement : Statement} {reply : statement.Reply}
    {after : UnitOfWork} {f : statement.Reply → Transaction β}
    (h : statement.answer world.database (fun _ => false) unitOfWork = (reply, after)) :
    (services settings).serve (perform statement >>= f) unitOfWork world =
      (services settings).serve (f reply) after world := by
  rw [(services settings).serve_bind, serve_perform, h]

/-- Which inputs of a node have an artifact. -/
theorem exists_latestArtifact {db : Database} {executionId : UUID} {nodeKeys : List NodeKey}
    {nodeKey : NodeKey} :
    (∃ artifact ∈ db.latestArtifacts executionId nodeKeys, artifact.producerNodeKey = nodeKey) ↔
      nodeKey ∈ nodeKeys ∧ ∃ artifact ∈ db.artifacts, artifact.executionId = executionId ∧
        artifact.producerNodeKey = nodeKey := by
  unfold latestArtifacts
  constructor
  · rintro ⟨artifact, hmem, rfl⟩
    rw [List.mem_insertionSort, List.mem_filter, decide_eq_true_eq] at hmem
    exact ⟨hmem.2.2.1, artifact, hmem.1, hmem.2.1, rfl⟩
  · rintro ⟨hkey, artifact, hmem, hid, hproducer⟩
    -- the artifact of the latest visit
    let own := db.artifacts.filter fun artifact =>
      artifact.executionId = executionId ∧ artifact.producerNodeKey = nodeKey
    have hown : artifact ∈ own := List.mem_filter.mpr ⟨hmem, by simp [hid, hproducer]⟩
    obtain ⟨latest, hlatest⟩ : ∃ latest, latest ∈ own.argmax TaskArtifact.visitCount := by
      cases hmax : own.argmax TaskArtifact.visitCount with
      | none =>
        rw [List.argmax_eq_none.mp hmax] at hown
        cases hown
      | some latest => exact ⟨latest, rfl⟩
    have hlatestOwn := List.mem_filter.mp (List.argmax_mem hlatest)
    simp only [decide_eq_true_eq] at hlatestOwn
    refine ⟨latest, ?_, hlatestOwn.2.2⟩
    rw [List.mem_insertionSort, List.mem_filter, decide_eq_true_eq]
    refine ⟨hlatestOwn.1, hlatestOwn.2.1, hlatestOwn.2.2 ▸ hkey, ?_⟩
    intro other hother hotherId hotherProducer
    apply List.le_of_mem_argmax (List.mem_filter.mpr ⟨hother, _⟩) hlatest
    simp [hotherId, hotherProducer, hlatestOwn.2.2]

/-- What the transaction has loaded when it has found its candidate. -/
structure Found (world : World) (unitOfWork : UnitOfWork) (execution : WorkflowExecution) : Prop where
  row : world.database.executions.get? execution.id = some execution
  record : unitOfWork.executions.get? execution.id = some (.ofExecution execution)
  nodes : unitOfWork.nodes.get? execution.id = some execution.nodes
  writes : unitOfWork.writes = []
  keys : execution.nodes.keys.Nodup

theorem getReadyForUpdate_none {executorKeys : Option (List String)}
    (hnone : world.database.readyCandidates executorKeys = []) :
    (services settings).serve (getReadyForUpdate executorKeys) {} world = .ok (none, {}) := by
  unfold getReadyForUpdate
  split
  · rfl
  have hanswer : (Statement.readyCandidates executorKeys).answer world.database (fun _ => false) {} =
      ([], {}) := by
    rw [← hnone]
    rfl
  rw [serve_statement hanswer]
  rfl

variable (settings) in
/-- The oldest candidate is found, with its execution as it is stored. -/
theorem getReadyForUpdate_some {executorKeys : Option (List String)} {candidate : Candidate}
    {rest : List Candidate} (hworld : world.Consistent)
    (hcandidates : world.database.readyCandidates executorKeys = candidate :: rest) :
    ∃ execution unitOfWork, world.database.executions.get? candidate.executionId = some execution ∧
      Found world unitOfWork execution ∧
      (services settings).serve (getReadyForUpdate executorKeys) {} world =
        .ok (some ⟨execution, candidate.node.nodeKey⟩, unitOfWork) := by
  obtain ⟨execution, hrow, hnode, hready, hrunning, hkeys⟩ :=
    mem_readyCandidates hworld (hcandidates ▸ List.mem_cons_self :
      candidate ∈ world.database.readyCandidates executorKeys)
  have hid := Database.Consistent.executionId hworld _ _ hrow
  have hnodup := (Database.Consistent.stored hworld _ _ hrow).keys
  let locked : UnitOfWork :=
    { nodes := Dict.empty.set candidate.executionId ⟨[(candidate.node.nodeKey, candidate.node)]⟩ }
  have hquery : (Statement.readyCandidates executorKeys).answer world.database (fun _ => false) {} =
      (candidate :: rest, {}) := by
    rw [← hcandidates]
    rfl
  have hlock : (services settings).serve (lockFirst (candidate :: rest)) {} world =
      .ok (some candidate, locked) := by
    have hanswer : (Statement.lockCandidate candidate).answer world.database (fun _ => false) {} =
        (true, locked) := by
      simp [Statement.answer, hrow, hrunning, locked]
    show (services settings).serve (perform (.lockCandidate candidate) >>= _) {} world = _
    rw [serve_statement hanswer]
    rfl
  let record := WorkflowExecutionRecord.ofExecution execution
  let loaded : UnitOfWork :=
    { locked with executions := Dict.empty.set candidate.executionId record }
  have hexecution : (Statement.execution candidate.executionId false).answer world.database
      (fun _ => false) locked = (some record, loaded) := by
    simp [Statement.answer, Statement.load, hrow, locked, loaded, record]
  let unitOfWork : UnitOfWork :=
    { loaded with nodes := locked.nodes.set execution.id execution.nodes }
  have hnodes : (Statement.nodes execution.id).answer world.database (fun _ => false) loaded =
      (execution.nodes, unitOfWork) := by
    simp [Statement.answer, hid, hrow, locked, loaded, unitOfWork, overlay_row hnodup hnode]
  refine ⟨execution, unitOfWork, hrow, ⟨hid ▸ hrow, ?_, ?_, rfl, hnodup⟩, ?_⟩
  · rw [hid]
    exact Dict.get?_set_self _ _ _
  · exact Dict.get?_set_self _ _ _
  · unfold getReadyForUpdate
    rw [if_neg hkeys, serve_statement hquery, Store.serve_bind_ok _ hlock]
    show (services settings).serve (perform (.execution candidate.executionId false) >>= _) locked
      world = _
    rw [serve_statement hexecution]
    show (services settings).serve ((perform (.nodes execution.id) >>= _) >>= _) loaded world = _
    rw [Store.serve_bind, serve_statement hnodes]
    rfl

/-! ## 3. Inputs -/

/-- The named inputs of a node with a phase pack. -/
theorem exists_input {db : Database} {executionId : UUID} {mappings : List NodeInputMapping}
    {key : String} :
    (∃ mapping ∈ mappings, mapping.inputKey = key ∧ ∃ artifact,
        (db.latestArtifacts executionId (mappings.map NodeInputMapping.sourceNode).dedup).find?
          (fun artifact => artifact.producerNodeKey = mapping.sourceNode) = some artifact) ↔
      ∃ mapping ∈ mappings, mapping.inputKey = key ∧ ∃ artifact ∈ db.artifacts,
        artifact.executionId = executionId ∧ artifact.producerNodeKey = mapping.sourceNode := by
  apply exists_congr
  intro mapping
  apply and_congr_right
  intro hmapping
  apply and_congr_right
  intro _
  rw [← Option.isSome_iff_exists, List.find?_isSome]
  simp only [decide_eq_true_eq]
  rw [exists_latestArtifact, and_iff_right]
  exact List.mem_dedup.mpr (List.mem_map_of_mem hmapping)

/-- The inputs of a node with a phase pack, from its artifacts. -/
def namedInputs (artifacts : List TaskArtifact) (mappings : List NodeInputMapping) :
    List TaskArtifactInput :=
  mappings.filterMap fun mapping =>
    (artifacts.find? fun artifact => artifact.producerNodeKey = mapping.sourceNode).map
      fun artifact => ⟨mapping.inputKey, artifact⟩

theorem mem_names_namedInputs {artifacts : List TaskArtifact} {mappings : List NodeInputMapping}
    {key : String} :
    key ∈ (namedInputs artifacts mappings).map TaskArtifactInput.name ↔
      ∃ mapping ∈ mappings, mapping.inputKey = key ∧ ∃ artifact,
        artifacts.find? (fun artifact => artifact.producerNodeKey = mapping.sourceNode) =
          some artifact := by
  simp only [namedInputs, List.mem_map, List.mem_filterMap, Option.map_eq_some_iff]
  constructor
  · rintro ⟨input, ⟨mapping, hmapping, artifact, hartifact, rfl⟩, rfl⟩
    exact ⟨mapping, hmapping, rfl, artifact, hartifact⟩
  · rintro ⟨mapping, hmapping, rfl, artifact, hartifact⟩
    exact ⟨_, ⟨mapping, hmapping, artifact, hartifact, rfl⟩, rfl⟩

/-- `missing`. -/
def missingInputs (phasePack : PhasePackDefinition) (names : List String) : List String :=
  ((((phasePack.inputs.filter PhaseInputDefinition.required).map PhaseInputDefinition.key).dedup).filter
    fun key => key ∉ names).insertionSort (· ≤ ·)

theorem missingInputs_eq_nil {phasePack : PhasePackDefinition} {names : List String} :
    missingInputs phasePack names = [] ↔
      ∀ input ∈ phasePack.inputs, input.required = true → input.key ∈ names := by
  unfold missingInputs
  rw [List.eq_nil_iff_forall_not_mem]
  simp only [List.mem_insertionSort, List.mem_filter, List.mem_dedup, List.mem_map, decide_eq_true_eq,
    not_and, not_not]
  constructor
  · intro h input hinput hrequired
    exact h input.key ⟨input, ⟨hinput, hrequired⟩, rfl⟩
  · rintro h key ⟨input, ⟨hinput, hrequired⟩, rfl⟩
    exact h input hinput hrequired

theorem inputsRecorded_iff {db : Database} {execution : WorkflowExecution} {nodeKey : NodeKey}
    {definition : NodeDefinition} {reference : PhasePackReference} {phasePack : PhasePackDefinition}
    (hdefinition : execution.snapshot.node nodeKey = some definition)
    (hreference : definition.phasePack = some reference)
    (hphasePack : execution.snapshot.phasePack reference = some phasePack) :
    InputsRecorded db execution nodeKey ↔
      missingInputs phasePack ((namedInputs (db.latestArtifacts execution.id
        (definition.inputMappings.map NodeInputMapping.sourceNode).dedup)
          definition.inputMappings).map TaskArtifactInput.name) = [] := by
  rw [missingInputs_eq_nil]
  simp only [mem_names_namedInputs, exists_input]
  constructor
  · intro h
    exact h definition reference phasePack hdefinition hreference hphasePack
  · intro h definition' reference' phasePack' hdefinition' hreference' hphasePack'
    obtain rfl := Option.some.inj (hdefinition.symm.trans hdefinition')
    obtain rfl := Option.some.inj (hreference.symm.trans hreference')
    obtain rfl := Option.some.inj (hphasePack.symm.trans hphasePack')
    exact h

variable (settings world unitOfWork) in
/-- Resolving the inputs succeeds exactly when they are recorded. -/
theorem resolveArtifactInputs_serves {execution : WorkflowExecution} {nodeKey : NodeKey}
    {definition : NodeDefinition} (hpinned : Pinned execution.snapshot)
    (hdefinition : execution.snapshot.node nodeKey = some definition) :
    (InputsRecorded world.database execution nodeKey ∧ ∃ inputs,
      (services settings).serve (TaskDispatchService.resolveArtifactInputs execution nodeKey) unitOfWork
        world = .ok (inputs, unitOfWork)) ∨
    (¬InputsRecorded world.database execution nodeKey ∧ ∃ error,
      (services settings).serve (TaskDispatchService.resolveArtifactInputs execution nodeKey) unitOfWork
        world = .error error) := by
  unfold TaskDispatchService.resolveArtifactInputs
  rw [Store.serve_bind_ok _ (Store.serve_ofOption _ hdefinition)]
  cases hreference : definition.phasePack with
  | none =>
    refine .inl ⟨?_, _, rfl⟩
    intro definition' reference phasePack hdefinition' hreference'
    obtain rfl := Option.some.inj (hdefinition.symm.trans hdefinition')
    rw [hreference] at hreference'
    cases hreference'
  | some reference =>
    obtain ⟨phasePack, hphasePack⟩ :=
      hpinned.phasePack definition (WorkflowGraph.node_mem hdefinition) reference hreference
    have hrecorded := @inputsRecorded_iff world.database _ _ _ _ _ hdefinition hreference hphasePack
    dsimp only
    rw [Store.serve_bind_ok _ (Store.serve_ofOption _ hphasePack), serve_statement rfl]
    dsimp only [Statement.answer]
    split
    · rename_i hmissing
      exact .inr ⟨fun h => hmissing (hrecorded.mp h), _, rfl⟩
    · rename_i hmissing
      exact .inl ⟨hrecorded.mpr (not_not.mp hmissing), _, rfl⟩

/-! ## 4. Claiming the candidate -/

variable (settings world unitOfWork) in
theorem nodePhasePack_serves {execution : WorkflowExecution} {nodeKey : NodeKey}
    {definition : NodeDefinition} (hpinned : Pinned execution.snapshot)
    (hdefinition : execution.snapshot.node nodeKey = some definition) :
    ∃ phasePack : Option PhasePackDefinition,
      (services settings).serve (nodePhasePack execution.snapshot definition) unitOfWork world =
        .ok (phasePack, unitOfWork) ∧
      ∀ value, phasePack = some value → value ∈ execution.snapshot.phasePacks := by
  unfold nodePhasePack
  cases hreference : definition.phasePack with
  | none => exact ⟨none, rfl, fun value h => by cases h⟩
  | some reference =>
    obtain ⟨phasePack, hphasePack⟩ :=
      hpinned.phasePack definition (WorkflowGraph.node_mem hdefinition) reference hreference
    refine ⟨some phasePack, ?_, ?_⟩
    · dsimp only
      rw [Store.serve_bind_ok _ (Store.serve_ofOption _ hphasePack)]
      rfl
    · intro value hvalue
      obtain rfl := Option.some.inj hvalue
      exact List.mem_of_find?_eq_some hphasePack

variable (settings world unitOfWork) in
theorem skills_serve {execution : WorkflowExecution} {nodeKey : NodeKey} {definition : NodeDefinition}
    {phasePack : Option PhasePackDefinition} (hpinned : Pinned execution.snapshot)
    (hdefinition : execution.snapshot.node nodeKey = some definition)
    (hphasePack : ∀ value, phasePack = some value → value ∈ execution.snapshot.phasePacks) :
    ∃ skills, (services settings).serve (Program.forEach
      (fun reference : String × ℕ => (Program.ofOption stopIteration
        (execution.snapshot.skill ⟨reference.1, reference.2⟩) : Transaction SkillDefinition))
      (sortReferences ((definition.skills ++
        (phasePack.map PhasePackDefinition.skills).getD []).map fun reference =>
          (reference.key, reference.version)))) unitOfWork world = .ok (skills, unitOfWork) := by
  apply (services settings).serve_forEach
  intro pair hpair
  obtain ⟨reference, hreference, rfl⟩ := List.mem_map.mp (mem_sortReferences.mp hpair)
  obtain ⟨skill, hskill⟩ : ∃ skill, execution.snapshot.skill reference = some skill := by
    rcases List.mem_append.mp hreference with hnode | hpack
    · exact hpinned.skill definition (WorkflowGraph.node_mem hdefinition) reference hnode
    · cases phasePack with
      | none => cases hpack
      | some value => exact hpinned.packSkill value (hphasePack value rfl) reference hpack
  exact ⟨skill, Store.serve_ofOption _ hskill⟩

/-- The engine begins a ready task that has attempts left. -/
theorem claim_step {execution : WorkflowExecution} {nodeKey : NodeKey} {node : NodeExecution}
    {definition : NodeDefinition} {workerId : String} {leaseSeconds : ℕ} {token : UUID}
    {changedAt : Instant} (hnode : execution.nodes.get? nodeKey = some node)
    (hdefinition : execution.snapshot.node nodeKey = some definition) (hkind : definition.kind = .task)
    (hready : node.status = .ready) (hattempts : node.attemptCount < definition.maxAttempts)
    (hworker : Text.isBlank workerId = false) (hlease : 1 ≤ leaseSeconds) :
    engine.step execution (.claimTask nodeKey workerId leaseSeconds token changedAt) =
      (⟨.ok (), []⟩, execution.claimed nodeKey workerId token
        (changedAt + WorkflowEngine.seconds leaseSeconds) changedAt) := by
  have hrun : WorkflowEngine.claimTask nodeKey workerId leaseSeconds token changedAt
      { execution := execution } = .ok () ⟨execution.claimed nodeKey workerId token
        (changedAt + WorkflowEngine.seconds leaseSeconds) changedAt, []⟩ := by
    have hbegin : WorkflowEngine.beginTask nodeKey changedAt { execution := execution } =
        .ok () ⟨execution.begun nodeKey changedAt, []⟩ := by
      have hfound : WorkflowEngine.nodeExecution nodeKey { execution := execution } =
          .ok node { execution := execution } := WorkflowEngine.nodeExecution_apply _ hnode
      have hnamed : WorkflowEngine.nodeDefinition nodeKey { execution := execution } =
          .ok definition { execution := execution } :=
        WorkflowEngine.nodeDefinition_apply { execution := execution } hdefinition
      simp only [WorkflowEngine.beginTask, WorkflowEngine.bind_apply, hfound, hnamed,
        WorkflowEngine.raiseIf, hkind, hready, ne_eq, not_true_eq_false, or_self, if_false,
        WorkflowEngine.pure_apply, ge_iff_le, not_le.mpr hattempts]
      rfl
    unfold WorkflowEngine.claimTask
    simp only [WorkflowEngine.bind_apply, WorkflowEngine.raiseIf, hworker, not_lt.mpr hlease, if_false,
      Bool.false_eq_true, WorkflowEngine.pure_apply, hbegin]
    rfl
  show Operation.step execution _ = _
  unfold Operation.step
  rw [show (Operation.claimTask nodeKey workerId leaseSeconds token changedAt).call
    { execution := execution } = _ from hrun]

/-- What the engine makes of the node that it begins. -/
theorem claim_begins {execution : WorkflowExecution} {nodeKey : NodeKey} {node : NodeExecution}
    {definition : NodeDefinition} {leaseSeconds : ℕ} (workerId : String) (token : UUID)
    (changedAt : Instant) (hnode : execution.nodes.get? nodeKey = some node)
    (hdefinition : execution.snapshot.node nodeKey = some definition) (hkind : definition.kind = .task)
    (hready : node.status = .ready) (hattempts : node.attemptCount < definition.maxAttempts)
    (hworker : Text.isBlank workerId = false) (hlease : 1 ≤ leaseSeconds) :
    ∃ after begun, engine.step execution (.claimTask nodeKey workerId leaseSeconds token changedAt) =
        (⟨.ok (), []⟩, after) ∧ after.snapshot = execution.snapshot ∧ after.id = execution.id ∧
      after.nodes.get? nodeKey = some begun ∧ begun.leaseToken = some token := by
  refine ⟨_, (node.beginAttempt changedAt).lease workerId token
    (changedAt + WorkflowEngine.seconds leaseSeconds),
    claim_step hnode hdefinition hkind hready hattempts hworker hlease, rfl, rfl, ?_, rfl⟩
  rw [WorkflowExecution.claimed_nodes, Dict.get?_modify_self, hnode, Option.map_some]

/-- What is saved can be committed: nobody has changed the row. -/
theorem flush_saved {execution current : WorkflowExecution} {event : DomainEvent}
    (hfound : Found world unitOfWork execution) (hid : current.id = execution.id) :
    ∃ saved, (Statement.saveExecution current).answer world.database (fun _ => false) unitOfWork =
        ((), saved) ∧
      ∃ database, ((Statement.append event).answer world.database (fun _ => false) saved).2.flush
        world.database = .ok database := by
  have hloaded : (Statement.load unitOfWork.executions current.id
      ((world.database.executions.get? current.id).map WorkflowExecutionRecord.ofExecution)).1 =
        some (.ofExecution execution) := by
    rw [hid]
    unfold Statement.load
    rw [hfound.record]
  refine ⟨_, Prod.ext rfl rfl, ?_⟩
  simp only [Statement.answer, hloaded]
  unfold UnitOfWork.flush
  simp only [hfound.writes, List.nil_append, List.foldlM_cons, List.foldlM_nil, Write.apply, hid,
    hfound.row]
  rw [if_pos (by rfl)]
  exact ⟨_, rfl⟩

theorem applyOperation_serves {execution after : WorkflowExecution} {operation : Operation}
    {calls : List ActivateCall} (hstep : engine.step execution operation = (⟨.ok (), calls⟩, after)) :
    (services settings).serve (applyOperation execution operation) unitOfWork world =
      .ok (after, unitOfWork) := by
  unfold applyOperation
  rw [hstep]
  rfl

variable (settings world unitOfWork) in
/-- A node that is no task or has no attempt left is not begun. -/
theorem claim_refused {execution : WorkflowExecution} {nodeKey : NodeKey} {node : NodeExecution}
    {definition : NodeDefinition} (workerId : String) (leaseSeconds : ℕ) (token : UUID)
    (changedAt : Instant) (hstored : Stored execution) (hnode : execution.nodes.get? nodeKey = some node)
    (hdefinition : execution.snapshot.node nodeKey = some definition)
    (hnot : ¬(definition.kind = .task ∧ node.attemptCount < definition.maxAttempts)) :
    ∃ error, (services settings).serve (applyOperation execution
      (.claimTask nodeKey workerId leaseSeconds token changedAt)) unitOfWork world = .error error := by
  unfold applyOperation
  rcases step_spec hstored.sound hstored.active
    (.claimTask nodeKey workerId leaseSeconds token changedAt) with
    ⟨message, hstep⟩ | ⟨calls, after, hstep, heffect⟩
  · rw [hstep]
    exact ⟨_, rfl⟩
  · cases heffect with
    | claimTask hnode' hdefinition' hkind _ hattempts =>
      obtain rfl := Option.some.inj (hnode.symm.trans hnode')
      obtain rfl := Option.some.inj (hdefinition.symm.trans hdefinition')
      exact absurd ⟨hkind, hattempts⟩ hnot

variable (settings) in
/-- The transaction on a candidate that was found claims it or raises. -/
theorem claimCandidate_serves {execution : WorkflowExecution} {candidate : Candidate}
    {workerId : String} (token : UUID) (changedAt : Instant) (hworld : world.Consistent)
    (hpinned : Pinned execution.snapshot) (hfound : Found world unitOfWork execution)
    (hid : candidate.executionId = execution.id)
    (hnode : execution.nodes.get? candidate.node.nodeKey = some candidate.node)
    (hready : candidate.node.status = .ready) (hworker : Text.isBlank workerId = false) :
    (Claimable world.database candidate ∧ ∃ claim after database,
      (services settings).serve (TaskDispatchService.claimCandidate settings
        ⟨execution, candidate.node.nodeKey⟩ workerId token changedAt) unitOfWork world =
          .ok (claim, after) ∧ after.flush world.database = .ok database) ∨
    (¬Claimable world.database candidate ∧ ∃ error,
      (services settings).serve (TaskDispatchService.claimCandidate settings
        ⟨execution, candidate.node.nodeKey⟩ workerId token changedAt) unitOfWork world =
          .error error) := by
  have hstored := Database.Consistent.stored hworld _ _ hfound.row
  obtain ⟨definition, hdefinition⟩ := WorkflowEngine.exists_definition hstored.sound hnode
  obtain ⟨phasePack, hphasePack, hpack⟩ :=
    nodePhasePack_serves settings world unitOfWork hpinned hdefinition
  unfold TaskDispatchService.claimCandidate
  dsimp only
  rw [Store.serve_bind_ok _ (Store.serve_ofOption _ hdefinition), Store.serve_bind_ok _ hphasePack]
  have hrow : world.database.executions.get? candidate.executionId = some execution :=
    hid ▸ hfound.row
  rcases resolveArtifactInputs_serves settings world unitOfWork hpinned hdefinition with
    ⟨hrecorded, inputs, hinputs⟩ | ⟨hmissing, error, herror⟩
  · rw [Store.serve_bind_ok _ hinputs]
    by_cases hcan : definition.kind = .task ∧ candidate.node.attemptCount < definition.maxAttempts
    · refine .inl ⟨⟨⟨execution, hrow, hrecorded⟩, execution, definition, hrow, hdefinition, hcan⟩, ?_⟩
      have hlease : 1 ≤ TaskDispatchService.leaseSeconds settings definition :=
        Nat.le_add_left_of_le settings.grace_pos
      generalize TaskDispatchService.leaseSeconds settings definition = leaseSeconds at hlease ⊢
      obtain ⟨after, begun, hstep, hsnapshot, hafterId, hbegun, htoken⟩ := claim_begins
        workerId token changedAt hnode hdefinition hcan.1 hready hcan.2 hworker hlease
      obtain ⟨skills, hskills⟩ := skills_serve settings world unitOfWork hpinned hdefinition hpack
      rw [← hsnapshot] at hskills
      obtain ⟨saved, hsaved, database, hflush⟩ := flush_saved hfound hafterId
      rw [Store.serve_bind_ok _ (applyOperation_serves hstep),
        Store.serve_bind_ok _ (Store.serve_ofOption _ hbegun),
        Store.serve_bind_ok _ (Store.serve_ofOption _ htoken), Store.serve_bind_ok _ hskills,
        serve_statement hsaved, serve_statement rfl]
      exact ⟨_, _, database, rfl, hflush⟩
    · obtain ⟨error, herror⟩ := claim_refused settings world unitOfWork workerId
        (TaskDispatchService.leaseSeconds settings definition) token changedAt hstored hnode hdefinition
        hcan
      refine .inr ⟨?_, error, Store.serve_bind_error _ herror⟩
      rintro ⟨-, execution', definition', hrow', hdefinition', hcan'⟩
      obtain rfl := Option.some.inj (hrow.symm.trans hrow')
      obtain rfl := Option.some.inj (hdefinition.symm.trans hdefinition')
      exact hcan hcan'
  · refine .inr ⟨?_, error, Store.serve_bind_error _ herror⟩
    rintro ⟨⟨execution', hrow', hrecorded⟩, -⟩
    obtain rfl := Option.some.inj (hrow.symm.trans hrow')
    exact hmissing hrecorded

end

/-! ## 5. The call -/

/-- `claim_next`, alone on the committed rows, hands out a claim. -/
def ClaimsNext (settings : Settings) (world : World) (workerId : String)
    (executorKeys : Option (List String)) (token : UUID) (changedAt : Instant) : Prop :=
  ∃ claim world', (services settings).call world (.claimNext workerId executorKeys token changedAt) =
    .ok (.claim (some claim), world')

section

variable {settings : Settings} {world : World} {workerId : String}
  {executorKeys : Option (List String)} {token : UUID} {changedAt : Instant}

/-- The call from what its program returns. -/
theorem call_claimNext {claim : Option TaskClaim} {after : UnitOfWork} {database : Database}
    (h : (services settings).serve (TaskDispatchService.claimNext settings workerId executorKeys token
      changedAt) {} world = .ok (claim, after)) (hflush : after.flush world.database = .ok database) :
    (services settings).call world (.claimNext workerId executorKeys token changedAt) =
      .ok (.claim claim, ⟨database, world.history ++
        [(.claimNext workerId executorKeys token changedAt, .claim claim)]⟩) := by
  have hprogram : (services settings).serve (Call.program settings
      (.claimNext workerId executorKeys token changedAt)) {} world = .ok (.claim claim, after) := by
    unfold Call.program
    rw [Store.serve_bind_ok _ h]
    rfl
  unfold Store.call
  rw [show (services settings).program = Call.program settings from rfl,
    show (services settings).start = {} from rfl, hprogram]
  show Except.map _ ((after.flush world.database).map _) = _
  rw [hflush]
  rfl

theorem call_claimNext_error {error : ServiceError}
    (h : (services settings).serve (TaskDispatchService.claimNext settings workerId executorKeys token
      changedAt) {} world = .error error) :
    (services settings).call world (.claimNext workerId executorKeys token changedAt) =
      .error error := by
  have hprogram : (services settings).serve (Call.program settings
      (.claimNext workerId executorKeys token changedAt)) {} world = .error error := by
    unfold Call.program
    exact Store.serve_bind_error _ h
  unfold Store.call
  rw [show (services settings).program = Call.program settings from rfl,
    show (services settings).start = {} from rfl, hprogram]

/-- The oldest candidate decides. -/
theorem claimNext_iff (hworld : world.Consistent) (hpinned : Database.Pinned world.database)
    (hworker : Text.isBlank workerId = false) :
    ClaimsNext settings world workerId executorKeys token changedAt ↔
      ∃ oldest rest, world.database.readyCandidates executorKeys = oldest :: rest ∧
        Claimable world.database oldest := by
  cases hcandidates : world.database.readyCandidates executorKeys with
  | nil =>
    have hserve : (services settings).serve (TaskDispatchService.claimNext settings workerId
        executorKeys token changedAt) {} world = .ok (none, {}) := by
      unfold TaskDispatchService.claimNext
      rw [Store.serve_bind_ok _ (getReadyForUpdate_none hcandidates)]
      rfl
    constructor
    · rintro ⟨claim, world', hcall⟩
      rw [call_claimNext hserve rfl] at hcall
      cases hcall
    · rintro ⟨oldest, rest, hnil, -⟩
      cases hnil
  | cons oldest rest =>
    obtain ⟨execution, unitOfWork, hrow, hfound, hready⟩ :=
      getReadyForUpdate_some settings hworld hcandidates
    obtain ⟨execution', hrow', hnode, hstatus, -⟩ := mem_readyCandidates hworld
      (hcandidates ▸ List.mem_cons_self : oldest ∈ world.database.readyCandidates executorKeys)
    obtain rfl := Option.some.inj (hrow.symm.trans hrow')
    have hid := (Database.Consistent.executionId hworld _ _ hrow).symm
    rcases claimCandidate_serves settings token changedAt hworld (hpinned _ _ hrow) hfound hid hnode
      hstatus hworker with
      ⟨hclaimable, claim, after, database, hserve, hflush⟩ | ⟨hnot, error, herror⟩
    · have hcall : (services settings).serve (TaskDispatchService.claimNext settings workerId
          executorKeys token changedAt) {} world = .ok (some claim, after) := by
        unfold TaskDispatchService.claimNext
        rw [Store.serve_bind_ok _ hready]
        dsimp only
        rw [Store.serve_bind_ok _ hserve]
        rfl
      exact iff_of_true ⟨claim, _, call_claimNext hcall hflush⟩ ⟨oldest, rest, rfl, hclaimable⟩
    · have hcall : (services settings).serve (TaskDispatchService.claimNext settings workerId
          executorKeys token changedAt) {} world = .error error := by
        unfold TaskDispatchService.claimNext
        rw [Store.serve_bind_ok _ hready]
        exact Store.serve_bind_error _ herror
      apply iff_of_false
      · rintro ⟨claim, world', hclaim⟩
        rw [call_claimNext_error hcall] at hclaim
        cases hclaim
      · rintro ⟨oldest', rest', hcons, hclaimable⟩
        obtain ⟨rfl, -⟩ := List.cons.inj hcons
        exact hnot hclaimable

end

/-! ## 6. Runs -/

/-- Some candidate has its inputs recorded: then a worker that asks gets a claim. -/
def Serves (settings : Settings) (world : World) (workerId : String)
    (executorKeys : Option (List String)) (token : UUID) (changedAt : Instant) : Prop :=
  (∃ candidate ∈ world.database.readyCandidates executorKeys, Resolvable world.database candidate) →
    ClaimsNext settings world workerId executorKeys token changedAt

/-- Some candidate has its inputs recorded: then the oldest one can be claimed. -/
def OldestClaimable (db : Database) (executorKeys : Option (List String)) : Prop :=
  (∃ candidate ∈ db.readyCandidates executorKeys, Resolvable db candidate) →
    ∃ oldest rest, db.readyCandidates executorKeys = oldest :: rest ∧ Claimable db oldest

/-- In whatever the sessions have committed, `claim_next` serves the queue exactly when the oldest
candidate can be claimed; without stale node rows that means that its required inputs are recorded. -/
theorem claim_next_serves_iff (settings : Settings) {world : World} (hblank : Blank world.database)
    (hhistory : world.history = []) (inputs : List (Store.Input Call)) {workerId : String}
    (hworker : Text.isBlank workerId = false) (executorKeys : Option (List String)) (token : UUID)
    (changedAt : Instant) :
    (Serves settings ((services settings).machine.run ((services settings).initial world) inputs).shared
        workerId executorKeys token changedAt ↔
      OldestClaimable ((services settings).machine.run ((services settings).initial world)
        inputs).shared.database executorKeys) ∧
    ((∀ t ∈ (services settings).machine.trace ((services settings).initial world) inputs,
        (services settings).Guarded freshCandidate t) →
      ∀ candidate ∈ ((services settings).machine.run ((services settings).initial world)
        inputs).shared.database.readyCandidates executorKeys,
        (Claimable ((services settings).machine.run ((services settings).initial world)
            inputs).shared.database candidate ↔
          Resolvable ((services settings).machine.run ((services settings).initial world)
            inputs).shared.database candidate)) := by
  have hconsistent := (@interleaved_spec settings ⟨False, False⟩ world hblank.aligned.consistent inputs
    (fun h => h.elim) fun h => h.elim).1
  have hpinned := interleaved_pinned settings hblank inputs
  constructor
  · exact imp_congr_right fun _ => claimNext_iff hconsistent hpinned hworker
  · intro hfresh candidate hcandidate
    have hdispatched := (interleaved_dispatched settings hblank hhistory hfresh).1
    exact claimable_iff hconsistent hcandidate hdispatched.inv

/-! ### A source that was not visited -/

def reviewPack : PhasePackDefinition where
  key := "review"
  version := 1
  name := "Review"
  description := "d"
  instructions := "i"
  inputs := [{ key := "draft", description := "d" }]

/-- The review needs the draft, which `triage` may skip. -/
def skippedDraft : WorkflowDefinition where
  key := "skipped-draft"
  version := 1
  entryNode := "triage"
  nodes := [
    { key := "triage", kind := .task },
    { key := "draft", kind := .task },
    { key := "review", kind := .task, phasePack := some ⟨"review", 1⟩,
      inputMappings := [⟨"draft", "draft"⟩] },
    { key := "done", kind := .terminal, terminalStatus := some .succeeded }]
  edges := [⟨"triage", .success, "draft", none⟩, ⟨"triage", .failure, "review", none⟩,
    ⟨"draft", .success, "review", none⟩, ⟨"review", .success, "done", none⟩]

def twoWorkflows : World where
  database := {
    registry := {
      definitions := [⟨skippedDraft, by decide +kernel⟩, acceptedSingleTask]
      phasePacks := [reviewPack] }
    projects := ⟨[(1, { id := 1, key := "p", name := "p", repositoryUrl := "u" })]⟩ }

theorem blank_twoWorkflows : Blank twoWorkflows.database := ⟨rfl, rfl, rfl, rfl⟩

/-- Every call is a session of its own that runs to its end. -/
def oneByOne (calls : List Call) : List (Store.Input Call) :=
  calls.zipIdx.flatMap fun call => .«open» call.2 call.1 :: List.replicate 24 (.advance call.2)

/-- Two workflows are started; `outcome` is the one of the triage in the first. -/
def triageCalls (outcome : NodeOutcome) : List Call :=
  [.createRequest 1 "prompt" none 10 20 0, .start 20 "skipped-draft" none 30 (fun _ => 0) 1,
    .beginTask 30 "triage" 2, .completeTask 30 "triage" outcome none 40 3,
    .createRequest 1 "prompt" none 11 21 4, .start 21 "single-task" none 31 (fun _ => 0) 5]

def triaged (outcome : NodeOutcome) : World :=
  ((services lenient).machine.run ((services lenient).initial twoWorkflows)
    (oneByOne (triageCalls outcome))).shared

/-- The candidate has no phase pack. -/
def plain (db : Database) (candidate : Candidate) : Bool :=
  (db.executions.get? candidate.executionId).any fun execution =>
    (execution.snapshot.node candidate.node.nodeKey).any fun definition => definition.phasePack = none

/-- Such a candidate has no required inputs. -/
theorem resolvable_of_plain {db : Database} {candidate : Candidate}
    (h : plain db candidate = true) : Resolvable db candidate := by
  unfold plain at h
  rw [Option.any_eq_true] at h
  obtain ⟨execution, hrow, h⟩ := h
  rw [Option.any_eq_true] at h
  obtain ⟨definition, hdefinition, hplain⟩ := h
  refine ⟨execution, hrow, ?_⟩
  intro definition' reference phasePack hdefinition' hreference
  obtain rfl := Option.some.inj (hdefinition.symm.trans hdefinition')
  rw [decide_eq_true_eq.mp hplain] at hreference
  cases hreference

/-- The triage asks for the draft: the draft can be claimed. -/
theorem claim_next_serves_iff_triaged : ClaimsNext lenient (triaged .success) "a" none 77 6 := by
  have hmeets : ∀ t ∈ (services lenient).machine.trace ((services lenient).initial twoWorkflows)
      (oneByOne (triageCalls .success)), (services lenient).meets locksFresh t = true := by
    decide +kernel
  have hplain : ((triaged .success).database.readyCandidates none).head?.any
      (plain (triaged .success).database) = true := by
    decide +kernel
  have hfresh : ∀ t ∈ (services lenient).machine.trace ((services lenient).initial twoWorkflows)
      (oneByOne (triageCalls .success)), (services lenient).Guarded freshCandidate t :=
    fun t ht => Store.guarded_of_meets (fun _ _ _ _ => freshCandidate_of_locks) (hmeets t ht)
  obtain ⟨hserves, hclaimable⟩ := claim_next_serves_iff lenient blank_twoWorkflows rfl
    (oneByOne (triageCalls .success)) (by decide : Text.isBlank "a" = false) none 77 6
  replace hclaimable := hclaimable hfresh
  unfold triaged at hplain ⊢
  -- nothing below depends on the run
  generalize ((services lenient).machine.run _ _).shared = reached at hplain hserves hclaimable ⊢
  obtain ⟨oldest, hhead, hplain⟩ := (Option.any_eq_true _ _).mp hplain
  obtain ⟨rest, hcandidates⟩ := List.head?_eq_some_iff.mp hhead
  have hmem : oldest ∈ reached.database.readyCandidates none := hcandidates ▸ List.mem_cons_self
  have hresolvable := resolvable_of_plain hplain
  have holdest := (hclaimable oldest hmem).mpr hresolvable
  exact hserves.mpr (fun _ => ⟨oldest, rest, hcandidates, holdest⟩) ⟨oldest, hmem, hresolvable⟩

/-- The triage routes past the draft: the review is ready without it, and no worker gets the task of the
other workflow. -/
theorem review_blocks_queue :
    ¬∀ (settings : Settings) (world : World), Blank world.database → world.history = [] →
      ∀ inputs workerId, Text.isBlank workerId = false → ∀ executorKeys token changedAt,
        Serves settings ((services settings).machine.run ((services settings).initial world)
          inputs).shared workerId executorKeys token changedAt := by
  intro hclaim
  have hraises : ((services lenient).call (triaged .failure) (.claimNext "a" none 77 6)).isOk = false := by
    decide +kernel
  have hplain : ((triaged .failure).database.readyCandidates none).any
      (plain (triaged .failure).database) = true := by
    decide +kernel
  obtain ⟨candidate, hmem, hplain⟩ := List.any_eq_true.mp hplain
  have hserves : Serves lenient (triaged .failure) "a" none 77 6 :=
    hclaim lenient twoWorkflows blank_twoWorkflows rfl _ "a" (by decide) none 77 6
  obtain ⟨claim, world', hcall⟩ := hserves ⟨candidate, hmem, resolvable_of_plain hplain⟩
  rw [hcall] at hraises
  cases hraises

end JbOrchestrator.Application
