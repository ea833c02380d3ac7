import JbOrchestrator.Application.Commits

/-!
# Consistency — commits keep the tables consistent

A transaction loads an execution, perhaps with an older row of its candidate, and the commit writes
the columns that changed; what is stored stays sound.  `Changes` says row by row what a commit does,
and `Commits.spec` concludes that every commit keeps the tables consistent and that sessions which
hold other row locks can rely on it.
-/

open Lib

namespace JbOrchestrator

open Domain Workflows Infrastructure

namespace Application

open Infrastructure.Database

/-! ## 1. Loading and merging executions -/

theorem effect_of_step {execution after : WorkflowExecution} {operation : Operation}
    {calls : List ActivateCall} (hsound : execution.Sound) (hactive : execution.ActiveLive)
    (hstep : engine.step execution operation = (⟨.ok (), calls⟩, after)) :
    Effect execution operation calls after := by
  rcases step_spec hsound hactive operation with ⟨message, herror⟩ | ⟨calls', after', hok, heffect⟩
  · rw [hstep] at herror
    cases herror
  · rw [hstep] at hok
    cases hok
    exact heffect

section

variable {isolation : Isolation} {stored loaded after : WorkflowExecution} {operation : Operation}
  {calls : List ActivateCall}

theorem get?_singleton (row : NodeExecution) (key : NodeKey) :
    (⟨[(row.nodeKey, row)]⟩ : Dict NodeKey NodeExecution).get? key =
      if row.nodeKey = key then some row else none := by
  simp only [Dict.get?, List.find?_cons, List.find?_nil]
  split <;> simp_all

theorem Loads.sameShape (h : Loads isolation stored operation loaded) (hstored : stored.Sound) :
    WorkflowExecution.SameShape stored loaded := by
  cases h with
  | locked => exact WorkflowExecution.SameShape.refl stored
  | @candidate row =>
    refine ⟨rfl, rfl, Dict.keys_mapEntries _ _, fun key => ?_⟩
    show ((stored.nodes.mapEntries _).get? key).map _ = _
    rw [Dict.get?_mapEntries, Option.map_map]
    cases hnode : stored.nodes.get? key with
    | none => rfl
    | some node =>
      have hkey := hstored.nodeKey key node hnode
      simp only [Option.map_some, Function.comp_apply, get?_singleton]
      split
      · rename_i hrow
        simp [hrow, hkey]
      · rfl

theorem Loads.isStored (h : Loads isolation stored operation loaded) (hstored : Stored stored) :
    Stored loaded := by
  have hshape := h.sameShape hstored.sound
  refine ⟨hshape.sound hstored.sound, hshape.keys ▸ hstored.keys, ?_, ?_,
    hshape.snapshot ▸ hstored.context⟩
  · cases h with
    | locked => exact hstored.active
    | candidate _ hrunning =>
      exact WorkflowExecution.ActiveLive.of_live (by
        show stored.status.isTerminal = false
        rw [hrunning]
        rfl)
  · cases h with
    | locked => exact hstored.started
    | candidate _ hrunning => simp [hrunning]

/-- The row of a candidate is the one that is stored. -/
theorem overlay_row {stored : Dict NodeKey NodeExecution} {row : NodeExecution}
    (hkeys : stored.keys.Nodup) (hrow : stored.get? row.nodeKey = some row) :
    Statement.overlay stored ⟨[(row.nodeKey, row)]⟩ = stored := by
  refine Dict.mapEntries_of_eq _ _ fun key node hentry => ?_
  rw [get?_singleton]
  split
  · rename_i hkey
    have hnode := Dict.get?_of_mem_entries hkeys hentry
    rw [← hkey, hrow] at hnode
    exact Option.some.inj hnode
  · rfl

/-- Without stale node rows a transaction loads the committed execution. -/
theorem Loads.eq (h : Loads isolation stored operation loaded) (hfresh : isolation.freshNodes)
    (hkeys : stored.nodes.keys.Nodup) : loaded = stored := by
  cases h with
  | locked => rfl
  | @candidate row _ _ hrow =>
    rw [overlay_row hkeys (hrow hfresh)]

/-- A claim or an expiry changes the status of its node. -/
theorem status_ne_of_candidate {key : NodeKey} {node node' : NodeExecution}
    (h : Effect loaded operation calls after) (hkey : candidateKey operation = some key)
    (hnode : loaded.nodes.get? key = some node) (hnode' : after.nodes.get? key = some node') :
    node'.status ≠ node.status := by
  cases h with
  | @claimTask key' workerId leaseSeconds leaseToken changedAt found _ hfound _ _ hready =>
    obtain rfl : key' = key := Option.some.inj hkey
    rw [WorkflowExecution.claimed_nodes, Dict.get?_modify_self, hnode, Option.map_some] at hnode'
    obtain rfl := Option.some.inj (hfound.symm.trans hnode)
    obtain rfl := Option.some.inj hnode'
    simp [NodeExecution.lease, NodeExecution.beginAttempt, hready]
  | @expireTask key' changedAt _ found _ _ hfound _ hrunning _ _ hhandled =>
    obtain rfl : key' = key := Option.some.inj hkey
    obtain rfl := Option.some.inj (hfound.symm.trans hnode)
    cases hhandled with
    | retried =>
      replace hnode' : (loaded.nodes.modify key' fun node => node.retry changedAt).get? key' =
        some node' := hnode'
      rw [Dict.get?_modify_self, hnode, Option.map_some] at hnode'
      obtain rfl := Option.some.inj hnode'
      simp [NodeExecution.retry, hrunning]
    | givenUp =>
      replace hnode' : ((loaded.nodes.modify key' fun node => node.giveUp changedAt).mapValues
        fun node => node.cancel changedAt).get? key' = some node' := hnode'
      rw [Dict.get?_mapValues, Dict.get?_modify_self, hnode, Option.map_some, Option.map_some]
        at hnode'
      obtain rfl := Option.some.inj hnode'
      simp [NodeExecution.giveUp, NodeExecution.cancel, NodeExecutionStatus.isActive, hrunning]
  | _ => cases hkey

/-- The node rows after a commit have the statuses that the operation left. -/
theorem mergeExecution_node (h : Loads isolation stored operation loaded)
    (heffect : Effect loaded operation calls after) {key : NodeKey} {node : NodeExecution}
    (hnode : (mergeExecution stored loaded after).nodes.get? key = some node) :
    ∃ node', after.nodes.get? key = some node' ∧ node.status = node'.status ∧
      node.nodeKey = node'.nodeKey := by
  simp only [mergeExecution, Dict.get?_mapEntries, Option.map_eq_some_iff] at hnode
  obtain ⟨node', hafter, rfl⟩ := hnode
  refine ⟨node', hafter, ?_⟩
  cases hs : stored.nodes.get? key with
  | none => exact ⟨rfl, rfl⟩
  | some storedNode =>
    cases hl : loaded.nodes.get? key with
    | none => exact ⟨rfl, rfl⟩
    | some loadedNode =>
      refine ⟨?_, rfl⟩
      show column storedNode.status loadedNode.status node'.status = node'.status
      cases h with
      | locked =>
        obtain rfl := Option.some.inj (hs.symm.trans hl)
        exact column_self _ _
      | @candidate row hkey =>
        replace hl : (stored.nodes.mapEntries _).get? key = some loadedNode := hl
        rw [Dict.get?_mapEntries, hs, Option.map_some, get?_singleton] at hl
        split at hl
        · rename_i hrow
          rw [hrow] at hkey
          refine if_neg (status_ne_of_candidate heffect hkey ?_ hafter)
          show (stored.nodes.mapEntries _).get? key = some loadedNode
          rw [Dict.get?_mapEntries, hs, Option.map_some, get?_singleton, if_pos hrow]
          exact hl
        · obtain rfl := Option.some.inj hl
          exact column_self _ _

theorem mergeExecution_sameShape (h : Loads isolation stored operation loaded)
    (hstored : stored.Sound) (heffect : Effect loaded operation calls after) :
    WorkflowExecution.SameShape stored (mergeExecution stored loaded after) := by
  have hshape := (h.sameShape hstored).trans heffect.sameShape
  refine ⟨rfl, rfl, (Dict.keys_mapEntries _ _).trans hshape.keys, fun key => ?_⟩
  rw [← hshape.nodeKeys key]
  show ((after.nodes.mapEntries _).get? key).map _ = _
  rw [Dict.get?_mapEntries, Option.map_map]
  cases after.nodes.get? key with
  | none => rfl
  | some node =>
    simp only [Option.map_some, Function.comp_apply, Option.some.injEq]
    split <;> rfl

/-- A commit keeps what holds of every stored execution. -/
theorem Stored.merge (hstored : Stored stored) (h : Loads isolation stored operation loaded)
    (heffect : Effect loaded operation calls after) :
    Stored (mergeExecution stored loaded after) := by
  have hloaded := h.isStored hstored
  have hshape := mergeExecution_sameShape h hstored.sound heffect
  refine ⟨hshape.sound hstored.sound, hshape.keys ▸ hstored.keys, ?_, ?_, hstored.context⟩
  · intro key node hnode hactive
    obtain ⟨node', hnode', hstatus, -⟩ := mergeExecution_node h heffect hnode
    exact heffect.activeLive hloaded.active key node' hnode' (hstatus ▸ hactive)
  · exact heffect.started hloaded.sound hloaded.active hloaded.started

end

/-- A workflow that has just been started. -/
theorem Stored.of_start {definition : AcceptedDefinition} {created after : WorkflowExecution}
    {now : Instant} {calls : List ActivateCall} (hcreates : definition.Creates created)
    (hcontext : created.snapshot.requestContext ≠ none)
    (hstep : engine.step created (.start now) = (⟨.ok (), calls⟩, after)) :
    Stored after ∧ after.snapshot = created.snapshot ∧ after.id = created.id ∧
      after.status.isMoving = true := by
  have hinv := hcreates.inv
  have heffect := effect_of_step hinv.sound hinv.active hstep
  have hshape := heffect.sameShape
  have hkeys : created.nodes.keys.Nodup := by
    have hgraph := definition.wellFormed.keys_nodup
    obtain ⟨runId, requestContext, phasePacks, skills, selections, id, nodeId, now, rfl⟩ := hcreates
    simpa [WorkflowExecution.create, WorkflowSnapshot.fromDefinition, Dict.ofList, Dict.keys,
      WorkflowGraph.keys, Function.comp_def] using hgraph
  have hmoving := heffect.start_moving hinv.sound
  exact ⟨⟨hshape.sound hinv.sound, hshape.keys ▸ hkeys, heffect.activeLive hinv.active,
    WorkflowStatus.ne_pending_of_isMoving hmoving, hshape.snapshot ▸ hcontext⟩, hshape.snapshot,
    hshape.id, hmoving⟩

/-! ## 2. Row changes -/

/-- What became of a run row: nothing, nor of its request while it has no execution, or a later
version of a run that had not ended. -/
def Grows (db db' : Database) (id : UUID) (run : Run) : Prop :=
  ∃ run', db'.runs.get? id = some run' ∧ run'.requestId = run.requestId ∧
    (run' = run ∧ (db'.Unstarted id →
        db'.requests.get? run.requestId = db.requests.get? run.requestId) ∨
      run.version < run'.version ∧ run.status.isTerminal = false)

/-- What the commits of others leave to a session that holds row locks. -/
structure Rely (held : Set RowLock) (db db' : Database) : Prop where
  consistent : db.Consistent → db'.Consistent
  executions : ∀ id execution, .execution id ∈ held → db.executions.get? id = some execution →
    db'.executions.get? id = some execution
  requests : ∀ id request, .request id ∈ held → db.requests.get? id = some request →
    db'.requests.get? id = some request
  runs : ∀ id run, .run id ∈ held → db.runs.get? id = some run → db'.runs.get? id = some run
  kept : ∀ id, (db.requests.get? id).isSome → (db'.requests.get? id).isSome
  settled : ∀ id, .run id ∈ held → db.Unstarted id → db'.Unstarted id
  unstarted : ∀ id, db'.Unstarted id → db.Unstarted id
  ended : ∀ id run, db.runs.get? id = some run → run.status.isTerminal = true →
    db.Unstarted id → db'.Unstarted id
  grows : ∀ id run, db.runs.get? id = some run → Grows db db' id run

theorem Rely.refl (held : Set RowLock) (db : Database) : Rely held db db where
  consistent h := h
  executions _ _ _ h := h
  requests _ _ _ h := h
  runs _ _ _ h := h
  kept _ h := h
  settled _ _ h := h
  unstarted _ h := h
  ended _ _ _ _ h := h
  grows _ run hrun := ⟨run, hrun, rfl, .inl ⟨rfl, fun _ => rfl⟩⟩

theorem Rely.trans {held : Set RowLock} {db db' db'' : Database} (h : Rely held db db')
    (h' : Rely held db' db'') : Rely held db db'' where
  consistent hdb := h'.consistent (h.consistent hdb)
  executions id execution hheld hrow := h'.executions id _ hheld (h.executions id _ hheld hrow)
  requests id request hheld hrow := h'.requests id _ hheld (h.requests id _ hheld hrow)
  runs id run hheld hrow := h'.runs id _ hheld (h.runs id _ hheld hrow)
  kept id hrow := h'.kept id (h.kept id hrow)
  settled id hheld hrow := h'.settled id hheld (h.settled id hheld hrow)
  unstarted id hrow := h.unstarted id (h'.unstarted id hrow)
  ended id run hrun hterminal hnone := by
    have hnone' := h.ended id run hrun hterminal hnone
    obtain ⟨run', hrun', -, ⟨rfl, -⟩ | ⟨-, hlive⟩⟩ := h.grows id run hrun
    · exact h'.ended id run' hrun' hterminal hnone'
    · rw [hterminal] at hlive
      cases hlive
  grows id run hrun := by
    obtain ⟨run', hrun', hrequest', hgrows⟩ := h.grows id run hrun
    obtain ⟨run'', hrun'', hrequest'', hgrows'⟩ := h'.grows id run' hrun'
    refine ⟨run'', hrun'', hrequest''.trans hrequest', ?_⟩
    rcases hgrows with ⟨rfl, hsame⟩ | ⟨hversion, hlive⟩
    · rcases hgrows' with ⟨rfl, hsame'⟩ | hlater
      · exact .inl ⟨rfl, fun hrow => (hsame' hrow).trans (hsame (h'.unstarted id hrow))⟩
      · exact .inr hlater
    · rcases hgrows' with ⟨rfl, -⟩ | ⟨hversion', -⟩
      · exact .inr ⟨hversion, hlive⟩
      · exact .inr ⟨hversion.trans hversion', hlive⟩

theorem Rely.mono {held held' : Set RowLock} {db db' : Database} (hheld : held ⊆ held')
    (h : Rely held' db db') : Rely held db db' where
  consistent := h.consistent
  executions _ _ hmem := h.executions _ _ (hheld hmem)
  requests _ _ hmem := h.requests _ _ (hheld hmem)
  runs _ _ hmem := h.runs _ _ (hheld hmem)
  kept := h.kept
  settled _ hmem := h.settled _ (hheld hmem)
  unstarted := h.unstarted
  ended := h.ended
  grows := h.grows

/-- What became of the row of an execution. -/
inductive ExecutionChange (held : Set RowLock) (db : Database) (id : UUID) :
    Option WorkflowExecution → Prop where
  | same : ExecutionChange held db id (db.executions.get? id)
  | inserted {execution : WorkflowExecution} (hnew : db.executions.get? id = none)
    (hid : execution.id = id) (hstored : Stored execution)
    (hrun : ∃ run, db.runs.get? execution.snapshot.runId = some run ∧
      run.status.isTerminal = false)
    (hunstarted : db.Unstarted execution.snapshot.runId)
    (hheld : .run execution.snapshot.runId ∈ held) :
    ExecutionChange held db id (some execution)
  | updated {stored execution : WorkflowExecution} (hold : db.executions.get? id = some stored)
    (hid : execution.id = id) (hstored : Stored execution)
    (hrun : execution.snapshot.runId = stored.snapshot.runId) (hheld : .execution id ∈ held) :
    ExecutionChange held db id (some execution)

/-- What became of a run row. -/
inductive RunChange (held : Set RowLock) (db db' : Database) (id : UUID) : Option Run → Prop where
  | same : RunChange held db db' id (db.runs.get? id)
  | updated {run run' : Run} (hold : db.runs.get? id = some run) (hid : run'.id = id)
    (hrequest : run'.requestId = run.requestId) (hversion : run.version < run'.version)
    (hlive : run.status.isTerminal = false) (hheld : .run id ∈ held)
    (hunstarted : db'.Unstarted id → run'.status = .cancelled) :
    RunChange held db db' id (some run')

/-- What became of a request row; a request without an execution changes with its run. -/
inductive RequestChange (held : Set RowLock) (db db' : Database) (id : UUID) :
    Option UserRequest → Prop where
  | same : RequestChange held db db' id (db.requests.get? id)
  | updated {request request' : UserRequest} {run : Run} (hold : db.requests.get? id = some request)
    (hid : request'.id = id) (hheld : .request id ∈ held) (hrun : db.runs.get? run.id = some run)
    (hrequest : run.requestId = id)
    (hunstarted : db'.Unstarted run.id → db'.runs.get? run.id ≠ some run) :
    RequestChange held db db' id (some request')

/-- A commit of a session with these locks that creates neither a request nor a run. -/
structure Changes (held : Set RowLock) (db db' : Database) : Prop where
  executions : ∀ id, ExecutionChange held db id (db'.executions.get? id)
  runs : ∀ id, RunChange held db db' id (db'.runs.get? id)
  requests : ∀ id, RequestChange held db db' id (db'.requests.get? id)
  single : ∀ id id', db.executions.get? id = none → db.executions.get? id' = none →
    (db'.executions.get? id).isSome → (db'.executions.get? id').isSome → id = id'

namespace Changes

variable {held : Set RowLock} {db db' : Database} (h : Changes held db db')
include h

theorem execution_cases {id : UUID} {execution : WorkflowExecution}
    (hrow : db'.executions.get? id = some execution) (hdb : db.Consistent) :
    execution.id = id ∧ Stored execution ∧
      (db.runs.get? execution.snapshot.runId).isSome ∧
      ((∃ stored, db.executions.get? id = some stored ∧
          stored.snapshot.runId = execution.snapshot.runId) ∨
        db.Unstarted execution.snapshot.runId ∧ db.executions.get? id = none) := by
  have hchange := h.executions id
  rw [hrow] at hchange
  generalize hvalue : some execution = value at hchange
  cases hchange with
  | same =>
    exact ⟨hdb.executionId id _ hvalue.symm, hdb.stored id _ hvalue.symm,
      hdb.executionRun id _ hvalue.symm, .inl ⟨execution, hvalue.symm, rfl⟩⟩
  | inserted hnew hid hstored hrun hunstarted =>
    cases hvalue
    obtain ⟨run, hrow, -⟩ := hrun
    exact ⟨hid, hstored, by rw [hrow]; rfl, .inr ⟨hunstarted, hnew⟩⟩
  | updated hold hid hstored hrun =>
    cases hvalue
    exact ⟨hid, hstored, hrun ▸ hdb.executionRun id _ hold, .inl ⟨_, hold, hrun.symm⟩⟩

/-- An execution keeps its row and its run. -/
theorem execution_kept {id : UUID} {stored : WorkflowExecution}
    (hrow : db.executions.get? id = some stored) :
    ∃ execution, db'.executions.get? id = some execution ∧
      execution.snapshot.runId = stored.snapshot.runId ∧
      (.execution id ∉ held → execution = stored) := by
  have hchange := h.executions id
  generalize hvalue : db'.executions.get? id = value at hchange
  cases hchange with
  | same => exact ⟨stored, hrow, rfl, fun _ => rfl⟩
  | inserted hnew => rw [hnew] at hrow; cases hrow
  | updated hold _ _ hrun hheld =>
    obtain rfl := Option.some.inj (hold.symm.trans hrow)
    exact ⟨_, rfl, hrun, fun hnot => absurd hheld hnot⟩

theorem unstarted {id : UUID} (hrow : db'.Unstarted id) : db.Unstarted id := by
  intro id' stored hstored
  obtain ⟨execution, hexecution, hrun, -⟩ := h.execution_kept hstored
  exact hrun ▸ hrow id' execution hexecution

theorem run_kept {id : UUID} {run : Run} (hrow : db.runs.get? id = some run) :
    ∃ run', db'.runs.get? id = some run' ∧ run'.requestId = run.requestId ∧
      (run' = run ∨ run.version < run'.version ∧ run.status.isTerminal = false ∧
        .run id ∈ held) := by
  have hchange := h.runs id
  generalize hvalue : db'.runs.get? id = value at hchange
  cases hchange with
  | same => exact ⟨run, hrow, rfl, .inl rfl⟩
  | updated hold _ hrequest hversion hlive hheld =>
    obtain rfl := Option.some.inj (hold.symm.trans hrow)
    exact ⟨_, rfl, hrequest, .inr ⟨hversion, hlive, hheld⟩⟩

theorem run_from {id : UUID} {run' : Run} (hrow : db'.runs.get? id = some run') :
    ∃ run, db.runs.get? id = some run ∧ run'.requestId = run.requestId ∧
      (run' = run ∨ run'.id = id ∧ (db'.Unstarted id → run'.status = .cancelled)) := by
  have hchange := h.runs id
  rw [hrow] at hchange
  generalize hvalue : some run' = value at hchange
  cases hchange with
  | same => exact ⟨run', hvalue.symm, rfl, .inl rfl⟩
  | updated hold hid hrequest _ _ _ hunstarted =>
    cases hvalue
    exact ⟨_, hold, hrequest, .inr ⟨hid, hunstarted⟩⟩

theorem request_kept {id : UUID} (hrow : (db.requests.get? id).isSome) :
    (db'.requests.get? id).isSome := by
  have hchange := h.requests id
  generalize db'.requests.get? id = value at hchange
  cases hchange with
  | same => exact hrow
  | updated => rfl

theorem consistent (hdb : db.Consistent) : db'.Consistent where
  runId id run' hrow := by
    obtain ⟨run, hrun, -, rfl | ⟨hid, -⟩⟩ := h.run_from hrow
    · exact hdb.runId id _ hrun
    · exact hid
  requestId id request' hrow := by
    have hchange := h.requests id
    rw [hrow] at hchange
    generalize hvalue : some request' = value at hchange
    cases hchange with
    | same => exact hdb.requestId id _ hvalue.symm
    | updated _ hid => cases hvalue; exact hid
  executionId id execution hrow := (h.execution_cases hrow hdb).1
  runRequest id run' hrow := by
    obtain ⟨run, hrun, hrequest, -⟩ := h.run_from hrow
    exact hrequest ▸ h.request_kept (hdb.runRequest id run hrun)
  requestRun id id' run run' hrow hrow' heq := by
    obtain ⟨run₀, hrun, hrequest, -⟩ := h.run_from hrow
    obtain ⟨run₀', hrun', hrequest', -⟩ := h.run_from hrow'
    exact hdb.requestRun id id' _ _ hrun hrun' (by rw [← hrequest, ← hrequest', heq])
  executionRun id execution hrow := by
    obtain ⟨-, -, hsome, -⟩ := h.execution_cases hrow hdb
    obtain ⟨run, hrun⟩ := Option.isSome_iff_exists.mp hsome
    obtain ⟨run', hrun', -⟩ := h.run_kept hrun
    rw [hrun']
    rfl
  executionUnique id id' execution execution' hrow hrow' heq := by
    obtain ⟨-, -, -, ⟨stored, hstored, hrun⟩ | ⟨hnone, hnew⟩⟩ := h.execution_cases hrow hdb <;>
      obtain ⟨-, -, -, ⟨stored', hstored', hrun'⟩ | ⟨hnone', hnew'⟩⟩ := h.execution_cases hrow' hdb
    · exact hdb.executionUnique id id' _ _ hstored hstored' (by rw [hrun, hrun', heq])
    · exact absurd (hrun.trans heq) (hnone' id stored hstored)
    · exact absurd (hrun'.trans heq.symm) (hnone id' stored' hstored')
    · exact h.single id id' hnew hnew' (by rw [hrow]; rfl) (by rw [hrow']; rfl)
  stored id execution hrow := (h.execution_cases hrow hdb).2.1
  unstarted id run' hrow hnone := by
    obtain ⟨run, hrun, -, rfl | ⟨-, hcancelled⟩⟩ := h.run_from hrow
    · exact hdb.unstarted id _ hrun (h.unstarted hnone)
    · exact .inr (hcancelled hnone)

/-- The others lose none of the rows that they have locked. -/
theorem rely (hdb : db.Consistent) {held' : Set RowLock} (hdisjoint : Disjoint held held') :
    Rely held' db db' where
  consistent := h.consistent
  executions id execution hheld hrow := by
    obtain ⟨execution', hrow', -, hsame⟩ := h.execution_kept hrow
    rw [hrow', hsame fun hmem => Set.disjoint_left.mp hdisjoint hmem hheld]
  requests id request hheld hrow := by
    have hchange := h.requests id
    generalize db'.requests.get? id = value at hchange
    cases hchange with
    | same => exact hrow
    | updated _ _ hmem => exact absurd hheld (Set.disjoint_left.mp hdisjoint hmem)
  runs id run hheld hrow := by
    obtain ⟨run', hrow', -, rfl | ⟨-, -, hmem⟩⟩ := h.run_kept hrow
    · exact hrow'
    · exact absurd hheld (Set.disjoint_left.mp hdisjoint hmem)
  kept _ := h.request_kept
  settled id hheld hnone id' execution hrow := by
    have hchange := h.executions id'
    rw [hrow] at hchange
    generalize hvalue : some execution = value at hchange
    cases hchange with
    | same => exact hnone id' execution hvalue.symm
    | inserted _ _ _ _ _ hmem =>
      cases hvalue
      rintro rfl
      exact Set.disjoint_left.mp hdisjoint hmem hheld
    | updated hold _ _ hrun =>
      cases hvalue
      exact hrun ▸ hnone id' _ hold
  unstarted _ := h.unstarted
  ended id run hrun hterminal hnone id' execution hrow := by
    have hchange := h.executions id'
    rw [hrow] at hchange
    generalize hvalue : some execution = value at hchange
    cases hchange with
    | same => exact hnone id' execution hvalue.symm
    | inserted _ _ _ hrun' =>
      cases hvalue
      rintro rfl
      obtain ⟨run', hrow', hlive⟩ := hrun'
      obtain rfl := Option.some.inj (hrow'.symm.trans hrun)
      rw [hterminal] at hlive
      cases hlive
    | updated hold _ _ hrun' =>
      cases hvalue
      exact hrun' ▸ hnone id' _ hold
  grows id run hrun := by
    obtain ⟨run', hrun', hrequest, rfl | ⟨hversion, hlive, -⟩⟩ := h.run_kept hrun
    · refine ⟨run', hrun', rfl, .inl ⟨rfl, fun hnone => ?_⟩⟩
      have hchange := h.requests run'.requestId
      generalize hvalue : db'.requests.get? run'.requestId = value at hchange
      cases hchange with
      | same => rfl
      | @updated request request' other _ _ _ hother hsame hchanged =>
        -- the request belongs to this run alone, whose row is the same
        have hid := hdb.requestRun _ _ _ _ hother hrun hsame
        rw [hid] at hother hchanged
        obtain rfl := Option.some.inj (hother.symm.trans hrun)
        exact absurd hrun' (hchanged hnone)
    · exact ⟨run', hrun', hrequest, .inr ⟨hversion, hlive⟩⟩

end Changes

/-! ## 3. Commits as row changes -/

section

variable {execution : WorkflowExecution} {run after : Run} {request : UserRequest}
  {run' : Option Run} {request' : Option UserRequest} {events : List DomainEvent}

theorem isTerminal_eq_false_of_mem {status target : RunStatus}
    (h : target ∈ allowedRunTransitions status) : status.isTerminal = false := by
  cases status <;> first | rfl | cases h

theorem not_mem_allowed_of_moving {status : WorkflowStatus} {runStatus : RunStatus}
    (hmoving : status.isMoving = true) (hrun : runStatus = .queued ∨ runStatus = .cancelled) :
    runStatus ≠ runStatusByWorkflow status ∧
      (runStatusByWorkflow status ∉ allowedRunTransitions runStatus →
        runStatus.isTerminal = true) := by
  rcases hrun with rfl | rfl <;> cases status <;>
    simp_all [WorkflowStatus.isMoving, runStatusByWorkflow, allowedRunTransitions,
      RunStatus.isTerminal]

theorem followExecution_ok (h : followExecution execution run = .ok after) :
    after.status = runStatusByWorkflow execution.status ∧ after.id = run.id ∧
      after.requestId = run.requestId ∧ after.version = run.version + 1 ∧
      runStatusByWorkflow execution.status ∈ allowedRunTransitions run.status := by
  unfold followExecution at h
  split at h
  · rename_i hfailed
    obtain ⟨hallowed, hstatus, hid, hrequest, hversion⟩ := Run.fail_ok h
    exact ⟨hstatus.trans hfailed.symm, hid, hrequest, hversion, hfailed ▸ hallowed⟩
  · obtain ⟨hallowed, hstatus, hid, hrequest, hversion⟩ := Run.transitionTo_ok h
    exact ⟨hstatus, hid, hrequest, hversion, hallowed⟩

theorem RunFollows.some (h : RunFollows execution run run' events) (hrun' : run' = some after) :
    after.status = runStatusByWorkflow execution.status ∧ after.id = run.id ∧
      after.requestId = run.requestId ∧ run.version < after.version ∧
      run.status.isTerminal = false := by
  cases h with
  | same => cases hrun'
  | changed _ hafter =>
    cases hrun'
    obtain ⟨hstatus, hid, hrequest, hversion, hallowed⟩ := followExecution_ok hafter
    exact ⟨hstatus, hid, hrequest, hversion ▸ Nat.lt_succ_self _,
      isTerminal_eq_false_of_mem hallowed⟩

theorem RequestFollows.columns (h : RequestFollows execution run request request' events) :
    ∀ changed, request' = some changed →
      ∃ status changedAt, request.setStatus status changedAt = .ok changed := by
  rintro changed rfl
  cases h with
  | completed _ _ hafter => exact ⟨_, _, hafter⟩
  | cancelled _ _ hafter => exact ⟨_, _, hafter⟩

theorem RequestFollows.id_eq {changed : UserRequest}
    (h : RequestFollows execution run request request' events) (hrequest' : request' = some changed) :
    changed.id = request.id := by
  obtain ⟨status, changedAt, hset⟩ := h.columns changed hrequest'
  exact (UserRequest.setStatus_ok hset).2.2

end

section

variable {isolation : Isolation} {held held' : Set RowLock} {db db' : Database}

theorem Database.not_unstarted {id : UUID} {execution : WorkflowExecution}
    (h : db.executions.get? id = some execution) : ¬db.Unstarted execution.snapshot.runId :=
  fun hnone => hnone id execution h rfl

theorem Changes.of_updates {executions : Dict UUID WorkflowExecution} {run : Option Run}
    {request : Option UserRequest} {artifacts : List TaskArtifact} {events : List DomainEvent}
    (hupdates : Updates db db' executions run request artifacts events)
    (hexecutions : ∀ id, ExecutionChange held db id (executions.get? id))
    (hsingle : ∀ id id', db.executions.get? id = none → db.executions.get? id' = none →
      (executions.get? id).isSome → (executions.get? id').isSome → id = id')
    (hrun : ∀ changed, run = some changed → RunChange held db db' changed.id (some changed))
    (hrequest : ∀ changed, request = some changed →
      RequestChange held db db' changed.id (some changed)) : Changes held db db' where
  executions id := hupdates.executions ▸ hexecutions id
  single := hupdates.executions ▸ hsingle
  runs id := by
    rw [hupdates.runs]
    cases run with
    | none => exact .same
    | some changed =>
      show RunChange held db db' id ((db.runs.set changed.id changed).get? id)
      rw [Dict.get?_set]
      split
      · rename_i hid
        exact hid ▸ hrun changed rfl
      · exact .same
  requests id := by
    rw [hupdates.requests]
    cases request with
    | none => exact .same
    | some changed =>
      show RequestChange held db db' id ((db.requests.set changed.id changed).get? id)
      rw [Dict.get?_set]
      split
      · rename_i hid
        exact hid ▸ hrequest changed rfl
      · exact .same

/-- A workflow starts on a run that has not ended, and locks it. -/
theorem Synchronized.of_start {execution : WorkflowExecution} {run : Option Run}
    {request : Option UserRequest} {events : List DomainEvent} (hdb : db.Consistent)
    (h : Synchronized held db execution run request events)
    (hmoving : execution.status.isMoving = true)
    (hunstarted : db.Unstarted execution.snapshot.runId) :
    (∃ run, db.runs.get? execution.snapshot.runId = some run ∧ run.status = .queued) ∧
      .run execution.snapshot.runId ∈ held := by
  cases h with
  | @mk run _ _ _ _ _ hrun hheld _ _ hfollows =>
    refine ⟨⟨run, hrun, ?_⟩, hheld⟩
    rcases hdb.unstarted _ _ hrun hunstarted with hqueued | hcancelled
    · exact hqueued
    · cases hfollows with
      | same hsame => exact absurd hsame (not_mem_allowed_of_moving hmoving (.inr hcancelled)).1
      | changed _ hafter =>
        have hlive := isTerminal_eq_false_of_mem (followExecution_ok hafter).2.2.2.2
        rw [hcancelled] at hlive
        cases hlive

/-- The rows of a commit that stores one execution and synchronizes its lifecycle. -/
theorem Changes.of_execution (hdb : db.Consistent) (execution after : WorkflowExecution)
    {run : Option Run} {request : Option UserRequest} {artifacts : List TaskArtifact}
    {events : List DomainEvent}
    (hupdates : Updates db db' (db.executions.set execution.id execution) run request artifacts
      events)
    (hexecution : ExecutionChange held db execution.id (some execution))
    (hsnapshot : after.snapshot = execution.snapshot)
    (hsync : (∃ events, Synchronized held db after run request events) ∨
      run = none ∧ request = none) : Changes held db db' := by
  have hstarted : ¬db'.Unstarted after.snapshot.runId := by
    rw [hsnapshot]
    have hself : db'.executions.get? execution.id = some execution := by
      rw [hupdates.executions, Dict.get?_set_self]
    exact Database.not_unstarted hself
  refine Changes.of_updates hupdates ?_ ?_ ?_ ?_
  · intro id
    rw [Dict.get?_set]
    split
    · rename_i hid
      exact hid ▸ hexecution
    · exact .same
  · have hnew : ∀ id, db.executions.get? id = none →
        ((db.executions.set execution.id execution).get? id).isSome → id = execution.id := by
      intro id hnone hsome
      by_contra hne
      rw [Dict.get?_set_of_ne _ _ hne, hnone] at hsome
      cases hsome
    intro id id' hnone hnone' hsome hsome'
    rw [hnew id hnone hsome, hnew id' hnone' hsome']
  · rintro changed rfl
    obtain ⟨_, hsync⟩ | ⟨hnone, -⟩ := hsync
    · cases hsync with
      | @mk run _ _ _ _ _ hrun hheld _ _ hfollows _ =>
        obtain ⟨-, hid, hrequest, hversion, hlive⟩ := hfollows.some rfl
        rw [hdb.runId _ _ hrun] at hid
        rw [hid]
        exact .updated hrun hid hrequest hversion hlive hheld fun hnone => absurd hnone hstarted
    · cases hnone
  · rintro changed rfl
    obtain ⟨_, hsync⟩ | ⟨-, hnone⟩ := hsync
    · cases hsync with
      | @mk run request _ _ _ _ hrun _ hrequest hheld' _ hfollows' =>
        have hid := hfollows'.id_eq rfl
        rw [hdb.requestId _ _ hrequest] at hid
        have hown := hdb.runId _ _ hrun
        rw [hid]
        exact .updated hrequest hid hheld' (hown.symm ▸ hrun) rfl
          fun hnone => absurd (hown ▸ hnone) hstarted
    · cases hnone

/-! ## 4. Commits -/

section Requested

variable {run : Run} {request : UserRequest} {artifacts : List TaskArtifact}
  {events : List DomainEvent} (hdb : db.Consistent)
  (hrequest : db.requests.get? request.id = none) (hrun : db.runs.get? run.id = none)
  (hreference : run.requestId = request.id)
  (hupdates : Updates db db' db.executions (some run) (some request) artifacts events)

include hupdates in
theorem Updates.unstarted_iff (id : UUID) : db'.Unstarted id ↔ db.Unstarted id := by
  unfold Database.Unstarted
  rw [hupdates.executions]

include hupdates in
theorem Updates.get?_run (id : UUID) :
    db'.runs.get? id = if id = run.id then some run else db.runs.get? id := by
  rw [hupdates.runs]
  exact Dict.get?_set _ _ _ _

include hupdates in
theorem Updates.get?_request (id : UUID) :
    db'.requests.get? id = if id = request.id then some request else db.requests.get? id := by
  rw [hupdates.requests]
  exact Dict.get?_set _ _ _ _

include hdb hrequest in
theorem requestId_ne_of_new {id : UUID} {other : Run} (hother : db.runs.get? id = some other) :
    other.requestId ≠ request.id := by
  intro heq
  have hsome := hdb.runRequest id other hother
  rw [heq, hrequest] at hsome
  cases hsome

include hdb hrequest hreference hupdates

/-- A new request with its run keeps the tables consistent. -/
theorem Updates.consistent_requested (hqueued : run.status = .queued) : db'.Consistent where
  runId id other hother := by
    rw [hupdates.get?_run] at hother
    split at hother
    · rename_i hid
      obtain rfl := Option.some.inj hother
      exact hid.symm
    · exact hdb.runId id other hother
  requestId id other hother := by
    rw [hupdates.get?_request] at hother
    split at hother
    · rename_i hid
      obtain rfl := Option.some.inj hother
      exact hid.symm
    · exact hdb.requestId id other hother
  executionId id execution hrow := hdb.executionId id execution (hupdates.executions ▸ hrow)
  runRequest id other hother := by
    rw [hupdates.get?_request]
    split
    · rfl
    · rename_i hne
      rw [hupdates.get?_run] at hother
      split at hother
      · obtain rfl := Option.some.inj hother
        exact absurd hreference hne
      · exact hdb.runRequest id other hother
  requestRun id id' other other' hother hother' heq := by
    rw [hupdates.get?_run] at hother hother'
    split at hother <;> split at hother'
    · rename_i hid hid'
      exact hid.trans hid'.symm
    · obtain rfl := Option.some.inj hother
      exact absurd (heq.symm.trans hreference) (requestId_ne_of_new hdb hrequest hother')
    · obtain rfl := Option.some.inj hother'
      exact absurd (heq.trans hreference) (requestId_ne_of_new hdb hrequest hother)
    · exact hdb.requestRun id id' other other' hother hother' heq
  executionRun id execution hrow := by
    have hsome := hdb.executionRun id execution (hupdates.executions ▸ hrow)
    rw [hupdates.get?_run]
    split
    · rfl
    · exact hsome
  executionUnique id id' execution execution' hrow hrow' :=
    hdb.executionUnique id id' execution execution' (hupdates.executions ▸ hrow)
      (hupdates.executions ▸ hrow')
  stored id execution hrow := hdb.stored id execution (hupdates.executions ▸ hrow)
  unstarted id other hother hnone := by
    rw [hupdates.get?_run] at hother
    split at hother
    · obtain rfl := Option.some.inj hother
      exact .inl hqueued
    · exact hdb.unstarted id other hother ((hupdates.unstarted_iff id).mp hnone)

include hrun in
theorem Updates.rely_requested (hqueued : run.status = .queued) : Rely held db db' where
  consistent _ := hupdates.consistent_requested hdb hrequest hreference hqueued
  executions id execution _ hrow := hupdates.executions ▸ hrow
  requests id other _ hother := by
    rw [hupdates.get?_request, if_neg]
    · exact hother
    · rintro rfl
      rw [hrequest] at hother
      cases hother
  runs id other _ hother := by
    rw [hupdates.get?_run, if_neg]
    · exact hother
    · rintro rfl
      rw [hrun] at hother
      cases hother
  kept id hrow := by
    rw [hupdates.get?_request]
    split
    · rfl
    · exact hrow
  settled id _ hnone := (hupdates.unstarted_iff id).mpr hnone
  unstarted id hnone := (hupdates.unstarted_iff id).mp hnone
  ended id _ _ _ hnone := (hupdates.unstarted_iff id).mpr hnone
  grows id other hother := by
    refine ⟨other, ?_, rfl, .inl ⟨rfl, fun _ => ?_⟩⟩
    · rw [hupdates.get?_run, if_neg]
      · exact hother
      · rintro rfl
        rw [hrun] at hother
        cases hother
    · rw [hupdates.get?_request, if_neg (requestId_ne_of_new hdb hrequest hother)]

end Requested

/-- A commit keeps the tables consistent, and other sessions may rely on their locks. -/
theorem Commits.spec {call : Call} {result : Result} (hdb : db.Consistent)
    (h : Commits isolation held db db' call result) :
    db'.Consistent ∧ ∀ held', Disjoint held held' → Rely held' db db' := by
  have hchanges : Changes held db db' → db'.Consistent ∧ ∀ held', Disjoint held held' →
      Rely held' db db' :=
    fun hchanges => ⟨hchanges.consistent hdb, fun _ => hchanges.rely hdb⟩
  cases h with
  | idle _ hupdates =>
    refine hchanges (Changes.of_updates hupdates (fun _ => .same) ?_ ?_ ?_)
    · intro id _ hnone _ hsome
      rw [hnone] at hsome
      cases hsome
    · rintro changed hnone
      cases hnone
    · rintro changed hnone
      cases hnone
  | requested hrequest hrun hreference _ hqueued hupdates =>
    exact ⟨hupdates.consistent_requested hdb hrequest hreference hqueued,
      fun _ _ => hupdates.rely_requested hdb hrequest hrun hreference hqueued⟩
  | started hcreates hcontext hstep hnew hunstarted hsync hupdates =>
    obtain ⟨hstored, hsnapshot, hid, hmoving⟩ := Stored.of_start hcreates hcontext hstep
    rw [← hid] at hupdates hnew
    rw [← hsnapshot] at hunstarted
    obtain ⟨⟨run, hrun, hqueued⟩, hheld⟩ := hsync.of_start hdb hmoving hunstarted
    refine hchanges (Changes.of_execution hdb _ _ hupdates ?_ rfl (.inl ⟨_, hsync⟩))
    exact .inserted hnew rfl hstored ⟨run, hrun, by rw [hqueued]; rfl⟩ hunstarted hheld
  | @cancelled now runId run run' request request' _ hrun hheld hrequest hheld' _ hrun' hrequest' _
      hupdates =>
    obtain ⟨hallowed, hstatus, hid, hreference, hversion⟩ := Run.transitionTo_ok hrun'
    have hid' := (UserRequest.setStatus_ok hrequest').2.2
    rw [hdb.runId _ _ hrun] at hid
    rw [hdb.requestId _ _ hrequest] at hid'
    refine hchanges (Changes.of_updates hupdates (fun _ => .same) ?_ ?_ ?_)
    · intro id _ hnone _ hsome
      rw [hnone] at hsome
      cases hsome
    · rintro changed ⟨⟩
      rw [hid]
      exact .updated hrun hid hreference (hversion ▸ Nat.lt_succ_self _)
        (isTerminal_eq_false_of_mem hallowed) hheld fun _ => hstatus
    · rintro changed ⟨⟩
      rw [hid']
      refine .updated hrequest hid' hheld' ((hdb.runId _ _ hrun).symm ▸ hrun) rfl fun _ hsame => ?_
      rw [hupdates.get?_run, hid, if_pos (hdb.runId _ _ hrun)] at hsame
      rw [Option.some.inj hsame] at hversion
      exact absurd hversion (Nat.ne_of_lt (Nat.lt_succ_self _))
  | @operated _ _ operation _ _ _ stored loaded after _ _ _ _ _ hrow hheld hloads hstep _ hsync _ _
      hupdates =>
    have hstored := hdb.stored _ _ hrow
    have hloaded := hloads.isStored hstored
    have heffect := effect_of_step hloaded.sound hloaded.active hstep
    have hsnapshot := ((hloads.sameShape hstored.sound).trans heffect.sameShape).snapshot
    refine hchanges (Changes.of_execution hdb (mergeExecution stored loaded after) after hupdates ?_
      hsnapshot ?_)
    · exact .updated hrow rfl (Stored.merge hstored hloads heffect) rfl hheld
    · rcases hsync with ⟨-, hsync⟩ | ⟨-, hrun, hrequest, -⟩
      · exact .inl ⟨_, hsync⟩
      · exact .inr ⟨hrun, hrequest⟩

end

end Application

end JbOrchestrator
