import JbOrchestrator.Workflows.Bounds
import JbOrchestrator.Workflows.Runs

/-!
# Endings — terminal executions and operations that raise

A terminal execution holds no work and no lease, records when it completed, and records a reason
exactly when it failed.  Nothing changes it any more.  No call of `_activate` meets a terminal
execution: a fan-out stops at the target that ends it.
-/

open Lib

namespace JbOrchestrator.Workflows

open WorkflowExecution

/-! ## 1. What is recorded -/

/-- A worker is recorded together with its token only. -/
def NodeExecution.Attributed (node : NodeExecution) : Prop :=
  node.leaseToken = none → node.workerId = none

def WorkflowExecution.WorkersAttributed (execution : WorkflowExecution) : Prop :=
  ∀ key node, execution.nodes.get? key = some node → node.Attributed

/-- The record of how an execution ended. -/
structure WorkflowExecution.Recorded (execution : WorkflowExecution) : Prop where
  workers : execution.WorkersAttributed
  completed : execution.isTerminal = true → execution.completedAt.isSome
  failed : execution.status = .failed → ∃ reason, execution.failureReason = some reason ∧ reason ≠ ""
  unfailed : execution.status ≠ .failed → execution.failureReason = none

namespace WorkflowExecution

variable {execution after : WorkflowExecution}

theorem WorkersAttributed.of_nodes (h : execution.WorkersAttributed)
    (hnodes : after.nodes = execution.nodes) : after.WorkersAttributed := by
  intro key node hnode
  rw [hnodes] at hnode
  exact h key node hnode

theorem WorkersAttributed.modify (h : execution.WorkersAttributed) (key : NodeKey)
    (f : NodeExecution → NodeExecution) (hnodes : after.nodes = execution.nodes.modify key f)
    (hf : ∀ node : NodeExecution, node.Attributed → (f node).Attributed) :
    after.WorkersAttributed := by
  intro key' node hnode
  rw [hnodes, Dict.get?_modify] at hnode
  split at hnode
  · obtain ⟨node', hnode', rfl⟩ := Option.map_eq_some_iff.mp hnode
    exact hf node' (h key' node' hnode')
  · exact h key' node hnode

theorem WorkersAttributed.cancelActiveNodes (h : execution.WorkersAttributed) (changedAt : Instant)
    (hnodes : after.nodes = (execution.cancelActiveNodes changedAt).nodes) :
    after.WorkersAttributed := by
  intro key node hnode
  rw [hnodes] at hnode
  simp only [WorkflowExecution.cancelActiveNodes, Dict.get?_mapValues,
    Option.map_eq_some_iff] at hnode
  obtain ⟨node', hnode', rfl⟩ := hnode
  unfold NodeExecution.cancel
  split
  · exact fun _ => rfl
  · exact h key node' hnode'

namespace Recorded

theorem of_live (hworkers : after.WorkersAttributed) (hlive : after.isTerminal = false)
    (hreason : after.failureReason = none) : after.Recorded where
  workers := hworkers
  completed hterminal := by
    rw [hlive] at hterminal
    cases hterminal
  failed hfailed := by
    rw [isTerminal, hfailed] at hlive
    cases hlive
  unfailed _ := hreason

theorem fail (hworkers : execution.WorkersAttributed) {reason : String} (hreason : reason ≠ "")
    (changedAt : Instant) : (execution.fail reason changedAt).Recorded where
  workers := hworkers.cancelActiveNodes changedAt rfl
  completed _ := rfl
  failed _ := ⟨reason, rfl, hreason⟩
  unfailed hne := absurd rfl hne

/-- An execution that goes on records no reason. -/
theorem reason (h : execution.Recorded) (hlive : execution.isTerminal = false) :
    execution.failureReason = none := by
  apply h.unfailed
  intro hfailed
  rw [isTerminal, hfailed] at hlive
  cases hlive

/-- An update of one node of an execution that goes on. -/
theorem modify (h : execution.Recorded) (hlive : execution.isTerminal = false) (key : NodeKey)
    (f : NodeExecution → NodeExecution) (hnodes : after.nodes = execution.nodes.modify key f)
    (hf : ∀ node : NodeExecution, node.Attributed → (f node).Attributed)
    (hlive' : after.isTerminal = false) (hreason : after.failureReason = execution.failureReason) :
    after.Recorded :=
  of_live (h.workers.modify key f hnodes hf) hlive' (hreason.trans (h.reason hlive))

end Recorded

end WorkflowExecution

section

variable {changedAt : Instant} {execution after : WorkflowExecution} {key : NodeKey}
  {node : NodeExecution} {definition : NodeDefinition} {pushed keys : List NodeKey}
  {resets : Bool} {calls : List ActivateCall}

theorem Visit.recorded (h : Visit changedAt execution key node definition pushed resets after)
    (hrecorded : execution.Recorded) (hlive : execution.isTerminal = false) : after.Recorded := by
  cases h with
  | waits => exact hrecorded
  | exhausted => exact .fail hrecorded.workers (by simp) changedAt
  | task =>
    exact hrecorded.modify hlive key (fun node => node.becomeReady changedAt) rfl
      (fun _ _ _ => rfl) hlive rfl
  | approval =>
    exact hrecorded.modify hlive key (fun node => node.awaitApproval changedAt) rfl
      (fun _ _ _ => rfl) rfl rfl
  | structural =>
    exact hrecorded.modify hlive key (fun node => node.pass changedAt) rfl (fun _ _ _ => rfl) hlive
      rfl
  | terminal =>
    have hpassed : (execution.modifyNode key fun node => node.pass changedAt).WorkersAttributed :=
      hrecorded.workers.modify key (fun node => node.pass changedAt) rfl fun _ _ _ => rfl
    refine ⟨hpassed.cancelActiveNodes changedAt rfl, fun _ => rfl, fun hfailed => ?_, fun hne => ?_⟩
    · have hstatus : definition.terminalStatus.getD .failed = .failed := hfailed
      exact ⟨"workflow reached failure terminal: " ++ key, if_pos hstatus, by simp⟩
    · have hstatus : definition.terminalStatus.getD .failed ≠ .failed := hne
      exact (if_neg hstatus).trans (hrecorded.reason hlive)

theorem Cascade.recorded (h : Cascade changedAt execution keys calls after)
    (hrecorded : execution.Recorded) (hlive : execution.isTerminal = false) : after.Recorded := by
  induction h with
  | nil => exact hrecorded
  | halt _ _ hvisit => exact hvisit.recorded hrecorded hlive
  | next _ _ hvisit hmiddle _ ih => exact ih (hvisit.recorded hrecorded hlive) hmiddle

theorem Routed.recorded {source : NodeKey} {outcome : NodeOutcome} {output : Option JsonObject}
    (h : Routed changedAt execution source outcome output calls after)
    (hrecorded : execution.Recorded) (hlive : execution.isTerminal = false) : after.Recorded := by
  cases h with
  | stuck _ _ hreason => exact .fail hrecorded.workers hreason changedAt
  | routed _ hcascade => exact hcascade.recorded hrecorded hlive

theorem Handled.recorded (h : Handled changedAt execution key node definition after)
    (hrecorded : execution.Recorded) (hlive : execution.isTerminal = false) : after.Recorded := by
  cases h with
  | retried =>
    exact hrecorded.modify hlive key (fun node => node.retry changedAt) rfl (fun _ _ _ => rfl) hlive
      rfl
  | givenUp _ _ hreason =>
    have hgivenUp : (execution.modifyNode key fun node => node.giveUp changedAt).WorkersAttributed :=
      hrecorded.workers.modify key (fun node => node.giveUp changedAt) rfl fun _ _ _ => rfl
    exact .fail hgivenUp hreason changedAt

/-- Every operation keeps the record. -/
theorem Effect.recorded {operation : Operation} (h : Effect execution operation calls after)
    (hinv : execution.Inv) (hrecorded : execution.Recorded) : after.Recorded := by
  have hlive : ∀ {key : NodeKey} {node : NodeExecution}, execution.nodes.get? key = some node →
      node.status.isActive = true → execution.isTerminal = false :=
    fun hnode hactive => (hinv.live_of_active hnode hactive).2
  cases h with
  | @start changedAt _ _ hstatus hcascade =>
    have hpending : execution.isTerminal = false := by
      rw [isTerminal, hstatus]
      rfl
    have hstarted : (execution.started changedAt).Recorded :=
      .of_live (hrecorded.workers.of_nodes rfl) rfl (hrecorded.reason hpending)
    exact hcascade.recorded hstarted rfl
  | @beginTask key changedAt _ _ hnode _ _ hready =>
    have hrunning := hlive hnode (by rw [hready]; rfl)
    exact hrecorded.modify hrunning key (fun node => node.beginAttempt changedAt) rfl (fun _ h => h)
      hrunning rfl
  | @claimTask key workerId leaseSeconds leaseToken changedAt _ _ hnode _ _ hready =>
    have hrunning := hlive hnode (by rw [hready]; rfl)
    exact hrecorded.modify hrunning key _ (execution.claimed_nodes key _ _ _ changedAt)
      (fun _ _ h => by cases h) hrunning rfl
  | @renewLease key leaseToken leaseSeconds changedAt _ hnode hstatus =>
    have hrunning := hlive hnode (by rw [hstatus]; rfl)
    exact hrecorded.modify hrunning key
      (fun node => node.renew (changedAt + WorkflowEngine.seconds leaseSeconds) changedAt) rfl
      (fun _ h => h) hrunning rfl
  | @completeTask key outcome output _ changedAt _ _ _ hnode hstatus _ _ hrouted =>
    have hrunning := hlive hnode (by rw [hstatus]; rfl)
    have hcompleted : (execution.completed key outcome output changedAt).Recorded :=
      hrecorded.modify hrunning key (fun node => node.complete outcome output changedAt) rfl
        (fun _ _ _ => rfl) hrunning rfl
    exact hrouted.recorded hcompleted hrunning
  | failTask hnode _ hstatus _ hhandled =>
    exact hhandled.recorded hrecorded (hlive hnode (by rw [hstatus]; rfl))
  | expireTask hnode _ hstatus _ _ hhandled =>
    exact hhandled.recorded hrecorded (hlive hnode (by rw [hstatus]; rfl))
  | @resolveApproval key approved changedAt _ _ _ hnode hstatus hrouted =>
    have hrunning := hlive hnode (by rw [hstatus]; rfl)
    have hresolved :
        (execution.resolved key (approvalOutcome approved) changedAt).Recorded :=
      hrecorded.modify hrunning key
        (fun node => node.resolve (approvalOutcome approved) changedAt) rfl (fun _ h => h) rfl rfl
    exact hrouted.recorded hresolved rfl
  | @cancel changedAt hnotTerminal =>
    refine ⟨hrecorded.workers.cancelActiveNodes changedAt rfl, fun _ => rfl, fun h => ?_, fun _ => ?_⟩
    · cases h
    · exact hrecorded.reason hnotTerminal

end

/-! ## 2. Terminal executions -/

/-- How a terminal execution looks. -/
structure WorkflowExecution.Closed (execution : WorkflowExecution) : Prop where
  inactive : execution.Inactive
  unleased : ∀ key node, execution.nodes.get? key = some node →
    node.workerId = none ∧ node.leaseToken = none ∧ node.leaseExpiresAt = none
  completed : execution.completedAt.isSome
  reason : (∃ reason, execution.failureReason = some reason ∧ reason ≠ "") ↔
    execution.status = .failed

section

variable {execution : WorkflowExecution} (hinv : execution.Inv)
include hinv

theorem WorkflowExecution.Recorded.ended (hrecorded : execution.Recorded)
    (hterminal : execution.isTerminal = true) : execution.Closed := by
  have hinactive : execution.Inactive := by
    intro key node hnode
    by_contra hactive
    have hlive := hinv.active key node hnode (Bool.eq_true_of_not_eq_false hactive)
    rw [hterminal] at hlive
    cases hlive
  refine ⟨hinactive, fun key node hnode => ?_, hrecorded.completed hterminal, ?_,
    hrecorded.failed⟩
  · obtain ⟨definition, -, hnodeInv⟩ := hinv.node hnode
    have hrunning : node.status ≠ .running := by
      intro hrunning
      have h := hinactive key node hnode
      rw [hrunning] at h
      cases h
    have htoken := hnodeInv.leaseToken_none hrunning
    exact ⟨hrecorded.workers key node hnode htoken, htoken, hnodeInv.leaseExpiresAt_none hrunning⟩
  · rintro ⟨reason, hreason, -⟩
    by_contra hne
    rw [hrecorded.unfailed hne] at hreason
    cases hreason

/-- Every operation that succeeds meets an execution that is not terminal. -/
theorem Effect.not_terminal {after : WorkflowExecution} {operation : Operation}
    {calls : List ActivateCall} (h : Effect execution operation calls after) :
    execution.isTerminal = false := by
  have hlive : ∀ {key : NodeKey} {node : NodeExecution}, execution.nodes.get? key = some node →
      node.status.isActive = true → execution.isTerminal = false :=
    fun hnode hactive => (hinv.live_of_active hnode hactive).2
  cases h with
  | start hstatus =>
    rw [isTerminal, hstatus]
    rfl
  | beginTask hnode _ _ hready => exact hlive hnode (by rw [hready]; rfl)
  | claimTask hnode _ _ hready => exact hlive hnode (by rw [hready]; rfl)
  | renewLease hnode hstatus => exact hlive hnode (by rw [hstatus]; rfl)
  | completeTask hnode hstatus => exact hlive hnode (by rw [hstatus]; rfl)
  | failTask hnode _ hstatus => exact hlive hnode (by rw [hstatus]; rfl)
  | expireTask hnode _ hstatus => exact hlive hnode (by rw [hstatus]; rfl)
  | resolveApproval hnode hstatus => exact hlive hnode (by rw [hstatus]; rfl)
  | cancel hlive => exact hlive

/-- The operation raises a `WorkflowExecutionError` and leaves the execution as it was. -/
def WorkflowExecution.Refuses (execution : WorkflowExecution) (operation : Operation) : Prop :=
  ∃ message, engine.step execution operation =
    (⟨.error (.workflowExecutionError message), []⟩, execution)

theorem refuses_of_terminal (hterminal : execution.isTerminal = true) (operation : Operation) :
    execution.Refuses operation := by
  rcases step_spec hinv.sound hinv.active operation with hrefuses | ⟨calls, after, -, heffect⟩
  · exact hrefuses
  · rw [heffect.not_terminal hinv] at hterminal
    cases hterminal

/-- An operation that does not succeed changes nothing. -/
theorem refuses_of_error {operation : Operation}
    (herror : (engine.step execution operation).1.succeeded = false) :
    execution.Refuses operation := by
  rcases step_spec hinv.sound hinv.active operation with hrefuses | ⟨calls, after, hstep, -⟩
  · exact hrefuses
  · rw [hstep] at herror
    cases herror

/-- No call of `_activate` meets a terminal execution. -/
theorem Effect.calls_live {after : WorkflowExecution} {operation : Operation}
    {calls : List ActivateCall} (h : Effect execution operation calls after) :
    ∀ call ∈ calls, call.before.isTerminal = false := by
  rcases h.calls_cascade hinv with hnone | ⟨changedAt, middle, keys, -, hlive, -, hcascade⟩
  · rw [hnone]
    exact List.forall_mem_nil _
  · refine hcascade.forall_calls (I := fun e _ => e.isTerminal = false) ?_ ?_ hlive.notTerminal
    · intro e key keys node definition pushed resets after hlive _ _ _
      exact hlive
    · intro e key keys node definition pushed resets after _ _ _ _ hlive
      exact hlive

end

/-! ## 3. Runs -/

theorem AcceptedDefinition.Creates.recorded {d : AcceptedDefinition} {start : WorkflowExecution}
    (hstart : d.Creates start) : start.Recorded := by
  obtain ⟨runId, requestContext, phasePacks, skills, modelSelections, id, nodeId, now, rfl⟩ := hstart
  refine .of_live (fun key node hnode _ => ?_) rfl rfl
  simp only [WorkflowExecution.create, Dict.get?_ofList, Option.map_eq_some_iff] at hnode
  obtain ⟨definition, -, rfl⟩ := hnode
  rfl

theorem step_recorded {execution : WorkflowExecution} (operation : Operation)
    (h : execution.Inv ∧ execution.Recorded) :
    (engine.step execution operation).2.Inv ∧ (engine.step execution operation).2.Recorded := by
  refine ⟨step_inv execution operation h.1, ?_⟩
  rcases step_spec h.1.sound h.1.active operation with ⟨message, hstep⟩ | ⟨calls, after, hstep, heffect⟩
  · rw [hstep]
    exact h.2
  · rw [hstep]
    exact heffect.recorded h.1 h.2

/-- A run that refuses every operation stays where it is. -/
theorem run_of_terminal {execution : WorkflowExecution} (hinv : execution.Inv)
    (hterminal : execution.isTerminal = true) (operations : List Operation) :
    engine.run execution operations = execution := by
  induction operations with
  | nil => rfl
  | cons operation operations ih =>
    obtain ⟨message, hstep⟩ := refuses_of_terminal hinv hterminal operation
    rw [Machine.run_cons, hstep]
    exact ih

/-- Terminal executions are absorbing, operations that raise change nothing, and no target is activated
after the one that ended the execution. -/
theorem terminal_absorbing {d : AcceptedDefinition} {start : WorkflowExecution}
    (hstart : d.Creates start) (operations : List Operation) :
    ((engine.run start operations).isTerminal = true → (engine.run start operations).Closed ∧
      (∀ operation, (engine.run start operations).Refuses operation) ∧
      ∀ later, engine.run start (operations ++ later) = engine.run start operations) ∧
    (∀ operation, (engine.step (engine.run start operations) operation).1.succeeded = false →
      (engine.run start operations).Refuses operation) ∧
    ∀ t ∈ engine.trace start operations, ∀ call ∈ t.output.calls,
      call.before.isTerminal = false := by
  obtain ⟨hinv, hrecorded⟩ := engine.run_invariant (I := fun e => e.Inv ∧ e.Recorded)
    (fun _ operation => step_recorded operation) ⟨hstart.inv, hstart.recorded⟩ operations
  refine ⟨fun hterminal => ⟨hrecorded.ended hinv hterminal, ?_, fun later => ?_⟩, ?_, ?_⟩
  · exact refuses_of_terminal hinv hterminal
  · rw [engine.run_append]
    exact run_of_terminal hinv hterminal later
  · exact fun operation => refuses_of_error hinv
  · intro t ht call hcall
    obtain ⟨hbefore, -, hraised | htook⟩ := hstart.trace_cases ht
    · rw [hraised.2.2] at hcall
      cases hcall
    · exact htook.2.calls_live hbefore call hcall

/-- The task is completed, and the execution has ended. -/
theorem terminal_absorbing_singleTask :
    (engine.run acceptedSingleTask.blank
      [.start 0, .beginTask "work" 1, .completeTask "work" .success none none 2]).status =
        .succeeded ∧
    (engine.run acceptedSingleTask.blank
      [.start 0, .beginTask "work" 1, .completeTask "work" .success none none 2]).Closed :=
  ⟨by decide +kernel,
    ((terminal_absorbing acceptedSingleTask.creates_blank _).1 (by decide +kernel)).1⟩

end JbOrchestrator.Workflows
