import JbOrchestrator.Lib.Machine
import JbOrchestrator.Workflows.EngineSpec

/-!
# Operations — what a successful operation does

The engine as a machine: an operation answers with its result and the calls of `_activate` it made,
and leaves the aggregate as the source leaves it, also when it raises.  `Effect` lists what a
successful operation does; `step_spec` says that on a sound aggregate every operation either raises
a `WorkflowExecutionError` before it changes anything, or succeeds with one of these effects.
-/

open Lib

namespace JbOrchestrator.Workflows

/-! ## 1. The machine -/

structure Reply where
  result : Except EngineError Unit
  calls : List ActivateCall

namespace Reply

def succeeded (reply : Reply) : Bool :=
  match reply.result with
  | .ok _ => true
  | .error _ => false

end Reply

def Operation.step (execution : WorkflowExecution) (operation : Operation) :
    Reply × WorkflowExecution :=
  match operation.call { execution := execution } with
  | .ok _ state => (⟨.ok (), state.calls⟩, state.execution)
  | .error error state => (⟨.error error, state.calls⟩, state.execution)

/-- One workflow execution that answers engine operations. -/
def engine : Machine WorkflowExecution Operation Reply := ⟨Operation.step⟩

abbrev EngineStep := Transition WorkflowExecution Operation Reply

/-- The aggregates `WorkflowExecution.create` makes from snapshots of the definition. -/
def AcceptedDefinition.Creates (d : AcceptedDefinition) (execution : WorkflowExecution) : Prop :=
  ∃ runId requestContext phasePacks skills modelSelections id nodeId now,
    execution = WorkflowExecution.create
      (WorkflowSnapshot.fromDefinition d.definition runId requestContext phasePacks skills
        modelSelections) id nodeId now

/-- The execution of a definition with every identifier and instant zero. -/
def AcceptedDefinition.blank (d : AcceptedDefinition) : WorkflowExecution :=
  WorkflowExecution.create (WorkflowSnapshot.fromDefinition d.definition 0) 0 (fun _ => 0) 0

theorem AcceptedDefinition.creates_blank (d : AcceptedDefinition) : d.Creates d.blank :=
  ⟨0, none, [], [], [], 0, fun _ => 0, 0, rfl⟩

/-- The aggregates that some sequence of operations leads to. -/
def AcceptedDefinition.Reachable (d : AcceptedDefinition) (execution : WorkflowExecution) : Prop :=
  ∃ start, d.Creates start ∧ ∃ operations, execution = engine.run start operations

/-! ## 2. Local updates -/

namespace NodeExecution

def beginAttempt (node : NodeExecution) (changedAt : Instant) : NodeExecution :=
  { node with
    status := .running
    attemptCount := node.attemptCount + 1
    startedAt := some changedAt
    updatedAt := changedAt }

def lease (node : NodeExecution) (workerId : String) (leaseToken : UUID) (expiresAt : Instant) :
    NodeExecution :=
  { node with
    workerId := some workerId, leaseToken := some leaseToken, leaseExpiresAt := some expiresAt }

def renew (node : NodeExecution) (expiresAt changedAt : Instant) : NodeExecution :=
  { node with leaseExpiresAt := some expiresAt, updatedAt := changedAt }

def complete (node : NodeExecution) (outcome : NodeOutcome) (output : Option JsonObject)
    (changedAt : Instant) : NodeExecution :=
  ({ node with
    status := .succeeded
    outcome := some outcome
    output := output
    completedAt := some changedAt
    updatedAt := changedAt } : NodeExecution).clearLease

def resolve (node : NodeExecution) (outcome : NodeOutcome) (changedAt : Instant) :
    NodeExecution :=
  { node with
    status := .succeeded
    outcome := some outcome
    completedAt := some changedAt
    updatedAt := changedAt }

def retry (node : NodeExecution) (changedAt : Instant) : NodeExecution :=
  { node.clearLease with status := .ready, updatedAt := changedAt }

def giveUp (node : NodeExecution) (changedAt : Instant) : NodeExecution :=
  { node.clearLease with
    status := .failed, completedAt := some changedAt, updatedAt := changedAt }

/-- `_validate_optional_lease` accepts the token. -/
def Accepts (node : NodeExecution) (leaseToken : Option UUID) (changedAt : Instant) : Prop :=
  match node.leaseToken with
  | none => leaseToken = none
  | some token => leaseToken = some token ∧ ∃ expiresAt, node.leaseExpiresAt = some expiresAt ∧
      changedAt < expiresAt

end NodeExecution

namespace WorkflowExecution

variable (execution : WorkflowExecution)

def started (changedAt : Instant) : WorkflowExecution :=
  ({ execution with
    status := .running, startedAt := some changedAt } : WorkflowExecution).touch changedAt

def begun (key : NodeKey) (changedAt : Instant) : WorkflowExecution :=
  (execution.modifyNode key fun node => node.beginAttempt changedAt).touch changedAt

def claimed (key : NodeKey) (workerId : String) (leaseToken : UUID)
    (expiresAt changedAt : Instant) : WorkflowExecution :=
  (execution.begun key changedAt).modifyNode key fun node =>
    node.lease workerId leaseToken expiresAt

theorem claimed_nodes (key : NodeKey) (workerId : String) (leaseToken : UUID)
    (expiresAt changedAt : Instant) :
    (execution.claimed key workerId leaseToken expiresAt changedAt).nodes =
      execution.nodes.modify key fun node =>
        (node.beginAttempt changedAt).lease workerId leaseToken expiresAt := by
  simp only [claimed, begun, touch, modifyNode, Dict.modify_modify]

def renewed (key : NodeKey) (expiresAt changedAt : Instant) : WorkflowExecution :=
  (execution.modifyNode key fun node => node.renew expiresAt changedAt).touch changedAt

def completed (key : NodeKey) (outcome : NodeOutcome) (output : Option JsonObject)
    (changedAt : Instant) : WorkflowExecution :=
  (execution.modifyNode key fun node => node.complete outcome output changedAt).touch changedAt

def resolved (key : NodeKey) (outcome : NodeOutcome) (changedAt : Instant) : WorkflowExecution :=
  ({ execution.modifyNode key fun node => node.resolve outcome changedAt with
    status := .running } : WorkflowExecution).touch changedAt

def retried (key : NodeKey) (changedAt : Instant) : WorkflowExecution :=
  (execution.modifyNode key fun node => node.retry changedAt).touch changedAt

def givenUp (key : NodeKey) (reason : String) (changedAt : Instant) : WorkflowExecution :=
  (execution.modifyNode key fun node => node.giveUp changedAt).fail reason changedAt

def cancelled (changedAt : Instant) : WorkflowExecution :=
  ({ execution.cancelActiveNodes changedAt with
    status := .cancelled, completedAt := some changedAt } : WorkflowExecution).touch changedAt

end WorkflowExecution

namespace WorkflowExecution.SameShape

variable (execution : WorkflowExecution) (key : NodeKey) (changedAt : Instant)

theorem started : SameShape execution (execution.started changedAt) := of_nodes rfl rfl rfl

theorem begun : SameShape execution (execution.begun key changedAt) :=
  (modifyNode execution key (fun node => node.beginAttempt changedAt) fun _ => rfl).trans
    (of_nodes rfl rfl rfl)

theorem claimed (workerId : String) (leaseToken : UUID) (expiresAt : Instant) :
    SameShape execution (execution.claimed key workerId leaseToken expiresAt changedAt) :=
  (begun execution key changedAt).trans
    (modifyNode _ key (fun node => node.lease workerId leaseToken expiresAt) fun _ => rfl)

theorem renewed (expiresAt : Instant) :
    SameShape execution (execution.renewed key expiresAt changedAt) :=
  (modifyNode execution key (fun node => node.renew expiresAt changedAt) fun _ => rfl).trans
    (of_nodes rfl rfl rfl)

theorem completed (outcome : NodeOutcome) (output : Option JsonObject) :
    SameShape execution (execution.completed key outcome output changedAt) :=
  (modifyNode execution key (fun node => node.complete outcome output changedAt)
    fun _ => rfl).trans (of_nodes rfl rfl rfl)

theorem resolved (outcome : NodeOutcome) :
    SameShape execution (execution.resolved key outcome changedAt) :=
  (modifyNode execution key (fun node => node.resolve outcome changedAt) fun _ => rfl).trans
    (of_nodes rfl rfl rfl)

theorem retried : SameShape execution (execution.retried key changedAt) :=
  (modifyNode execution key (fun node => node.retry changedAt) fun _ => rfl).trans
    (of_nodes rfl rfl rfl)

theorem givenUp (reason : String) : SameShape execution (execution.givenUp key reason changedAt) :=
  (modifyNode execution key (fun node => node.giveUp changedAt) fun _ => rfl).trans
    (fail _ reason changedAt)

theorem cancelled : SameShape execution (execution.cancelled changedAt) :=
  (cancelActiveNodes execution changedAt).trans (of_nodes rfl rfl rfl)

end WorkflowExecution.SameShape

/-- The outcome of an approval. -/
def approvalOutcome (approved : Bool) : NodeOutcome := if approved then .approved else .rejected

/-- The targets of a visit of `source` that ends with `outcome` and `output`. -/
def WorkflowExecution.targets (execution : WorkflowExecution) (source : NodeKey)
    (outcome : NodeOutcome) (output : Option JsonObject) : List NodeKey :=
  selectTargets (execution.graph.routeEdges source outcome) output

/-! ## 3. Effects -/

/-- `_route` on an aggregate that is not terminal: no target ends the execution. -/
inductive Routed (changedAt : Instant) (execution : WorkflowExecution) (source : NodeKey)
    (outcome : NodeOutcome) (output : Option JsonObject) :
    List ActivateCall → WorkflowExecution → Prop where
  | stuck (htargets : execution.targets source outcome output = []) (reason : String)
    (hreason : reason ≠ "") :
    Routed changedAt execution source outcome output [] (execution.fail reason changedAt)
  | routed {calls : List ActivateCall} {after : WorkflowExecution}
    (htargets : execution.targets source outcome output ≠ [])
    (hcascade : Cascade changedAt execution (execution.targets source outcome output) calls after) :
    Routed changedAt execution source outcome output calls after

/-- `_handle_task_failure`. -/
inductive Handled (changedAt : Instant) (execution : WorkflowExecution) (key : NodeKey)
    (node : NodeExecution) (definition : NodeDefinition) : WorkflowExecution → Prop where
  | retried (hattempts : node.attemptCount < definition.maxAttempts) :
    Handled changedAt execution key node definition (execution.retried key changedAt)
  | givenUp (hattempts : definition.maxAttempts ≤ node.attemptCount) (reason : String)
    (hreason : reason ≠ "") :
    Handled changedAt execution key node definition (execution.givenUp key reason changedAt)

/-- The successful operations. -/
inductive Effect (execution : WorkflowExecution) :
    Operation → List ActivateCall → WorkflowExecution → Prop where
  | start {changedAt : Instant} {calls : List ActivateCall} {after : WorkflowExecution}
    (hstatus : execution.status = .pending)
    (hcascade : Cascade changedAt (execution.started changedAt) [execution.graph.entryNode] calls
      after) :
    Effect execution (.start changedAt) calls after
  | beginTask {key : NodeKey} {changedAt : Instant} {node : NodeExecution}
    {definition : NodeDefinition} (hnode : execution.nodes.get? key = some node)
    (hdefinition : execution.graph.node key = some definition) (hkind : definition.kind = .task)
    (hready : node.status = .ready) (hattempts : node.attemptCount < definition.maxAttempts) :
    Effect execution (.beginTask key changedAt) [] (execution.begun key changedAt)
  | claimTask {key : NodeKey} {workerId : String} {leaseSeconds : ℕ} {leaseToken : UUID}
    {changedAt : Instant} {node : NodeExecution} {definition : NodeDefinition}
    (hnode : execution.nodes.get? key = some node)
    (hdefinition : execution.graph.node key = some definition) (hkind : definition.kind = .task)
    (hready : node.status = .ready) (hattempts : node.attemptCount < definition.maxAttempts) :
    Effect execution (.claimTask key workerId leaseSeconds leaseToken changedAt) []
      (execution.claimed key workerId leaseToken
        (changedAt + WorkflowEngine.seconds leaseSeconds) changedAt)
  | renewLease {key : NodeKey} {leaseToken : UUID} {leaseSeconds : ℕ} {changedAt : Instant}
    {node : NodeExecution} (hnode : execution.nodes.get? key = some node)
    (hrunning : node.status = .running) (haccepts : node.Accepts (some leaseToken) changedAt) :
    Effect execution (.renewLease key leaseToken leaseSeconds changedAt) []
      (execution.renewed key (changedAt + WorkflowEngine.seconds leaseSeconds) changedAt)
  | completeTask {key : NodeKey} {outcome : NodeOutcome} {output : Option JsonObject}
    {leaseToken : Option UUID} {changedAt : Instant} {node : NodeExecution}
    {calls : List ActivateCall} {after : WorkflowExecution}
    (hnode : execution.nodes.get? key = some node) (hrunning : node.status = .running)
    (houtcome : outcome = .success ∨ outcome = .failure)
    (haccepts : node.Accepts leaseToken changedAt)
    (hrouted : Routed changedAt (execution.completed key outcome output changedAt) key outcome
      output calls after) :
    Effect execution (.completeTask key outcome output leaseToken changedAt) calls after
  | failTask {key : NodeKey} {reason : String} {leaseToken : Option UUID} {changedAt : Instant}
    {node : NodeExecution} {definition : NodeDefinition} {after : WorkflowExecution}
    (hnode : execution.nodes.get? key = some node)
    (hdefinition : execution.graph.node key = some definition) (hrunning : node.status = .running)
    (haccepts : node.Accepts leaseToken changedAt)
    (hhandled : Handled changedAt execution key node definition after) :
    Effect execution (.failTask key reason leaseToken changedAt) [] after
  | expireTask {key : NodeKey} {changedAt expiresAt : Instant} {node : NodeExecution}
    {definition : NodeDefinition} {after : WorkflowExecution}
    (hnode : execution.nodes.get? key = some node)
    (hdefinition : execution.graph.node key = some definition) (hrunning : node.status = .running)
    (hexpiresAt : node.leaseExpiresAt = some expiresAt) (hexpired : expiresAt ≤ changedAt)
    (hhandled : Handled changedAt execution key node definition after) :
    Effect execution (.expireTask key changedAt) [] after
  | resolveApproval {key : NodeKey} {approved : Bool} {changedAt : Instant} {node : NodeExecution}
    {calls : List ActivateCall} {after : WorkflowExecution}
    (hnode : execution.nodes.get? key = some node) (hawaiting : node.status = .awaitingApproval)
    (hrouted : Routed changedAt (execution.resolved key (approvalOutcome approved) changedAt) key
      (approvalOutcome approved) none calls after) :
    Effect execution (.resolveApproval key approved changedAt) calls after
  | cancel {changedAt : Instant} (hlive : execution.isTerminal = false) :
    Effect execution (.cancel changedAt) [] (execution.cancelled changedAt)

/-! ## 4. Every operation raises or has its effect -/

/-- `x` raises before it changes anything, or returns with calls and an aggregate that satisfy
`P`. -/
def Answers (x : EngineM Unit) (execution : WorkflowExecution)
    (P : List ActivateCall → WorkflowExecution → Prop) : Prop :=
  (∃ message, x { execution := execution } =
    .error (.workflowExecutionError message) { execution := execution }) ∨
  ∃ calls after, x { execution := execution } = .ok () ⟨after, calls⟩ ∧ P calls after

namespace Answers

open WorkflowEngine WorkflowExecution

variable {execution : WorkflowExecution} {P : List ActivateCall → WorkflowExecution → Prop}

theorem raiseIf {condition : Prop} [Decidable condition] {message : String}
    {x : Unit → EngineM Unit} (h : ¬condition → Answers (x ()) execution P) :
    Answers (WorkflowEngine.raiseIf condition message >>= x) execution P := by
  by_cases hcondition : condition
  · refine Or.inl ⟨message, ?_⟩
    simp [WorkflowEngine.raiseIf, hcondition]
  · rcases h hcondition with ⟨message', hrun⟩ | ⟨calls, after, hrun, hP⟩
    · exact Or.inl ⟨message', by simp [WorkflowEngine.raiseIf, hcondition, hrun]⟩
    · exact Or.inr ⟨calls, after, by simp [WorkflowEngine.raiseIf, hcondition, hrun], hP⟩

theorem nodeExecution {key : NodeKey} {x : NodeExecution → EngineM Unit}
    (h : ∀ node, execution.nodes.get? key = some node → Answers (x node) execution P) :
    Answers (WorkflowEngine.nodeExecution key >>= x) execution P := by
  cases hnode : execution.nodes.get? key with
  | none => exact Or.inl ⟨_, by rw [bind_apply, nodeExecution_unknown _ hnode]⟩
  | some node =>
    have hrun := nodeExecution_apply { execution := execution } hnode
    unfold Answers
    simp only [bind_apply, hrun]
    exact h node hnode

theorem nodeDefinition {key : NodeKey} {definition : NodeDefinition}
    {x : NodeDefinition → EngineM Unit} (hdefinition : execution.graph.node key = some definition)
    (h : Answers (x definition) execution P) :
    Answers (WorkflowEngine.nodeDefinition key >>= x) execution P := by
  have hrun := nodeDefinition_apply { execution := execution } hdefinition
  unfold Answers
  simp only [bind_apply, hrun]
  exact h

/-- The lease check of an operation on a running node. -/
theorem validateOptionalLease {node : NodeExecution} {leaseToken : Option UUID}
    {changedAt : Instant} {x : Unit → EngineM Unit}
    (h : node.Accepts leaseToken changedAt → Answers (x ()) execution P) :
    Answers (WorkflowEngine.validateOptionalLease node leaseToken changedAt >>= x) execution P := by
  unfold WorkflowEngine.validateOptionalLease
  cases htoken : node.leaseToken with
  | none =>
    apply Answers.raiseIf
    intro hnone
    apply h
    unfold NodeExecution.Accepts
    rw [htoken]
    exact not_not.mp hnone
  | some token =>
    simp only
    rw [show ∀ a b : EngineM Unit, ((do a; b) >>= x) = (a >>= fun _ => b >>= x) from
      fun a b => by funext s; simp only [bind_apply]; cases a s <;> rfl]
    apply Answers.raiseIf
    intro hmatch
    apply Answers.raiseIf
    intro hexpired
    apply h
    unfold NodeExecution.Accepts
    rw [htoken]
    refine ⟨not_not.mp hmatch, ?_⟩
    cases hexpires : node.leaseExpiresAt with
    | none => simp [hexpires] at hexpired
    | some expiresAt => exact ⟨expiresAt, rfl, by simpa [hexpires] using hexpired⟩

theorem mono {x : EngineM Unit} {Q : List ActivateCall → WorkflowExecution → Prop}
    (h : Answers x execution P) (hPQ : ∀ calls after, P calls after → Q calls after) :
    Answers x execution Q :=
  h.imp_right fun ⟨calls, after, hrun, hP⟩ => ⟨calls, after, hrun, hPQ calls after hP⟩

end Answers

namespace WorkflowEngine

/-- Every node execution has the definition of its key. -/
theorem exists_definition {execution : WorkflowExecution} (hsound : execution.Sound) {key : NodeKey}
    {node : NodeExecution} (hnode : execution.nodes.get? key = some node) :
    ∃ definition, execution.graph.node key = some definition :=
  WorkflowGraph.mem_keys_iff.mp ((hsound.node_iff key).mp ⟨node, hnode⟩)

end WorkflowEngine

/-- An active node keeps its execution from being terminal. -/
def WorkflowExecution.ActiveLive (execution : WorkflowExecution) : Prop :=
  ∀ key node, execution.nodes.get? key = some node → node.status.isActive = true →
    execution.isTerminal = false

namespace WorkflowEngine

open WorkflowExecution

theorem route_spec {execution : WorkflowExecution} (hsound : execution.Sound)
    (hlive : execution.isTerminal = false) (source : NodeKey) (outcome : NodeOutcome)
    (output : Option JsonObject) (changedAt : Instant) :
    ∃ calls after, route source outcome output changedAt { execution := execution } =
        .ok () ⟨after, calls⟩ ∧
      Routed changedAt execution source outcome output calls after := by
  by_cases htargets : execution.targets source outcome output = []
  · refine ⟨[], _, ?_, Routed.stuck htargets
      (if execution.graph.routeEdges source outcome = [] then
        "no edge for " ++ source ++ ":" ++ outcome.value
      else "no matching edge for " ++ source ++ ":" ++ outcome.value)
      (by split <;> simp)⟩
    unfold WorkflowExecution.targets at htargets
    simp [route, routeWith, htargets]
  · obtain ⟨calls, after, hrun, hcascade⟩ := routeWith_spec
      (activate_spec changedAt (execution.snapshot.nodes.length + 1)) { execution := execution }
      source outcome output hsound hlive
      (fun t _ => structuralRank_lt_limit execution t) htargets
    refine ⟨calls, after, ?_, Routed.routed htargets hcascade⟩
    simp only [route, bind_apply, recursionLimit_apply]
    exact hrun

theorem handleTaskFailure_spec {execution : WorkflowExecution} (hsound : execution.Sound)
    {key : NodeKey} {node : NodeExecution} {definition : NodeDefinition}
    (hnode : execution.nodes.get? key = some node)
    (hdefinition : execution.graph.node key = some definition) (reason : String)
    (changedAt : Instant) :
    ∃ after, handleTaskFailure key node reason changedAt { execution := execution } =
        .ok () ⟨after, []⟩ ∧
      Handled changedAt execution key node definition after := by
  have hkey : execution.graph.node node.nodeKey = some definition := by
    rw [hsound.nodeKey key node hnode, hdefinition]
  have hrun := nodeDefinition_apply { execution := execution } hkey
  by_cases hattempts : node.attemptCount < definition.maxAttempts
  · refine ⟨_, ?_, Handled.retried hattempts⟩
    simp [handleTaskFailure, hrun, hattempts, retried, WorkflowExecution.modifyNode,
      Dict.modify_modify, NodeExecution.retry]
  · refine ⟨_, ?_, Handled.givenUp (not_lt.mp hattempts)
      (if Text.strip reason = "" then "task execution failed" else Text.strip reason)
      (by split <;> simp [*])⟩
    simp [handleTaskFailure, hrun, hattempts, givenUp, WorkflowExecution.modifyNode,
      Dict.modify_modify, NodeExecution.giveUp]

section Calls

variable {execution : WorkflowExecution} (hsound : execution.Sound)
  (hactive : execution.ActiveLive) (changedAt : Instant)
include hsound

theorem start_answers :
    Answers (start changedAt) execution (Effect execution (.start changedAt)) := by
  unfold Answers start
  simp only [bind_apply, get_apply]
  by_cases hstatus : execution.status = .pending
  · obtain ⟨calls, after, hrun, hcascade⟩ :=
      activate_spec changedAt (execution.snapshot.nodes.length + 1)
        { execution := execution.started changedAt } execution.graph.entryNode
        ((SameShape.started execution changedAt).sound hsound) rfl hsound.wellFormed.entry_mem
        (structuralRank_lt_limit execution _)
    refine Or.inr ⟨calls, after, ?_, Effect.start hstatus hcascade⟩
    simp only [raiseIf, hstatus, ne_eq, not_true_eq_false, if_false, pure_apply,
      modifyExecution_apply, touch_apply, recursionLimit_apply]
    exact hrun
  · exact Or.inl ⟨"only a pending workflow can be started", by simp [raiseIf, hstatus]⟩

theorem beginTask_answers {key : NodeKey} {x : Unit → EngineM Unit}
    {P : List ActivateCall → WorkflowExecution → Prop}
    (h : ∀ node definition, execution.nodes.get? key = some node →
      execution.graph.node key = some definition → definition.kind = .task →
      node.status = .ready → node.attemptCount < definition.maxAttempts →
      ∃ after, x () { execution := execution.begun key changedAt } = .ok () ⟨after, []⟩ ∧
        P [] after) :
    Answers (beginTask key changedAt >>= x) execution P := by
  have hassoc : beginTask key changedAt >>= x = (do
      let node ← nodeExecution key
      let definition ← nodeDefinition key
      raiseIf (definition.kind ≠ .task ∨ node.status ≠ .ready) "only a ready task node can begin"
      raiseIf (node.attemptCount ≥ definition.maxAttempts) "node attempt limit has been reached"
      modifyNode key fun node => node.beginAttempt changedAt
      touch changedAt
      x ()) := by
    simp only [beginTask, bind_assoc]
    rfl
  rw [hassoc]
  apply Answers.nodeExecution
  intro node hnode
  obtain ⟨definition, hdefinition⟩ := exists_definition hsound hnode
  apply Answers.nodeDefinition hdefinition
  apply Answers.raiseIf
  intro hguard
  apply Answers.raiseIf
  intro hattempts
  rw [not_or, not_not, not_not] at hguard
  obtain ⟨after, hrun, hP⟩ :=
    h node definition hnode hdefinition hguard.1 hguard.2 (not_le.mp hattempts)
  refine Or.inr ⟨[], after, ?_, hP⟩
  simp only [bind_apply, modifyNode_apply, touch_apply]
  exact hrun

theorem begin_answers (key : NodeKey) :
    Answers (beginTask key changedAt) execution (Effect execution (.beginTask key changedAt)) := by
  rw [← bind_pure (beginTask key changedAt)]
  apply beginTask_answers hsound
  intro node definition hnode hdefinition hkind hready hattempts
  exact ⟨_, rfl, Effect.beginTask hnode hdefinition hkind hready hattempts⟩

theorem claim_answers (key : NodeKey) (workerId : String) (leaseSeconds : ℕ) (leaseToken : UUID) :
    Answers (claimTask key workerId leaseSeconds leaseToken changedAt) execution
      (Effect execution (.claimTask key workerId leaseSeconds leaseToken changedAt)) := by
  apply Answers.raiseIf
  intro _
  apply Answers.raiseIf
  intro _
  apply beginTask_answers hsound
  intro node definition hnode hdefinition hkind hready hattempts
  exact ⟨_, rfl, Effect.claimTask hnode hdefinition hkind hready hattempts⟩

omit hsound in
theorem renew_answers (key : NodeKey) (leaseToken : UUID) (leaseSeconds : ℕ) :
    Answers (renewLease key leaseToken leaseSeconds changedAt) execution
      (Effect execution (.renewLease key leaseToken leaseSeconds changedAt)) := by
  have hassoc : renewLease key leaseToken leaseSeconds changedAt = (do
      raiseIf (leaseSeconds < 1) "lease_seconds must be greater than zero"
      let node ← nodeExecution key
      raiseIf (node.status ≠ .running) "only a running task node can renew a lease"
      validateOptionalLease node (some leaseToken) changedAt
      modifyNode key fun node => node.renew (changedAt + seconds leaseSeconds) changedAt
      touch changedAt) := by
    simp only [renewLease, ownedRunningNode, bind_assoc, pure_bind]
    rfl
  rw [hassoc]
  apply Answers.raiseIf
  intro _
  apply Answers.nodeExecution
  intro node hnode
  apply Answers.raiseIf
  intro hrunning
  apply Answers.validateOptionalLease
  intro haccepts
  exact Or.inr ⟨[], _, rfl, Effect.renewLease hnode (not_not.mp hrunning) haccepts⟩

theorem fail_answers (key : NodeKey) (reason : String) (leaseToken : Option UUID) :
    Answers (failTask key reason leaseToken changedAt) execution
      (Effect execution (.failTask key reason leaseToken changedAt)) := by
  apply Answers.nodeExecution
  intro node hnode
  apply Answers.raiseIf
  intro hrunning
  apply Answers.validateOptionalLease
  intro haccepts
  obtain ⟨definition, hdefinition⟩ := exists_definition hsound hnode
  obtain ⟨after, hrun, hhandled⟩ :=
    handleTaskFailure_spec hsound hnode hdefinition reason changedAt
  exact Or.inr ⟨[], after, hrun,
    Effect.failTask hnode hdefinition (not_not.mp hrunning) haccepts hhandled⟩

theorem expire_answers (key : NodeKey) :
    Answers (expireTask key changedAt) execution (Effect execution (.expireTask key changedAt)) := by
  apply Answers.nodeExecution
  intro node hnode
  cases hexpiresAt : node.leaseExpiresAt with
  | none => exact Or.inl ⟨"node has no active lease", by simp⟩
  | some expiresAt =>
    apply Answers.raiseIf
    intro hrunning
    apply Answers.raiseIf
    intro hexpired
    obtain ⟨definition, hdefinition⟩ := exists_definition hsound hnode
    obtain ⟨after, hrun, hhandled⟩ :=
      handleTaskFailure_spec hsound hnode hdefinition "task lease expired" changedAt
    exact Or.inr ⟨[], after, hrun, Effect.expireTask hnode hdefinition (not_not.mp hrunning)
      hexpiresAt (not_lt.mp hexpired) hhandled⟩

omit hsound in
theorem cancel_answers :
    Answers (cancel changedAt) execution (Effect execution (.cancel changedAt)) := by
  unfold Answers cancel
  simp only [bind_apply, get_apply]
  cases hlive : execution.isTerminal with
  | true => exact Or.inl ⟨"terminal workflow cannot be cancelled", by simp [raiseIf]⟩
  | false =>
    refine Or.inr ⟨[], _, ?_, Effect.cancel hlive⟩
    simp only [raiseIf, Bool.false_eq_true, if_false, pure_apply, modifyExecution_apply,
      touch_apply]
    rfl

theorem approval_answers (key : NodeKey) (approved : Bool) :
    Answers (resolveApproval key approved changedAt) execution
      (Effect execution (.resolveApproval key approved changedAt)) := by
  apply Answers.nodeExecution
  intro node hnode
  apply Answers.raiseIf
  intro hawaiting
  have hshape := SameShape.resolved execution key changedAt (approvalOutcome approved)
  obtain ⟨calls, after, hrun, hrouted⟩ :=
    route_spec (hshape.sound hsound) rfl key (approvalOutcome approved) none changedAt
  exact Or.inr ⟨calls, after, hrun,
    Effect.resolveApproval hnode (not_not.mp hawaiting) hrouted⟩

include hactive

theorem complete_answers (key : NodeKey) (outcome : NodeOutcome) (output : Option JsonObject)
    (leaseToken : Option UUID) :
    Answers (completeTask key outcome output leaseToken changedAt) execution
      (Effect execution (.completeTask key outcome output leaseToken changedAt)) := by
  apply Answers.nodeExecution
  intro node hnode
  apply Answers.raiseIf
  intro hrunning
  apply Answers.raiseIf
  intro houtcome
  apply Answers.validateOptionalLease
  intro haccepts
  rw [not_not] at hrunning
  have hlive : execution.isTerminal = false :=
    hactive key node hnode (by rw [hrunning]; rfl)
  have hshape := SameShape.completed execution key changedAt outcome output
  obtain ⟨calls, after, hrun, hrouted⟩ :=
    route_spec (hshape.sound hsound) hlive key outcome output changedAt
  refine Or.inr ⟨calls, after, hrun, Effect.completeTask hnode hrunning ?_ haccepts hrouted⟩
  by_contra hne
  rw [not_or] at hne
  exact houtcome hne

theorem call_answers (operation : Operation) :
    Answers operation.call execution (Effect execution operation) := by
  cases operation with
  | start => exact start_answers hsound _
  | beginTask => exact begin_answers hsound _ _
  | claimTask => exact claim_answers hsound _ _ _ _ _
  | renewLease => exact renew_answers _ _ _ _
  | completeTask => exact complete_answers hsound hactive _ _ _ _ _
  | failTask => exact fail_answers hsound _ _ _ _
  | expireTask => exact expire_answers hsound _ _
  | resolveApproval => exact approval_answers hsound _ _ _
  | cancel => exact cancel_answers _

end Calls

end WorkflowEngine

/-- An operation on a sound aggregate raises and changes nothing, or it has its effect. -/
theorem step_spec {execution : WorkflowExecution} (hsound : execution.Sound)
    (hactive : execution.ActiveLive) (operation : Operation) :
    (∃ message, engine.step execution operation =
      (⟨.error (.workflowExecutionError message), []⟩, execution)) ∨
    ∃ calls after, engine.step execution operation = (⟨.ok (), calls⟩, after) ∧
      Effect execution operation calls after := by
  rcases WorkflowEngine.call_answers hsound hactive operation with
    ⟨message, hrun⟩ | ⟨calls, after, hrun, heffect⟩
  · exact Or.inl ⟨message, by simp only [engine, Operation.step, hrun]⟩
  · exact Or.inr ⟨calls, after, by simp only [engine, Operation.step, hrun], heffect⟩

end JbOrchestrator.Workflows
