import JbOrchestrator.Workflows.Operations

/-!
# Invariants — what holds of every reachable aggregate

`NodeInv` ties the fields of one node execution to its definition, `Inv` ties the aggregate's status
to its nodes.  A visit and every local update keep them, so every operation does, and `Inv` holds of
all reachable aggregates.
-/

open Lib

namespace JbOrchestrator.Workflows

/-! ## 1. Node executions -/

structure NodeInv (definition : NodeDefinition) (node : NodeExecution) : Prop where
  visits : node.visitCount ≤ definition.maxVisits
  attempts : node.attemptCount ≤ definition.maxAttempts
  unvisited : node.status = .pending ↔ node.visitCount = 0
  ready_attempts : node.status = .ready → node.attemptCount < definition.maxAttempts
  running_attempts : node.status = .running → 1 ≤ node.attemptCount
  task : node.status = .ready ∨ node.status = .running ∨ node.status = .failed →
    definition.kind = .task
  approval : node.status = .awaitingApproval → definition.kind = .approval
  lease : node.leaseToken.isSome = node.leaseExpiresAt.isSome
  leased : node.leaseToken.isSome → node.status = .running
  outcome : node.status = .succeeded → node.outcome.isSome
  fresh : node.status ≠ .succeeded → node.output = none
  structural : definition.kind.isStructural → node.status = .succeeded →
    node.outcome = some .success ∧ node.output = none

namespace NodeInv

variable {definition : NodeDefinition} {node : NodeExecution}

theorem becomeReady (hattempts : 1 ≤ definition.maxAttempts) (hkind : definition.kind = .task)
    (hvisits : node.visitCount < definition.maxVisits) (changedAt : Instant) :
    NodeInv definition (node.becomeReady changedAt) := by
  constructor <;> simp [NodeExecution.becomeReady, NodeExecution.visit, NodeExecution.clearLease,
    hkind]
  all_goals omega

theorem awaitApproval (hkind : definition.kind = .approval)
    (hvisits : node.visitCount < definition.maxVisits) (changedAt : Instant) :
    NodeInv definition (node.awaitApproval changedAt) := by
  constructor <;> simp [NodeExecution.awaitApproval, NodeExecution.visit,
    NodeExecution.clearLease, hkind]
  omega

theorem pass (hvisits : node.visitCount < definition.maxVisits) (changedAt : Instant) :
    NodeInv definition (node.pass changedAt) := by
  constructor <;> simp [NodeExecution.pass, NodeExecution.visit, NodeExecution.clearLease]
  omega

variable (h : NodeInv definition node)
include h

theorem leaseToken_none (hstatus : node.status ≠ .running) : node.leaseToken = none := by
  by_contra hne
  exact hstatus (h.leased (Option.isSome_iff_ne_none.mpr hne))

theorem leaseExpiresAt_none (hstatus : node.status ≠ .running) : node.leaseExpiresAt = none := by
  have hlease := h.lease
  rw [h.leaseToken_none hstatus] at hlease
  simpa using hlease.symm

theorem kind_of_active (hactive : node.status.isActive = true) :
    definition.kind = .task ∨ definition.kind = .approval := by
  cases hs : node.status with
  | ready => exact Or.inl (h.task (Or.inl hs))
  | running => exact Or.inl (h.task (Or.inr (Or.inl hs)))
  | awaitingApproval => exact Or.inr (h.approval hs)
  | _ => rw [hs] at hactive; cases hactive

theorem cancel (changedAt : Instant) : NodeInv definition (node.cancel changedAt) := by
  unfold NodeExecution.cancel
  split
  · rename_i hactive
    have hvisits : node.visitCount ≠ 0 := by
      rw [ne_eq, ← h.unvisited]
      rintro hpending
      simp [hpending, NodeExecutionStatus.isActive] at hactive
    have houtput := h.fresh (by
      rintro hsucceeded
      simp [hsucceeded, NodeExecutionStatus.isActive] at hactive)
    constructor <;> simp [NodeExecution.clearLease, h.visits, h.attempts, hvisits, houtput]
  · exact h

theorem beginAttempt (hready : node.status = .ready) (changedAt : Instant) :
    NodeInv definition (node.beginAttempt changedAt) := by
  have hattempts := h.ready_attempts hready
  have hvisits : node.visitCount ≠ 0 := by rw [ne_eq, ← h.unvisited, hready]; simp
  have htoken := h.leaseToken_none (by rw [hready]; simp)
  have hexpires := h.leaseExpiresAt_none (by rw [hready]; simp)
  have houtput := h.fresh (by rw [hready]; simp)
  constructor <;> simp [NodeExecution.beginAttempt, h.visits, hvisits, htoken, hexpires, houtput]
  · omega
  · exact h.task (Or.inl hready)

theorem leaseTo (hrunning : node.status = .running) (workerId : String) (leaseToken : UUID)
    (expiresAt : Instant) : NodeInv definition (node.lease workerId leaseToken expiresAt) where
  visits := h.visits
  attempts := h.attempts
  unvisited := h.unvisited
  ready_attempts := h.ready_attempts
  running_attempts := h.running_attempts
  task := h.task
  approval := h.approval
  lease := rfl
  leased _ := hrunning
  outcome := h.outcome
  fresh := h.fresh
  structural := h.structural

theorem renew {leaseToken : UUID} (hleased : node.leaseToken = some leaseToken)
    (expiresAt changedAt : Instant) : NodeInv definition (node.renew expiresAt changedAt) where
  visits := h.visits
  attempts := h.attempts
  unvisited := h.unvisited
  ready_attempts := h.ready_attempts
  running_attempts := h.running_attempts
  task := h.task
  approval := h.approval
  lease := by simp [NodeExecution.renew, hleased]
  leased := h.leased
  outcome := h.outcome
  fresh := h.fresh
  structural := h.structural

theorem complete (hrunning : node.status = .running) (outcome : NodeOutcome)
    (output : Option JsonObject) (changedAt : Instant) :
    NodeInv definition (node.complete outcome output changedAt) := by
  have hkind := h.task (Or.inr (Or.inl hrunning))
  have hvisits : node.visitCount ≠ 0 := by rw [ne_eq, ← h.unvisited, hrunning]; simp
  constructor <;> simp [NodeExecution.complete, NodeExecution.clearLease, h.visits, h.attempts,
    hvisits, hkind, NodeKind.isStructural]

theorem resolve (hawaiting : node.status = .awaitingApproval) (outcome : NodeOutcome)
    (changedAt : Instant) : NodeInv definition (node.resolve outcome changedAt) := by
  have hkind := h.approval hawaiting
  have hvisits : node.visitCount ≠ 0 := by rw [ne_eq, ← h.unvisited, hawaiting]; simp
  have htoken := h.leaseToken_none (by rw [hawaiting]; simp)
  have hexpires := h.leaseExpiresAt_none (by rw [hawaiting]; simp)
  constructor <;> simp [NodeExecution.resolve, h.visits, h.attempts, hvisits, htoken, hexpires,
    hkind, NodeKind.isStructural]

theorem retry (hrunning : node.status = .running)
    (hattempts : node.attemptCount < definition.maxAttempts) (changedAt : Instant) :
    NodeInv definition (node.retry changedAt) := by
  have hkind := h.task (Or.inr (Or.inl hrunning))
  have hvisits : node.visitCount ≠ 0 := by rw [ne_eq, ← h.unvisited, hrunning]; simp
  have houtput := h.fresh (by rw [hrunning]; simp)
  constructor <;> simp [NodeExecution.retry, NodeExecution.clearLease, h.visits, h.attempts,
    hvisits, hkind, houtput, hattempts]

theorem giveUp (hrunning : node.status = .running) (changedAt : Instant) :
    NodeInv definition (node.giveUp changedAt) := by
  have hkind := h.task (Or.inr (Or.inl hrunning))
  have hvisits : node.visitCount ≠ 0 := by rw [ne_eq, ← h.unvisited, hrunning]; simp
  have houtput := h.fresh (by rw [hrunning]; simp)
  constructor <;> simp [NodeExecution.giveUp, NodeExecution.clearLease, h.visits, h.attempts,
    hvisits, hkind, houtput]

end NodeInv

@[simp] theorem NodeExecution.cancel_not_active (node : NodeExecution) (changedAt : Instant) :
    (node.cancel changedAt).status.isActive = false := by
  unfold NodeExecution.cancel
  split
  · rfl
  · rename_i hinactive
    simpa using hinactive

/-! ## 2. Aggregates -/

namespace WorkflowExecution

/-- Every node execution satisfies the invariant of its definition. -/
def NodesInv (execution : WorkflowExecution) : Prop :=
  ∀ key node definition, execution.nodes.get? key = some node →
    execution.graph.node key = some definition → NodeInv definition node

theorem NodesInv.modifyNode {execution : WorkflowExecution} (h : execution.NodesInv) {key : NodeKey}
    {f : NodeExecution → NodeExecution} {node : NodeExecution} {definition : NodeDefinition}
    (hnode : execution.nodes.get? key = some node)
    (hdefinition : execution.graph.node key = some definition) (hf : NodeInv definition (f node)) :
    (execution.modifyNode key f).NodesInv := by
  intro key' node' definition' hnode' hdefinition'
  simp only [WorkflowExecution.modifyNode, Dict.get?_modify] at hnode'
  by_cases hkey : key' = key
  · subst hkey
    obtain rfl : definition = definition' :=
      Option.some_injective _ (hdefinition.symm.trans hdefinition')
    rw [if_pos rfl, hnode] at hnode'
    obtain rfl : f node = node' := Option.some_injective _ hnode'
    exact hf
  · rw [if_neg hkey] at hnode'
    exact h key' node' definition' hnode' hdefinition'

theorem NodesInv.cancelActiveNodes {execution : WorkflowExecution} (h : execution.NodesInv)
    (changedAt : Instant) : (execution.cancelActiveNodes changedAt).NodesInv := by
  intro key node definition hnode hdefinition
  simp only [WorkflowExecution.cancelActiveNodes, Dict.get?_mapValues,
    Option.map_eq_some_iff] at hnode
  obtain ⟨node', hnode', rfl⟩ := hnode
  exact (h key node' definition hnode' hdefinition).cancel changedAt

/-- No node waits for a worker or for an approval. -/
def Inactive (execution : WorkflowExecution) : Prop :=
  ∀ key node, execution.nodes.get? key = some node → node.status.isActive = false

theorem inactive_cancelActiveNodes (execution : WorkflowExecution) (changedAt : Instant) :
    (execution.cancelActiveNodes changedAt).Inactive := by
  intro key node hnode
  simp only [WorkflowExecution.cancelActiveNodes, Dict.get?_mapValues,
    Option.map_eq_some_iff] at hnode
  obtain ⟨node', -, rfl⟩ := hnode
  exact node'.cancel_not_active changedAt

theorem statusOf_eq {execution : WorkflowExecution} {key : NodeKey} {node : NodeExecution}
    (h : execution.nodes.get? key = some node) : execution.statusOf key = some node.status := by
  simp [statusOf, h]

theorem statusOf_modifyNode_of_ne (execution : WorkflowExecution) {key key' : NodeKey}
    (f : NodeExecution → NodeExecution) (h : key' ≠ key) :
    (execution.modifyNode key f).statusOf key' = execution.statusOf key' := by
  simp [statusOf, WorkflowExecution.modifyNode, Dict.get?_modify, h]

theorem statusOf_modifyNode_self {execution : WorkflowExecution} {key : NodeKey}
    {node : NodeExecution} (f : NodeExecution → NodeExecution)
    (h : execution.nodes.get? key = some node) :
    (execution.modifyNode key f).statusOf key = some (f node).status := by
  simp [statusOf, WorkflowExecution.modifyNode, h]

/-- Some node waits for an approval. -/
def Awaits (execution : WorkflowExecution) : Prop :=
  ∃ key, execution.statusOf key = some .awaitingApproval

theorem Awaits.modifyNode {execution : WorkflowExecution} (h : execution.Awaits) {key : NodeKey}
    (f : NodeExecution → NodeExecution)
    (hkey : execution.statusOf key ≠ some .awaitingApproval) :
    (execution.modifyNode key f).Awaits := by
  obtain ⟨key', hkey'⟩ := h
  have hne : key' ≠ key := by
    rintro rfl
    exact hkey hkey'
  exact ⟨key', by rw [statusOf_modifyNode_of_ne _ f hne, hkey']⟩

structure Inv (execution : WorkflowExecution) : Prop where
  sound : execution.Sound
  nodes : execution.NodesInv
  pending : execution.status = .pending →
    ∀ key node, execution.nodes.get? key = some node → node.status = .pending
  active : execution.ActiveLive
  awaiting : execution.status = .awaitingApproval → execution.Awaits

namespace Inv

theorem of_terminal {execution : WorkflowExecution} (hsound : execution.Sound)
    (hnodes : execution.NodesInv) (hinactive : execution.Inactive)
    (hterminal : execution.isTerminal = true) : execution.Inv where
  sound := hsound
  nodes := hnodes
  pending hpending := by
    rw [isTerminal, hpending] at hterminal
    cases hterminal
  active key node hnode hactive := by
    rw [hinactive key node hnode] at hactive
    cases hactive
  awaiting hawaiting := by
    rw [isTerminal, hawaiting] at hterminal
    cases hterminal

theorem of_live {execution : WorkflowExecution} (hsound : execution.Sound)
    (hnodes : execution.NodesInv) (hpending : execution.status ≠ .pending)
    (hlive : execution.isTerminal = false)
    (hawaiting : execution.status = .awaitingApproval → execution.Awaits) : execution.Inv where
  sound := hsound
  nodes := hnodes
  pending h := absurd h hpending
  active _ _ _ _ := hlive
  awaiting := hawaiting

variable {execution : WorkflowExecution} (h : execution.Inv)
include h

theorem node {key : NodeKey} {node : NodeExecution} (hnode : execution.nodes.get? key = some node) :
    ∃ definition, execution.graph.node key = some definition ∧ NodeInv definition node := by
  obtain ⟨definition, hdefinition⟩ := WorkflowEngine.exists_definition h.sound hnode
  exact ⟨definition, hdefinition, h.nodes key node definition hnode hdefinition⟩

/-- An execution with an active node has been started and is not terminal. -/
theorem live_of_active {key : NodeKey} {node : NodeExecution}
    (hnode : execution.nodes.get? key = some node) (hactive : node.status.isActive = true) :
    execution.status ≠ .pending ∧ execution.isTerminal = false := by
  refine ⟨fun hpending => ?_, h.active key node hnode hactive⟩
  rw [h.pending hpending key node hnode] at hactive
  cases hactive

theorem fail (reason : String) (changedAt : Instant) : (execution.fail reason changedAt).Inv :=
  of_terminal ((SameShape.fail execution reason changedAt).sound h.sound)
    (h.nodes.cancelActiveNodes changedAt) (inactive_cancelActiveNodes execution changedAt) rfl

end Inv

end WorkflowExecution

open WorkflowExecution

/-! ## 3. Visits -/

section

variable {changedAt : Instant} {execution after : WorkflowExecution} {key : NodeKey}
  {node : NodeExecution} {definition : NodeDefinition} {pushed keys : List NodeKey}
  {resets : Bool} {calls : List ActivateCall}

theorem Visit.inv (h : Visit changedAt execution key node definition pushed resets after)
    (hinv : execution.Inv) (hnode : execution.nodes.get? key = some node)
    (hdefinition : execution.graph.node key = some definition)
    (hstarted : execution.status ≠ .pending) (hlive : execution.isTerminal = false) :
    after.Inv ∧ after.status ≠ .pending := by
  have hsound := h.sameShape.sound hinv.sound
  have hnodeInv := hinv.nodes key node definition hnode hdefinition
  cases h with
  | waits => exact ⟨hinv, hstarted⟩
  | exhausted => exact ⟨hinv.fail _ changedAt, by simp [WorkflowExecution.fail, touch]⟩
  | task hkind hvisits =>
    refine ⟨Inv.of_live hsound ?_ hstarted hlive fun hawaiting => ?_, hstarted⟩
    · exact hinv.nodes.modifyNode hnode hdefinition (NodeInv.becomeReady
        (hinv.sound.wellFormed.attempts_pos key definition hdefinition) hkind hvisits changedAt)
    · refine (hinv.awaiting hawaiting).modifyNode _ fun hstatus => ?_
      rw [statusOf_eq hnode, Option.some_inj] at hstatus
      rw [hnodeInv.approval hstatus] at hkind
      cases hkind
  | approval hkind hvisits =>
    refine ⟨Inv.of_live hsound ?_ ?_ rfl fun _ => ⟨key, ?_⟩, ?_⟩
    · exact hinv.nodes.modifyNode hnode hdefinition
        (NodeInv.awaitApproval hkind hvisits changedAt)
    · simp [enterApproval, touch]
    · exact statusOf_modifyNode_self _ hnode
    · simp [enterApproval, touch]
  | structural hkind _ hvisits =>
    refine ⟨Inv.of_live hsound ?_ hstarted hlive fun hawaiting => ?_, hstarted⟩
    · exact hinv.nodes.modifyNode hnode hdefinition (NodeInv.pass hvisits changedAt)
    · refine (hinv.awaiting hawaiting).modifyNode _ fun hstatus => ?_
      rw [statusOf_eq hnode, Option.some_inj] at hstatus
      rw [hnodeInv.approval hstatus] at hkind
      cases hkind
  | terminal hkind hvisits =>
    have hterminal : (definition.terminalStatus.getD .failed).isTerminal = true := by
      rcases hinv.sound.wellFormed.terminal_status key definition hdefinition hkind with h | h <;>
        rw [h] <;> rfl
    refine ⟨Inv.of_terminal hsound ?_ (inactive_cancelActiveNodes _ changedAt) hterminal, ?_⟩
    · exact (hinv.nodes.modifyNode hnode hdefinition
        (NodeInv.pass hvisits changedAt)).cancelActiveNodes changedAt
    · intro hpending
      change definition.terminalStatus.getD .failed = .pending at hpending
      rw [hpending] at hterminal
      cases hterminal

/-- A cascade from a started execution keeps the invariant. -/
theorem Cascade.inv (h : Cascade changedAt execution keys calls after) (hinv : execution.Inv)
    (hstarted : execution.status ≠ .pending) (hlive : execution.isTerminal = false) :
    after.Inv ∧ after.status ≠ .pending := by
  induction h with
  | nil => exact ⟨hinv, hstarted⟩
  | halt hnode hdefinition hvisit _ => exact hvisit.inv hinv hnode hdefinition hstarted hlive
  | next hnode hdefinition hvisit hmiddle _ ih =>
    obtain ⟨hinv', hstarted'⟩ := hvisit.inv hinv hnode hdefinition hstarted hlive
    exact ih hinv' hstarted' hmiddle

end

/-! ## 4. Operations -/

namespace WorkflowExecution.Inv

variable {execution : WorkflowExecution} (h : execution.Inv)
include h

/-- An update of one node that is live before the update. -/
theorem modifyLive {key : NodeKey} {node : NodeExecution} {definition : NodeDefinition}
    (hnode : execution.nodes.get? key = some node)
    (hdefinition : execution.graph.node key = some definition)
    (hactive : node.status.isActive = true) (hawaiting : node.status ≠ .awaitingApproval)
    (f : NodeExecution → NodeExecution) (hkey : ∀ node, (f node).nodeKey = node.nodeKey)
    (hf : NodeInv definition (f node)) : (execution.modifyNode key f).Inv := by
  obtain ⟨hstarted, hlive⟩ := h.live_of_active hnode hactive
  refine of_live ((SameShape.modifyNode execution key f hkey).sound h.sound)
    (h.nodes.modifyNode hnode hdefinition hf) hstarted hlive fun hstatus => ?_
  refine (h.awaiting hstatus).modifyNode f fun hstatusOf => hawaiting ?_
  rw [statusOf_eq hnode] at hstatusOf
  exact Option.some_injective _ hstatusOf

/-- Bumping the version and the timestamp keeps the invariant. -/
theorem touch (changedAt : Instant) : (execution.touch changedAt).Inv where
  sound := (SameShape.of_nodes rfl rfl rfl : SameShape execution (execution.touch changedAt)).sound
    h.sound
  nodes := h.nodes
  pending := h.pending
  active := h.active
  awaiting := h.awaiting

theorem started (changedAt : Instant) :
    (execution.started changedAt).Inv :=
  of_live ((SameShape.started execution changedAt).sound h.sound) h.nodes
    (by simp [WorkflowExecution.started, WorkflowExecution.touch]) rfl
    (by simp [WorkflowExecution.started, WorkflowExecution.touch])

variable {key : NodeKey} {node : NodeExecution} {definition : NodeDefinition}
  (hnode : execution.nodes.get? key = some node)
include hnode

theorem begun (hready : node.status = .ready) (changedAt : Instant) :
    (execution.begun key changedAt).Inv := by
  obtain ⟨definition, hdefinition, hnodeInv⟩ := h.node hnode
  exact (h.modifyLive hnode hdefinition (by rw [hready]; rfl) (by rw [hready]; simp)
    (fun node => node.beginAttempt changedAt) (fun _ => rfl)
    (hnodeInv.beginAttempt hready changedAt)).touch changedAt

theorem claimed (hready : node.status = .ready) (workerId : String) (leaseToken : UUID)
    (expiresAt changedAt : Instant) :
    (execution.claimed key workerId leaseToken expiresAt changedAt).Inv := by
  obtain ⟨definition, hdefinition, hnodeInv⟩ := h.node hnode
  have hbegun : (execution.begun key changedAt).nodes.get? key =
      some (node.beginAttempt changedAt) := by
    change (execution.nodes.modify key _).get? key = _
    rw [Dict.get?_modify_self, hnode]
    rfl
  exact (h.begun hnode hready changedAt).modifyLive hbegun hdefinition rfl
    (by simp [NodeExecution.beginAttempt])
    (fun node => node.lease workerId leaseToken expiresAt) (fun _ => rfl)
    ((hnodeInv.beginAttempt hready changedAt).leaseTo rfl workerId leaseToken expiresAt)

theorem renewed (hrunning : node.status = .running) {leaseToken : UUID}
    (hleased : node.leaseToken = some leaseToken) (expiresAt changedAt : Instant) :
    (execution.renewed key expiresAt changedAt).Inv := by
  obtain ⟨definition, hdefinition, hnodeInv⟩ := h.node hnode
  exact (h.modifyLive hnode hdefinition (by rw [hrunning]; rfl) (by rw [hrunning]; simp)
    (fun node => node.renew expiresAt changedAt) (fun _ => rfl)
    (hnodeInv.renew hleased expiresAt changedAt)).touch changedAt

theorem completed (hrunning : node.status = .running) (outcome : NodeOutcome)
    (output : Option JsonObject) (changedAt : Instant) :
    (execution.completed key outcome output changedAt).Inv := by
  obtain ⟨definition, hdefinition, hnodeInv⟩ := h.node hnode
  exact (h.modifyLive hnode hdefinition (by rw [hrunning]; rfl) (by rw [hrunning]; simp)
    (fun node => node.complete outcome output changedAt) (fun _ => rfl)
    (hnodeInv.complete hrunning outcome output changedAt)).touch changedAt

theorem resolved (hawaiting : node.status = .awaitingApproval) (outcome : NodeOutcome)
    (changedAt : Instant) : (execution.resolved key outcome changedAt).Inv := by
  obtain ⟨definition, hdefinition, hnodeInv⟩ := h.node hnode
  exact of_live ((SameShape.resolved execution key changedAt outcome).sound h.sound)
    (h.nodes.modifyNode hnode hdefinition (hnodeInv.resolve hawaiting outcome changedAt))
    (by simp [WorkflowExecution.resolved, WorkflowExecution.touch]) rfl
    (by simp [WorkflowExecution.resolved, WorkflowExecution.touch])

theorem handled (hdefinition : execution.graph.node key = some definition)
    (hrunning : node.status = .running) {changedAt : Instant} {after : WorkflowExecution}
    (hhandled : Handled changedAt execution key node definition after) : after.Inv := by
  have hnodeInv := h.nodes key node definition hnode hdefinition
  have hactive : node.status.isActive = true := by rw [hrunning]; rfl
  have hawaiting : node.status ≠ .awaitingApproval := by rw [hrunning]; simp
  cases hhandled with
  | retried hattempts =>
    exact (h.modifyLive hnode hdefinition hactive hawaiting
      (fun node => node.retry changedAt) (fun _ => rfl) (hnodeInv.retry hrunning hattempts changedAt)).touch changedAt
  | givenUp hattempts reason =>
    exact (h.modifyLive hnode hdefinition hactive hawaiting
      (fun node => node.giveUp changedAt) (fun _ => rfl) (hnodeInv.giveUp hrunning changedAt)).fail reason changedAt

end WorkflowExecution.Inv

theorem Routed.inv {changedAt : Instant} {execution after : WorkflowExecution} {source : NodeKey}
    {outcome : NodeOutcome} {output : Option JsonObject} {calls : List ActivateCall}
    (h : Routed changedAt execution source outcome output calls after) (hinv : execution.Inv)
    (hstarted : execution.status ≠ .pending) (hlive : execution.isTerminal = false) :
    after.Inv ∧ after.status ≠ .pending := by
  cases h with
  | stuck _ reason => exact ⟨hinv.fail reason changedAt, by simp [WorkflowExecution.fail, touch]⟩
  | routed _ hcascade => exact hcascade.inv hinv hstarted hlive

theorem Effect.inv {execution after : WorkflowExecution} {operation : Operation}
    {calls : List ActivateCall} (h : Effect execution operation calls after)
    (hinv : execution.Inv) : after.Inv := by
  cases h with
  | start hstatus hcascade =>
    exact (hcascade.inv (hinv.started _)
      (by simp [WorkflowExecution.started, touch]) rfl).1
  | beginTask hnode _ _ hready _ => exact hinv.begun hnode hready _
  | claimTask hnode _ _ hready _ => exact hinv.claimed hnode hready _ _ _ _
  | @renewLease key leaseToken _ _ node hnode hrunning haccepts =>
    have hleased : node.leaseToken = some leaseToken := by
      unfold NodeExecution.Accepts at haccepts
      cases htoken : node.leaseToken <;> simp_all
    exact hinv.renewed hnode hrunning hleased _ _
  | completeTask hnode hrunning _ _ hrouted =>
    obtain ⟨hstarted, hlive⟩ := hinv.live_of_active hnode (by rw [hrunning]; rfl)
    exact (hrouted.inv (hinv.completed hnode hrunning _ _ _) hstarted hlive).1
  | failTask hnode hdefinition hrunning _ hhandled =>
    exact hinv.handled hnode hdefinition hrunning hhandled
  | expireTask hnode hdefinition hrunning _ _ hhandled =>
    exact hinv.handled hnode hdefinition hrunning hhandled
  | resolveApproval hnode hawaiting hrouted =>
    exact (hrouted.inv (hinv.resolved hnode hawaiting _ _)
      (by simp [WorkflowExecution.resolved, touch]) rfl).1
  | cancel _ =>
    exact Inv.of_terminal ((SameShape.cancelled execution _).sound hinv.sound)
      (hinv.nodes.cancelActiveNodes _) (inactive_cancelActiveNodes execution _) rfl

/-! ## 5. Reachable aggregates -/

theorem step_inv (execution : WorkflowExecution) (operation : Operation) (h : execution.Inv) :
    (engine.step execution operation).2.Inv := by
  rcases step_spec h.sound h.active operation with ⟨message, hstep⟩ | ⟨calls, after, hstep, heffect⟩
  · rw [hstep]
    exact h
  · rw [hstep]
    exact heffect.inv h

theorem Routed.sameShape {changedAt : Instant} {execution after : WorkflowExecution}
    {source : NodeKey} {outcome : NodeOutcome} {output : Option JsonObject}
    {calls : List ActivateCall}
    (h : Routed changedAt execution source outcome output calls after) :
    SameShape execution after := by
  cases h with
  | stuck _ reason => exact SameShape.fail execution reason changedAt
  | routed _ hcascade => exact hcascade.sameShape

theorem Handled.sameShape {changedAt : Instant} {execution after : WorkflowExecution}
    {key : NodeKey} {node : NodeExecution} {definition : NodeDefinition}
    (h : Handled changedAt execution key node definition after) : SameShape execution after := by
  cases h with
  | retried => exact SameShape.retried execution key changedAt
  | givenUp _ reason => exact SameShape.givenUp execution key changedAt reason

theorem Effect.sameShape {execution after : WorkflowExecution} {operation : Operation}
    {calls : List ActivateCall} (h : Effect execution operation calls after) :
    SameShape execution after := by
  cases h with
  | start _ hcascade => exact (SameShape.started _ _).trans hcascade.sameShape
  | beginTask => exact SameShape.begun _ _ _
  | claimTask => exact SameShape.claimed _ _ _ _ _ _
  | renewLease => exact SameShape.renewed _ _ _ _
  | completeTask _ _ _ _ hrouted => exact (SameShape.completed _ _ _ _ _).trans hrouted.sameShape
  | failTask _ _ _ _ hhandled => exact hhandled.sameShape
  | expireTask _ _ _ _ _ hhandled => exact hhandled.sameShape
  | resolveApproval _ _ hrouted => exact (SameShape.resolved _ _ _ _).trans hrouted.sameShape
  | cancel => exact SameShape.cancelled _ _

theorem step_graph (execution : WorkflowExecution) (operation : Operation) (h : execution.Inv) :
    (engine.step execution operation).2.graph = execution.graph := by
  rcases step_spec h.sound h.active operation with ⟨message, hstep⟩ | ⟨calls, after, hstep, heffect⟩
  · rw [hstep]
  · rw [hstep]
    exact congrArg WorkflowSnapshot.toWorkflowGraph heffect.sameShape.snapshot

namespace AcceptedDefinition

variable {d : AcceptedDefinition} {execution : WorkflowExecution}

theorem Creates.graph (h : d.Creates execution) : execution.graph = d.graph := by
  obtain ⟨runId, requestContext, phasePacks, skills, modelSelections, id, nodeId, now, rfl⟩ := h
  rfl

theorem Creates.status (h : d.Creates execution) : execution.status = .pending := by
  obtain ⟨runId, requestContext, phasePacks, skills, modelSelections, id, nodeId, now, rfl⟩ := h
  rfl

/-- A created node execution is blank. -/
theorem Creates.node (h : d.Creates execution) {key : NodeKey} {node : NodeExecution}
    (hnode : execution.nodes.get? key = some node) :
    node.nodeKey = key ∧ node.status = .pending ∧ node.visitCount = 0 ∧ node.attemptCount = 0 ∧
      node.leaseToken = none ∧ node.leaseExpiresAt = none ∧ node.output = none := by
  obtain ⟨runId, requestContext, phasePacks, skills, modelSelections, id, nodeId, now, rfl⟩ := h
  simp only [WorkflowExecution.create, Dict.get?_ofList, Option.map_eq_some_iff] at hnode
  obtain ⟨definition, hfind, rfl⟩ := hnode
  exact ⟨by simpa using List.find?_some hfind, rfl, rfl, rfl, rfl, rfl, rfl⟩

theorem Creates.inv (h : d.Creates execution) : execution.Inv where
  sound := by
    refine ⟨h.graph ▸ d.wellFormed, fun key => ?_, fun key node hnode => (h.node hnode).1⟩
    obtain ⟨runId, requestContext, phasePacks, skills, modelSelections, id, nodeId, now, rfl⟩ := h
    simp only [WorkflowExecution.create, Dict.get?_ofList, Option.map_eq_some_iff,
      WorkflowGraph.mem_keys_iff, WorkflowGraph.node]
    constructor
    · rintro ⟨node, definition, hfind, -⟩
      exact ⟨definition, hfind⟩
    · rintro ⟨definition, hfind⟩
      exact ⟨_, definition, hfind, rfl⟩
  nodes key node definition hnode _ := by
    obtain ⟨-, hstatus, hvisits, hattempts, htoken, hexpires, houtput⟩ := h.node hnode
    constructor <;> simp [hstatus, hvisits, hattempts, htoken, hexpires, houtput]
  pending _ key node hnode := (h.node hnode).2.1
  active key node hnode hactive := by
    rw [(h.node hnode).2.1] at hactive
    cases hactive
  awaiting hawaiting := by
    rw [h.status] at hawaiting
    cases hawaiting

theorem Creates.run_inv (h : d.Creates execution) (operations : List Operation) :
    (engine.run execution operations).Inv :=
  engine.run_invariant step_inv h.inv operations

/-- Operations never change the graph. -/
theorem Creates.run_graph (h : d.Creates execution) (operations : List Operation) :
    (engine.run execution operations).graph = d.graph := by
  have hrun := engine.run_invariant (I := fun e => e.Inv ∧ e.graph = execution.graph)
    (fun e operation he => ⟨step_inv e operation he.1, (step_graph e operation he.1).trans he.2⟩)
    ⟨h.inv, rfl⟩ operations
  exact hrun.2.trans h.graph

theorem Reachable.graph (h : d.Reachable execution) : execution.graph = d.graph := by
  obtain ⟨start, hstart, operations, rfl⟩ := h
  exact hstart.run_graph operations

theorem Reachable.inv (h : d.Reachable execution) : execution.Inv := by
  obtain ⟨start, hstart, operations, rfl⟩ := h
  exact hstart.run_inv operations

end AcceptedDefinition

end JbOrchestrator.Workflows
