import JbOrchestrator.Workflows.Leases

/-!
# Attempts — no operation takes an attempt back

The visits of a node and the attempts of its current visit are counted up only, and a claim counts
one attempt up.  An attempt that was claimed is therefore never claimed again.
-/

open Lib

namespace JbOrchestrator.Workflows

open WorkflowExecution

/-! ## 1. Nodes -/

/-- `node'` is in the same visit and attempt as `node`, or in a later one. -/
def NodeExecution.NotBefore (node node' : NodeExecution) : Prop :=
  node.visitCount < node'.visitCount ∨
    node.visitCount = node'.visitCount ∧ node.attemptCount ≤ node'.attemptCount

namespace NodeExecution.NotBefore

theorem refl (node : NodeExecution) : NotBefore node node := Or.inr ⟨rfl, le_rfl⟩

theorem trans {a b c : NodeExecution} (h : NotBefore a b) (h' : NotBefore b c) : NotBefore a c := by
  unfold NotBefore at *
  omega

theorem beginAttempt (node : NodeExecution) (changedAt : Instant) :
    NotBefore node (node.beginAttempt changedAt) := Or.inr ⟨rfl, Nat.le_succ _⟩

theorem of_visit {node node' : NodeExecution} (h : node.visitCount < node'.visitCount) :
    NotBefore node node' := Or.inl h

theorem cancel (node : NodeExecution) (changedAt : Instant) :
    NotBefore node (node.cancel changedAt) := by
  unfold NodeExecution.cancel
  split
  · exact refl node
  · exact refl node

end NodeExecution.NotBefore

/-! ## 2. Executions -/

/-- No node of `after` is in an earlier visit or attempt. -/
def WorkflowExecution.Advances (execution after : WorkflowExecution) : Prop :=
  ∀ key node, execution.nodes.get? key = some node →
    ∃ node', after.nodes.get? key = some node' ∧ node.NotBefore node'

namespace WorkflowExecution.Advances

variable {execution middle after : WorkflowExecution}

theorem of_nodes (h : after.nodes = execution.nodes) : Advances execution after :=
  fun _ node hnode => ⟨node, h ▸ hnode, .refl node⟩

theorem trans (h : Advances execution middle) (h' : Advances middle after) :
    Advances execution after := by
  intro key node hnode
  obtain ⟨node', hnode', hle⟩ := h key node hnode
  obtain ⟨node'', hnode'', hle'⟩ := h' key node' hnode'
  exact ⟨node'', hnode'', hle.trans hle'⟩

theorem modify (key : NodeKey) (f : NodeExecution → NodeExecution)
    (hnodes : after.nodes = execution.nodes.modify key f)
    (hf : ∀ node, NodeExecution.NotBefore node (f node)) : Advances execution after := by
  intro key' node hnode
  rw [hnodes, Dict.get?_modify]
  split
  · exact ⟨f node, by rw [hnode]; rfl, hf node⟩
  · exact ⟨node, hnode, .refl node⟩

theorem cancelActiveNodes (changedAt : Instant)
    (hnodes : after.nodes = (execution.cancelActiveNodes changedAt).nodes) :
    Advances execution after := by
  intro key node hnode
  refine ⟨node.cancel changedAt, ?_, .cancel node changedAt⟩
  rw [hnodes]
  simp only [WorkflowExecution.cancelActiveNodes, Dict.get?_mapValues, hnode, Option.map_some]

theorem fail (reason : String) (changedAt : Instant) :
    Advances execution (execution.fail reason changedAt) :=
  cancelActiveNodes changedAt rfl

end WorkflowExecution.Advances

section

variable {changedAt : Instant} {execution after : WorkflowExecution} {key : NodeKey}
  {node : NodeExecution} {definition : NodeDefinition} {pushed keys : List NodeKey}
  {resets : Bool} {calls : List ActivateCall}

theorem Visit.advances (h : Visit changedAt execution key node definition pushed resets after) :
    Advances execution after := by
  cases h with
  | waits => exact .of_nodes rfl
  | exhausted => exact .fail _ _
  | task =>
    exact .modify key (fun node => node.becomeReady changedAt) rfl fun node =>
      .of_visit (Nat.lt_succ_self _)
  | approval =>
    exact .modify key (fun node => node.awaitApproval changedAt) rfl fun node =>
      .of_visit (Nat.lt_succ_self _)
  | structural =>
    exact .modify key (fun node => node.pass changedAt) rfl fun node =>
      .of_visit (Nat.lt_succ_self _)
  | terminal =>
    have hpassed : Advances execution (execution.modifyNode key fun node => node.pass changedAt) :=
      .modify key (fun node => node.pass changedAt) rfl fun node => .of_visit (Nat.lt_succ_self _)
    exact hpassed.trans (.cancelActiveNodes changedAt rfl)

theorem Cascade.advances (h : Cascade changedAt execution keys calls after) :
    Advances execution after := by
  induction h with
  | nil => exact .of_nodes rfl
  | halt _ _ hvisit => exact hvisit.advances
  | next _ _ hvisit _ _ ih => exact hvisit.advances.trans ih

theorem Routed.advances {source : NodeKey} {outcome : NodeOutcome} {output : Option JsonObject}
    (h : Routed changedAt execution source outcome output calls after) :
    Advances execution after := by
  cases h with
  | stuck _ reason => exact .fail reason changedAt
  | routed _ hcascade => exact hcascade.advances

theorem Handled.advances (h : Handled changedAt execution key node definition after) :
    Advances execution after := by
  cases h with
  | retried => exact .modify key (fun node => node.retry changedAt) rfl fun node => .refl node
  | givenUp _ reason =>
    have hmodified : Advances execution
        (execution.modifyNode key fun node => node.giveUp changedAt) :=
      .modify key (fun node => node.giveUp changedAt) rfl fun node => .refl node
    exact hmodified.trans (.fail reason changedAt)

/-- No operation takes an attempt back. -/
theorem Effect.advances {operation : Operation} (h : Effect execution operation calls after) :
    Advances execution after := by
  cases h with
  | @start changedAt _ _ _ hcascade =>
    have hstarted : Advances execution (execution.started changedAt) := .of_nodes rfl
    exact hstarted.trans hcascade.advances
  | @beginTask key changedAt =>
    exact .modify key (fun node => node.beginAttempt changedAt) rfl fun node =>
      .beginAttempt node changedAt
  | @claimTask key _ _ _ changedAt =>
    exact .modify key _ (execution.claimed_nodes key _ _ _ changedAt) fun node =>
      .beginAttempt node changedAt
  | @renewLease key _ leaseSeconds changedAt =>
    exact .modify key (fun node => node.renew (changedAt + WorkflowEngine.seconds leaseSeconds)
      changedAt) rfl fun node => .refl node
  | @completeTask key outcome output _ changedAt _ _ _ _ _ _ _ hrouted =>
    have hcompleted : Advances execution (execution.completed key outcome output changedAt) :=
      .modify key (fun node => node.complete outcome output changedAt) rfl fun node => .refl node
    exact hcompleted.trans hrouted.advances
  | failTask _ _ _ _ hhandled => exact hhandled.advances
  | expireTask _ _ _ _ _ hhandled => exact hhandled.advances
  | @resolveApproval key approved changedAt _ _ _ _ _ hrouted =>
    have hresolved : Advances execution
        (execution.resolved key (approvalOutcome approved) changedAt) :=
      .modify key (fun node => node.resolve (approvalOutcome approved) changedAt) rfl fun node =>
        .refl node
    exact hresolved.trans hrouted.advances
  | cancel => exact .cancelActiveNodes _ rfl

/-- A claim begins the next attempt of the visit. -/
theorem Effect.claim_attempt {workerId : String} {leaseSeconds : ℕ} {leaseToken : UUID}
    (h : Effect execution (.claimTask key workerId leaseSeconds leaseToken changedAt) calls after)
    (hnode : after.nodes.get? key = some node) :
    ∃ node', execution.nodes.get? key = some node' ∧ node'.visitCount = node.visitCount ∧
      node'.attemptCount + 1 = node.attemptCount := by
  cases h with
  | @claimTask _ _ _ _ _ node' _ hnode' =>
    rw [execution.claimed_nodes, Dict.get?_modify_self, hnode'] at hnode
    obtain rfl := Option.some.inj hnode
    exact ⟨node', hnode', rfl, rfl⟩

end

end JbOrchestrator.Workflows
