import JbOrchestrator.Workflows.Runs

/-!
# Statuses — what an operation can make of the status of an execution

These facts hold on every sound aggregate whose active nodes belong to a live execution, also on one
that no sequence of operations reaches; the transactions that load a node row from an older
snapshot need them there.
-/

open Lib

namespace JbOrchestrator.Workflows

open WorkflowExecution

/-- A status that the cascades of a started execution lead to. -/
def WorkflowStatus.isMoving : WorkflowStatus → Bool
  | .pending | .cancelled => false
  | _ => true

theorem WorkflowExecution.ActiveLive.of_live {execution : WorkflowExecution}
    (hlive : execution.isTerminal = false) : execution.ActiveLive := fun _ _ _ _ => hlive

theorem WorkflowExecution.Inactive.activeLive {execution : WorkflowExecution}
    (h : execution.Inactive) : execution.ActiveLive := by
  intro key node hnode hactive
  rw [h key node hnode] at hactive
  cases hactive

section

variable {changedAt : Instant} {execution after : WorkflowExecution} {key : NodeKey}
  {node : NodeExecution} {definition : NodeDefinition} {pushed keys : List NodeKey}
  {resets : Bool} {calls : List ActivateCall}

theorem Visit.activeLive (h : Visit changedAt execution key node definition pushed resets after)
    (hlive : execution.isTerminal = false) : after.ActiveLive := by
  cases h with
  | waits => exact ActiveLive.of_live hlive
  | exhausted => exact Inactive.activeLive (inactive_cancelActiveNodes execution changedAt)
  | task => exact ActiveLive.of_live hlive
  | approval => exact ActiveLive.of_live rfl
  | structural => exact ActiveLive.of_live hlive
  | terminal =>
    exact Inactive.activeLive (inactive_cancelActiveNodes
      (execution.modifyNode key fun node => node.pass changedAt) changedAt)

theorem Visit.moving (h : Visit changedAt execution key node definition pushed resets after)
    (hsound : execution.Sound) (hdefinition : execution.graph.node key = some definition)
    (hmoving : execution.status.isMoving = true) : after.status.isMoving = true := by
  cases h with
  | waits => exact hmoving
  | exhausted => rfl
  | task => exact hmoving
  | approval => rfl
  | structural => exact hmoving
  | terminal hkind =>
    show (definition.terminalStatus.getD .failed).isMoving = true
    rcases hsound.wellFormed.terminal_status key definition hdefinition hkind with h | h <;>
      rw [h] <;> rfl

/-- A cascade from a live execution keeps the active nodes in a live execution. -/
theorem Cascade.activeLive (h : Cascade changedAt execution keys calls after)
    (hlive : execution.isTerminal = false) : after.ActiveLive := by
  induction h with
  | nil => exact ActiveLive.of_live hlive
  | halt _ _ hvisit _ => exact hvisit.activeLive hlive
  | next _ _ _ hmiddle _ ih => exact ih hmiddle

theorem Cascade.moving (h : Cascade changedAt execution keys calls after)
    (hsound : execution.Sound) (hmoving : execution.status.isMoving = true) :
    after.status.isMoving = true := by
  induction h with
  | nil => exact hmoving
  | halt _ hdefinition hvisit _ => exact hvisit.moving hsound hdefinition hmoving
  | next _ hdefinition hvisit _ _ ih =>
    exact ih (hvisit.sameShape.sound hsound) (hvisit.moving hsound hdefinition hmoving)

end

section

variable {changedAt : Instant} {execution after : WorkflowExecution} {key : NodeKey}
  {node : NodeExecution} {definition : NodeDefinition} {operation : Operation}
  {calls : List ActivateCall}

theorem Routed.activeLive {outcome : NodeOutcome} {output : Option JsonObject}
    (h : Routed changedAt execution key outcome output calls after)
    (hlive : execution.isTerminal = false) : after.ActiveLive := by
  cases h with
  | stuck => exact Inactive.activeLive (inactive_cancelActiveNodes execution changedAt)
  | routed _ hcascade => exact hcascade.activeLive hlive

theorem Routed.moving {outcome : NodeOutcome} {output : Option JsonObject}
    (h : Routed changedAt execution key outcome output calls after) (hsound : execution.Sound)
    (hmoving : execution.status.isMoving = true) : after.status.isMoving = true := by
  cases h with
  | stuck => rfl
  | routed _ hcascade => exact hcascade.moving hsound hmoving

/-- Every operation that succeeds does so on an execution that is not terminal. -/
theorem Effect.live (h : Effect execution operation calls after) (hactive : execution.ActiveLive) :
    execution.isTerminal = false := by
  cases h with
  | start hstatus => rw [isTerminal, hstatus]; rfl
  | beginTask hnode _ _ hready => exact hactive _ _ hnode (by rw [hready]; rfl)
  | claimTask hnode _ _ hready => exact hactive _ _ hnode (by rw [hready]; rfl)
  | renewLease hnode hrunning => exact hactive _ _ hnode (by rw [hrunning]; rfl)
  | completeTask hnode hrunning => exact hactive _ _ hnode (by rw [hrunning]; rfl)
  | failTask hnode _ hrunning => exact hactive _ _ hnode (by rw [hrunning]; rfl)
  | expireTask hnode _ hrunning => exact hactive _ _ hnode (by rw [hrunning]; rfl)
  | resolveApproval hnode hawaiting => exact hactive _ _ hnode (by rw [hawaiting]; rfl)
  | cancel hlive => exact hlive

theorem Handled.activeLive (h : Handled changedAt execution key node definition after)
    (hlive : execution.isTerminal = false) : after.ActiveLive := by
  cases h with
  | retried => exact ActiveLive.of_live hlive
  | givenUp => exact Inactive.activeLive (inactive_cancelActiveNodes _ changedAt)

theorem Effect.activeLive (h : Effect execution operation calls after)
    (hactive : execution.ActiveLive) : after.ActiveLive := by
  have hlive := h.live hactive
  cases h with
  | start _ hcascade => exact hcascade.activeLive rfl
  | beginTask => exact ActiveLive.of_live hlive
  | claimTask => exact ActiveLive.of_live hlive
  | renewLease => exact ActiveLive.of_live hlive
  | completeTask _ _ _ _ hrouted => exact hrouted.activeLive hlive
  | failTask _ _ _ _ hhandled => exact hhandled.activeLive hlive
  | expireTask _ _ _ _ _ hhandled => exact hhandled.activeLive hlive
  | resolveApproval _ _ hrouted => exact hrouted.activeLive rfl
  | cancel => exact Inactive.activeLive (inactive_cancelActiveNodes execution _)

theorem Handled.started (h : Handled changedAt execution key node definition after)
    (hstarted : execution.status ≠ .pending) : after.status ≠ .pending := by
  cases h with
  | retried => exact hstarted
  | givenUp => simp [WorkflowExecution.givenUp, WorkflowExecution.fail, touch]

theorem isMoving_of_live (hlive : execution.isTerminal = false)
    (hstarted : execution.status ≠ .pending) : execution.status.isMoving = true := by
  unfold isTerminal at hlive
  cases hstatus : execution.status <;> simp_all [WorkflowStatus.isMoving, WorkflowStatus.isTerminal]

theorem WorkflowStatus.ne_pending_of_isMoving {status : WorkflowStatus}
    (h : status.isMoving = true) : status ≠ .pending := by
  rintro rfl
  cases h

/-- No operation brings a started execution back to `pending`. -/
theorem Effect.started (h : Effect execution operation calls after) (hsound : execution.Sound)
    (hactive : execution.ActiveLive) (hstarted : execution.status ≠ .pending) :
    after.status ≠ .pending := by
  have hlive := h.live hactive
  cases h with
  | start hstatus => exact absurd hstatus hstarted
  | beginTask => exact hstarted
  | claimTask => exact hstarted
  | renewLease => exact hstarted
  | completeTask _ _ _ _ hrouted =>
    exact WorkflowStatus.ne_pending_of_isMoving
      (hrouted.moving ((SameShape.completed execution _ _ _ _).sound hsound)
        (isMoving_of_live hlive hstarted))
  | failTask _ _ _ _ hhandled => exact hhandled.started hstarted
  | expireTask _ _ _ _ _ hhandled => exact hhandled.started hstarted
  | resolveApproval _ _ hrouted =>
    exact WorkflowStatus.ne_pending_of_isMoving
      (hrouted.moving ((SameShape.resolved execution _ _ _).sound hsound) rfl)
  | cancel => simp [WorkflowExecution.cancelled, touch]

/-- A workflow that starts is running, waits, or has already ended by itself. -/
theorem Effect.start_moving (h : Effect execution (.start changedAt) calls after)
    (hsound : execution.Sound) : after.status.isMoving = true := by
  cases h with
  | start _ hcascade =>
    exact hcascade.moving ((SameShape.started execution changedAt).sound hsound) rfl

end

end JbOrchestrator.Workflows
