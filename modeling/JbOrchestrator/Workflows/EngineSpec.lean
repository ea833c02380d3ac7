import JbOrchestrator.Workflows.Cascade

/-!
# EngineSpec — the engine's recursion is a cascade

The monadic plumbing of the engine is evaluated here once.  `activate_spec` is the induction on the
fuel of `_activate`: on a sound aggregate the recursion never raises and never runs out of fuel.
-/

open Lib

namespace JbOrchestrator.Workflows.WorkflowEngine

open WorkflowExecution

/-! ## 1. Evaluating the monad -/

section Apply

variable {α β : Type} (state : EngineState)

@[simp] theorem pure_apply (a : α) : (pure a : EngineM α) state = .ok a state := rfl

@[simp] theorem bind_apply (x : EngineM α) (f : α → EngineM β) :
    (x >>= f) state =
      match x state with
      | .ok a state' => f a state'
      | .error e state' => .error e state' := by
  change EStateM.bind x f state = _
  unfold EStateM.bind
  cases x state <;> rfl

@[simp] theorem map_apply (f : α → β) (x : EngineM α) :
    (f <$> x) state =
      match x state with
      | .ok a state' => .ok (f a) state'
      | .error e state' => .error e state' := by
  change EStateM.map f x state = _
  unfold EStateM.map
  cases x state <;> rfl

@[simp] theorem get_apply : (get : EngineM EngineState) state = .ok state state := rfl

@[simp] theorem throw_apply (e : EngineError) : (throw e : EngineM α) state = .error e state := rfl

@[simp] theorem raise_apply (message : String) :
    (raise message : EngineM α) state = .error (.workflowExecutionError message) state := rfl

@[simp] theorem modifyExecution_apply (f : WorkflowExecution → WorkflowExecution) :
    modifyExecution f state = .ok () { state with execution := f state.execution } := rfl

@[simp] theorem modifyNode_apply (key : NodeKey) (f : NodeExecution → NodeExecution) :
    modifyNode key f state =
      .ok () { state with execution := state.execution.modifyNode key f } := rfl

@[simp] theorem touch_apply (changedAt : Instant) :
    touch changedAt state =
      .ok () { state with execution := state.execution.touch changedAt } := rfl

@[simp] theorem fail_apply (reason : String) (changedAt : Instant) :
    fail reason changedAt state =
      .ok () { state with execution := state.execution.fail reason changedAt } := rfl

@[simp] theorem recordCall_apply (key : NodeKey) (resets : Bool) :
    recordCall key resets state =
      .ok () { state with calls := state.calls ++ [⟨key, state.execution, resets⟩] } := rfl

@[simp] theorem recursionLimit_apply :
    recursionLimit state = .ok (state.execution.snapshot.nodes.length + 1) state := rfl

theorem nodeExecution_apply {key : NodeKey} {node : NodeExecution}
    (h : state.execution.nodes.get? key = some node) :
    nodeExecution key state = .ok node state := by
  simp [nodeExecution, h]

theorem nodeExecution_unknown {key : NodeKey} (h : state.execution.nodes.get? key = none) :
    nodeExecution key state =
      .error (.workflowExecutionError ("unknown workflow node: " ++ key)) state := by
  simp [nodeExecution, h]

theorem nodeDefinition_apply {key : NodeKey} {definition : NodeDefinition}
    (h : state.execution.graph.node key = some definition) :
    nodeDefinition key state = .ok definition state := by
  simp [nodeDefinition, h]

end Apply

/-! ## 2. Joins -/

theorem allSucceeded_apply {state : EngineState} {sources : List NodeKey}
    (h : ∀ source ∈ sources, ∃ node, state.execution.nodes.get? source = some node) :
    allSucceeded sources state =
      .ok (decide (∀ source ∈ sources, state.execution.statusOf source = some .succeeded))
        state := by
  induction sources with
  | nil => simp [allSucceeded]
  | cons source sources ih =>
    rw [List.forall_mem_cons] at h
    obtain ⟨node, hnode⟩ := h.1
    have hstatus : state.execution.statusOf source = some node.status := by
      simp [statusOf, hnode]
    by_cases hsucceeded : node.status = .succeeded
    · simp [allSucceeded, hnode, hsucceeded, hstatus, ih h.2]
    · simp [allSucceeded, hnode, hsucceeded, hstatus]

theorem joinIsReady_apply {state : EngineState} (hsound : state.execution.Sound) (key : NodeKey) :
    joinIsReady key state = .ok (decide (state.execution.JoinReady key)) state := by
  have hsources : ∀ source ∈ state.execution.graph.incomingSources key,
      ∃ node, state.execution.nodes.get? source = some node := by
    intro source hsource
    rw [hsound.node_iff]
    exact hsound.wellFormed.source_mem_keys (WorkflowGraph.mem_incomingSources.mp hsource)
  simp only [joinIsReady, bind_apply, get_apply, allSucceeded_apply hsources]
  rfl

/-! ## 3. Activation -/

/-- `activate` behaves as the cascade on targets of rank below `bound`. -/
def Cascades (activate : NodeKey → EngineM Unit) (changedAt : Instant) (bound : ℕ) : Prop :=
  ∀ (state : EngineState) (key : NodeKey), state.execution.Sound →
    state.execution.isTerminal = false → key ∈ state.execution.graph.keys →
    state.execution.graph.structuralRank key < bound →
    ∃ calls after,
      activate key state = .ok () ⟨after, state.calls ++ calls⟩ ∧
      Cascade changedAt state.execution [key] calls after

theorem activateAll_spec {activate : NodeKey → EngineM Unit} {changedAt : Instant} {bound : ℕ}
    (hactivate : Cascades activate changedAt bound) {state : EngineState} {targets : List NodeKey}
    (hsound : state.execution.Sound) (hstart : state.execution.isTerminal = false)
    (htargets : ∀ t ∈ targets, t ∈ state.execution.graph.keys ∧
      state.execution.graph.structuralRank t < bound) :
    ∃ calls after,
      activateAll activate targets state = .ok () ⟨after, state.calls ++ calls⟩ ∧
      Cascade changedAt state.execution targets calls after := by
  induction targets generalizing state with
  | nil => exact ⟨[], state.execution, by simp [activateAll], Cascade.nil _⟩
  | cons t targets ih =>
    rw [List.forall_mem_cons] at htargets
    obtain ⟨calls, middle, hrun, hcascade⟩ :=
      hactivate state t hsound hstart htargets.1.1 htargets.1.2
    cases hmiddle : middle.isTerminal with
    | true =>
      refine ⟨calls, middle, ?_, hcascade.halt_append hstart hmiddle targets⟩
      simp [activateAll, hrun, hmiddle]
    | false =>
      have hgraph : middle.graph = state.execution.graph :=
        congrArg WorkflowSnapshot.toWorkflowGraph hcascade.sameShape.snapshot
      obtain ⟨calls', after, hrest, hcascade'⟩ :=
        @ih ⟨middle, state.calls ++ calls⟩ (hcascade.sameShape.sound hsound) hmiddle
          (fun t' ht' => by
            rw [hgraph]
            exact htargets.2 t' ht')
      refine ⟨calls ++ calls', after, ?_, hcascade.append hmiddle hcascade'⟩
      simp [activateAll, hrun, hmiddle, hrest]

theorem routeWith_spec {activate : NodeKey → EngineM Unit} {changedAt : Instant} {bound : ℕ}
    (hactivate : Cascades activate changedAt bound) (state : EngineState) (source : NodeKey)
    (outcome : NodeOutcome) (output : Option JsonObject) (hsound : state.execution.Sound)
    (hstart : state.execution.isTerminal = false)
    (htargets : ∀ t, state.execution.graph.Adjacent source t →
      state.execution.graph.structuralRank t < bound)
    (hsome : selectTargets (state.execution.graph.routeEdges source outcome) output ≠ []) :
    ∃ calls after,
      routeWith activate source outcome output changedAt state =
        .ok () ⟨after, state.calls ++ calls⟩ ∧
      Cascade changedAt state.execution
        (selectTargets (state.execution.graph.routeEdges source outcome) output)
        calls after := by
  have htargets' : ∀ t ∈ selectTargets (state.execution.graph.routeEdges source outcome) output,
      t ∈ state.execution.graph.keys ∧ state.execution.graph.structuralRank t < bound := by
    intro t ht
    have hadj := WorkflowGraph.adjacent_of_mem_selectTargets ht
    exact ⟨hsound.wellFormed.adjacent_mem_keys hadj, htargets t hadj⟩
  obtain ⟨calls, after, hrun, hcascade⟩ :=
    activateAll_spec hactivate hsound hstart htargets'
  refine ⟨calls, after, ?_, hcascade⟩
  simp [routeWith, hsome, hrun]

/-- A node that passed the guards of `_activate` does one visit and routes on. -/
theorem enter_spec {activate : NodeKey → EngineM Unit} {changedAt : Instant} {key : NodeKey}
    {node : NodeExecution} {definition : NodeDefinition} {state : EngineState}
    (hsound : state.execution.Sound) (hstart : state.execution.isTerminal = false)
    (hnode : state.execution.nodes.get? key = some node)
    (hdefinition : state.execution.graph.node key = some definition)
    (hjoin : definition.kind = .join → state.execution.JoinReady key)
    (hvisits : node.visitCount < definition.maxVisits)
    (hactivate : Cascades activate changedAt (state.execution.graph.structuralRank key)) :
    ∃ calls after,
      enter activate key definition changedAt state = .ok () ⟨after, state.calls ++ calls⟩ ∧
      Cascade changedAt state.execution [key] calls after := by
  have hpass : ∀ e : WorkflowExecution, ∀ f g : NodeExecution → NodeExecution,
      (e.modifyNode key f).modifyNode key g = e.modifyNode key fun node => g (f node) := by
    intro e f g
    simp only [WorkflowExecution.modifyNode, Dict.modify_modify]
  cases hkind : definition.kind with
  | task =>
    refine ⟨[⟨key, state.execution, true⟩], state.execution.enterTask key changedAt, ?_, ?_⟩
    · simp only [enter, hkind, bind_apply, recordCall_apply, modifyNode_apply, touch_apply, hpass]
      rfl
    · exact Cascade.next hnode hdefinition (Visit.task hkind hvisits) hstart (Cascade.nil _)
  | approval =>
    refine ⟨[⟨key, state.execution, true⟩], state.execution.enterApproval key changedAt, ?_, ?_⟩
    · simp only [enter, hkind, bind_apply, recordCall_apply, modifyNode_apply,
        modifyExecution_apply, touch_apply, hpass]
      rfl
    · exact Cascade.next hnode hdefinition (Visit.approval hkind hvisits) rfl (Cascade.nil _)
  | terminal =>
    refine ⟨[⟨key, state.execution, true⟩],
      state.execution.enterTerminal key (definition.terminalStatus.getD .failed) changedAt, ?_, ?_⟩
    · by_cases hfailed : definition.terminalStatus.getD .failed = .failed <;>
        simp [enter, hkind, hfailed, enterTerminal, NodeExecution.pass,
          WorkflowExecution.cancelActiveNodes, WorkflowExecution.modifyNode, Dict.modify_modify]
    · refine Cascade.halt hnode hdefinition (Visit.terminal hkind hvisits) ?_
      rcases hsound.wellFormed.terminal_status key definition hdefinition hkind with h | h <;>
        simp [h, enterTerminal, WorkflowExecution.touch, WorkflowExecution.isTerminal,
          WorkflowStatus.isTerminal]
  | fork | join =>
    have hstructural : definition.kind.isStructural := by rw [hkind]; rfl
    obtain ⟨calls, after, hrun, hcascade⟩ := routeWith_spec hactivate
      ⟨state.execution.enterStructural key changedAt,
        state.calls ++ [⟨key, state.execution, true⟩]⟩ key .success none
      ((SameShape.enterStructural state.execution key changedAt).sound hsound) hstart
      (fun t ht => hsound.wellFormed.structuralRank_lt hdefinition hstructural ht)
      (hsound.wellFormed.structural_targets_ne_nil hdefinition hstructural none)
    refine ⟨⟨key, state.execution, true⟩ :: calls, after, ?_, ?_⟩
    · simp only [enter, hkind, bind_apply, recordCall_apply, modifyNode_apply, touch_apply, hpass]
      rw [List.append_assoc] at hrun
      exact hrun
    · refine Cascade.next hnode hdefinition
        (Visit.structural hstructural hjoin hvisits) hstart ?_
      rw [List.append_nil]
      exact hcascade

/-- On a sound aggregate the recursion of `_activate` returns, and it does what the cascade does. -/
theorem activate_spec (changedAt : Instant) (fuel : ℕ) :
    Cascades (fun key => activate fuel key changedAt) changedAt fuel := by
  induction fuel with
  | zero => intro state key _ _ _ hrank; exact absurd hrank (Nat.not_lt_zero _)
  | succ fuel ih =>
    intro state key hsound hstart hkey hrank
    obtain ⟨node, hnode⟩ := (hsound.node_iff key).mpr hkey
    obtain ⟨definition, hdefinition⟩ := WorkflowGraph.mem_keys_iff.mp hkey
    by_cases hwaits : definition.kind = .join ∧ ¬state.execution.JoinReady key
    · refine ⟨[⟨key, state.execution, false⟩], state.execution, ?_,
        Cascade.next hnode hdefinition (Visit.waits hwaits.1 hwaits.2) hstart (Cascade.nil _)⟩
      simp [activate, nodeExecution_apply state hnode, nodeDefinition_apply state hdefinition,
        hwaits.1, hwaits.2, joinIsReady_apply hsound]
    · have hjoin : definition.kind = .join → state.execution.JoinReady key := by
        intro hkind
        by_contra hready
        exact hwaits ⟨hkind, hready⟩
      by_cases hvisits : definition.maxVisits ≤ node.visitCount
      · refine ⟨[⟨key, state.execution, false⟩], _, ?_,
          Cascade.halt hnode hdefinition (Visit.exhausted hjoin hvisits) rfl⟩
        by_cases hkind : definition.kind = .join
        · simp [activate, nodeExecution_apply state hnode, nodeDefinition_apply state hdefinition,
            hkind, joinIsReady_apply hsound, hjoin hkind, hvisits]
        · simp [activate, nodeExecution_apply state hnode, nodeDefinition_apply state hdefinition,
            hkind, hvisits]
      · have hrest := enter_spec hsound hstart hnode hdefinition hjoin (not_le.mp hvisits)
          (fun s k hs ht hk hr => ih s k hs ht hk (by omega))
        by_cases hkind : definition.kind = .join
        · simpa [activate, nodeExecution_apply state hnode, nodeDefinition_apply state hdefinition,
            hkind, joinIsReady_apply hsound, hjoin hkind, hvisits] using hrest
        · simpa [activate, nodeExecution_apply state hnode, nodeDefinition_apply state hdefinition,
            hkind, hvisits] using hrest

/-- The recursion limit of the engine is above every rank. -/
theorem structuralRank_lt_limit (execution : WorkflowExecution) (key : NodeKey) :
    execution.graph.structuralRank key < execution.snapshot.nodes.length + 1 :=
  Nat.lt_succ_of_le (WorkflowGraph.structuralRank_le _ _)

end JbOrchestrator.Workflows.WorkflowEngine
