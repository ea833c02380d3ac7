import JbOrchestrator.Workflows.Invariants

/-!
# Runs — the calls of `_activate` along a run

Every transition of a run either raises and changes nothing, or has its effect; the calls of a
successful operation are those of one cascade, from the entry node or from the targets of the visit
that the operation ended.  `Cascade.forall_calls` carries a property to all calls of a cascade.
-/

open Lib

namespace JbOrchestrator.Workflows

open WorkflowExecution

/-! ## 1. Transitions -/

/-- A transition whose operation raised. -/
def EngineStep.Raised (t : EngineStep) : Prop :=
  t.output.succeeded = false ∧ t.after = t.before ∧ t.output.calls = []

/-- A transition whose operation succeeded. -/
def EngineStep.Took (t : EngineStep) : Prop :=
  t.output.succeeded = true ∧ Effect t.before t.input t.output.calls t.after

theorem fire_cases {execution : WorkflowExecution} (h : execution.Inv) (operation : Operation) :
    EngineStep.Raised (engine.fire execution operation) ∨
      EngineStep.Took (engine.fire execution operation) := by
  rcases step_spec h.sound h.active operation with ⟨message, hstep⟩ | ⟨calls, after, hstep, heffect⟩
  · left
    refine ⟨?_, ?_, ?_⟩ <;> simp [Machine.fire, hstep, Reply.succeeded]
  · right
    constructor
    · simp [Machine.fire, hstep, Reply.succeeded]
    · simpa [Machine.fire, hstep] using heffect

namespace AcceptedDefinition

variable {d : AcceptedDefinition} {start : WorkflowExecution} {operations : List Operation}

/-- Every transition of a run starts in a reachable state and raises or takes effect. -/
theorem Creates.trace_cases (h : d.Creates start) {t : EngineStep}
    (ht : t ∈ engine.trace start operations) :
    t.before.Inv ∧ t.before.graph = d.graph ∧ (t.Raised ∨ t.Took) := by
  obtain ⟨done, operation, rest, rfl, rfl⟩ := engine.mem_trace ht
  exact ⟨h.run_inv done, h.run_graph done, fire_cases (h.run_inv done) operation⟩

end AcceptedDefinition

/-! ## 2. Calls -/

section

variable {changedAt : Instant} {execution middle after : WorkflowExecution} {key key' : NodeKey}
  {node : NodeExecution} {definition : NodeDefinition} {pushed keys : List NodeKey}
  {resets : Bool} {calls : List ActivateCall}

/-- A property of every visit is a property of every call of a cascade; `I` is an invariant of the
aggregate and the stack. -/
theorem Cascade.forall_calls {P : ActivateCall → Prop} {I : WorkflowExecution → List NodeKey → Prop}
    (hcall : ∀ e key keys node definition pushed resets after, I e (key :: keys) →
      e.nodes.get? key = some node → e.graph.node key = some definition →
      Visit changedAt e key node definition pushed resets after → P ⟨key, e, resets⟩)
    (hnext : ∀ e key keys node definition pushed resets after, I e (key :: keys) →
      e.nodes.get? key = some node → e.graph.node key = some definition →
      Visit changedAt e key node definition pushed resets after → after.isTerminal = false →
      I after (pushed ++ keys))
    (h : Cascade changedAt execution keys calls after) (hI : I execution keys) :
    ∀ call ∈ calls, P call := by
  induction h with
  | nil => simp
  | halt hnode hdefinition hvisit _ =>
    simpa using hcall _ _ _ _ _ _ _ _ hI hnode hdefinition hvisit
  | next hnode hdefinition hvisit hterminal _ ih =>
    rw [List.forall_mem_cons]
    exact ⟨hcall _ _ _ _ _ _ _ _ hI hnode hdefinition hvisit,
      ih (hnext _ _ _ _ _ _ _ _ hI hnode hdefinition hvisit hterminal)⟩

/-- The invariant of the aggregate inside a cascade. -/
structure Live (execution : WorkflowExecution) : Prop where
  inv : execution.Inv
  started : execution.status ≠ .pending
  notTerminal : execution.isTerminal = false

theorem Visit.live (h : Visit changedAt execution key node definition pushed resets after)
    (hlive : Live execution) (hnode : execution.nodes.get? key = some node)
    (hdefinition : execution.graph.node key = some definition)
    (hterminal : after.isTerminal = false) : Live after := by
  obtain ⟨hinv, hstarted⟩ := h.inv hlive.inv hnode hdefinition hlive.started hlive.notTerminal
  exact ⟨hinv, hstarted, hterminal⟩

theorem enterTerminal_isTerminal (hsound : execution.Sound)
    (hdefinition : execution.graph.node key = some definition)
    (hkind : definition.kind = .terminal) :
    (execution.enterTerminal key (definition.terminalStatus.getD .failed)
      changedAt).isTerminal = true := by
  change (definition.terminalStatus.getD .failed).isTerminal = true
  rcases hsound.wellFormed.terminal_status key definition hdefinition hkind with h | h <;>
    rw [h] <;> rfl

/-- A visit that leaves the execution running touches no other node. -/
theorem Visit.get?_of_ne (h : Visit changedAt execution key node definition pushed resets after)
    (hsound : execution.Sound) (hdefinition : execution.graph.node key = some definition)
    (hterminal : after.isTerminal = false) (hne : key' ≠ key) :
    after.nodes.get? key' = execution.nodes.get? key' := by
  cases h with
  | waits => rfl
  | exhausted => cases hterminal
  | task => exact Dict.get?_modify_of_ne _ _ hne
  | approval => exact Dict.get?_modify_of_ne _ _ hne
  | structural => exact Dict.get?_modify_of_ne _ _ hne
  | terminal hkind =>
    rw [enterTerminal_isTerminal hsound hdefinition hkind] at hterminal
    cases hterminal

end

/-! ## 3. Where the calls of an operation come from -/

/-- The latest visit of `source` has ended and its route selects an edge to `target`. -/
def WorkflowExecution.Arrives (execution : WorkflowExecution) (source target : NodeKey) : Prop :=
  ∃ node outcome, execution.nodes.get? source = some node ∧ node.status = .succeeded ∧
    node.outcome = some outcome ∧ target ∈ execution.targets source outcome node.output

/-- What starts a cascade: the entry node, or the targets of a task or an approval that ended. -/
inductive Origin (execution : WorkflowExecution) : List NodeKey → Prop where
  | entry : Origin execution [execution.graph.entryNode]
  | visit {source : NodeKey} {node : NodeExecution} {definition : NodeDefinition}
    {outcome : NodeOutcome} (hnode : execution.nodes.get? source = some node)
    (hdefinition : execution.graph.node source = some definition)
    (hkind : definition.kind ≠ .fork) (hstatus : node.status = .succeeded)
    (houtcome : node.outcome = some outcome) :
    Origin execution (execution.targets source outcome node.output)

theorem Effect.calls_cascade {execution after : WorkflowExecution} {operation : Operation}
    {calls : List ActivateCall} (h : Effect execution operation calls after)
    (hinv : execution.Inv) :
    calls = [] ∨ ∃ changedAt middle keys, SameShape execution middle ∧ Live middle ∧
      Origin middle keys ∧ Cascade changedAt middle keys calls after := by
  cases h with
  | @start changedAt _ _ hstatus hcascade =>
    exact Or.inr ⟨changedAt, _, _, SameShape.started execution changedAt,
      ⟨hinv.started changedAt, by simp [WorkflowExecution.started, touch], rfl⟩, Origin.entry,
      hcascade⟩
  | @completeTask key outcome output _ changedAt node _ _ hnode hrunning _ _ hrouted =>
    cases hrouted with
    | stuck => exact Or.inl rfl
    | routed _ hcascade =>
      obtain ⟨hstarted, hlive⟩ := hinv.live_of_active hnode (by rw [hrunning]; rfl)
      obtain ⟨definition, hdefinition, hnodeInv⟩ := hinv.node hnode
      have hnode' : (execution.completed key outcome output changedAt).nodes.get? key =
          some (node.complete outcome output changedAt) := by
        change (execution.nodes.modify key _).get? key = _
        rw [Dict.get?_modify_self, hnode]
        rfl
      have hkind : definition.kind ≠ .fork := by
        rw [hnodeInv.task (Or.inr (Or.inl hrunning))]
        simp
      exact Or.inr ⟨changedAt, _, _, SameShape.completed execution key changedAt outcome output,
        ⟨hinv.completed hnode hrunning outcome output changedAt, hstarted, hlive⟩,
        Origin.visit hnode' hdefinition hkind rfl rfl, hcascade⟩
  | @resolveApproval key approved changedAt node _ _ hnode hawaiting hrouted =>
    cases hrouted with
    | stuck => exact Or.inl rfl
    | routed _ hcascade =>
      obtain ⟨definition, hdefinition, hnodeInv⟩ := hinv.node hnode
      have hnode' : (execution.resolved key (approvalOutcome approved) changedAt).nodes.get? key =
          some (node.resolve (approvalOutcome approved) changedAt) := by
        change (execution.nodes.modify key _).get? key = _
        rw [Dict.get?_modify_self, hnode]
        rfl
      have hkind : definition.kind ≠ .fork := by
        rw [hnodeInv.approval hawaiting]
        simp
      have houtput : node.output = none := hnodeInv.fresh (by rw [hawaiting]; simp)
      have horigin := Origin.visit hnode' hdefinition hkind rfl rfl
      rw [show (node.resolve (approvalOutcome approved) changedAt).output = none from houtput]
        at horigin
      exact Or.inr ⟨changedAt, _, _, SameShape.resolved execution key changedAt _,
        ⟨hinv.resolved hnode hawaiting _ changedAt,
          by simp [WorkflowExecution.resolved, touch], rfl⟩, horigin, hcascade⟩
  | _ => exact Or.inl rfl

/-! ## 4. Operations that route -/

/-- The aggregate and the targets with which an operation starts to activate nodes. -/
def Operation.routing (execution : WorkflowExecution) :
    Operation → Option (WorkflowExecution × List NodeKey)
  | .start changedAt => some (execution.started changedAt, [execution.graph.entryNode])
  | .completeTask key outcome output _ changedAt =>
    some (execution.completed key outcome output changedAt, execution.targets key outcome output)
  | .resolveApproval key approved changedAt =>
    some (execution.resolved key (approvalOutcome approved) changedAt,
      execution.targets key (approvalOutcome approved) none)
  | _ => none

/-- A routing operation fails the execution when there is no target, and cascades otherwise. -/
theorem Effect.routing_spec {execution after middle : WorkflowExecution} {operation : Operation}
    {calls : List ActivateCall} {keys : List NodeKey}
    (h : Effect execution operation calls after) (hinv : execution.Inv)
    (hrouting : operation.routing execution = some (middle, keys)) :
    Live middle ∧ SameShape execution middle ∧
      ((keys = [] ∧ after.isTerminal = true) ∨
        (keys ≠ [] ∧ ∃ changedAt, Cascade changedAt middle keys calls after)) := by
  cases h with
  | @start changedAt _ _ _ hcascade =>
    obtain ⟨rfl, rfl⟩ := Prod.mk.inj (Option.some_injective _ hrouting)
    exact ⟨⟨hinv.started changedAt, by simp [WorkflowExecution.started, touch], rfl⟩,
      SameShape.started execution changedAt, Or.inr ⟨by simp, changedAt, hcascade⟩⟩
  | @completeTask key outcome output _ changedAt _ _ _ hnode hrunning _ _ hrouted =>
    obtain ⟨rfl, rfl⟩ := Prod.mk.inj (Option.some_injective _ hrouting)
    obtain ⟨hstarted, hlive⟩ := hinv.live_of_active hnode (by rw [hrunning]; rfl)
    refine ⟨⟨hinv.completed hnode hrunning outcome output changedAt, hstarted, hlive⟩,
      SameShape.completed execution key changedAt outcome output, ?_⟩
    cases hrouted with
    | stuck htargets => exact Or.inl ⟨htargets, rfl⟩
    | routed htargets hcascade => exact Or.inr ⟨htargets, changedAt, hcascade⟩
  | @resolveApproval key approved changedAt _ _ _ hnode hawaiting hrouted =>
    obtain ⟨rfl, rfl⟩ := Prod.mk.inj (Option.some_injective _ hrouting)
    refine ⟨⟨hinv.resolved hnode hawaiting _ changedAt,
      by simp [WorkflowExecution.resolved, touch], rfl⟩,
      SameShape.resolved execution key changedAt _, ?_⟩
    cases hrouted with
    | stuck htargets => exact Or.inl ⟨htargets, rfl⟩
    | routed htargets hcascade => exact Or.inr ⟨htargets, changedAt, hcascade⟩
  | _ => cases hrouting

/-- A task node that is ready or running. -/
def NodeExecutionStatus.isWork : NodeExecutionStatus → Bool
  | .ready | .running => true
  | _ => false

/-- The other operations end the execution or move one task node between ready and running. -/
theorem Effect.local_spec {execution after : WorkflowExecution} {operation : Operation}
    {calls : List ActivateCall} (h : Effect execution operation calls after)
    (hrouting : operation.routing execution = none) :
    calls = [] ∧ (after.isTerminal = true ∨
      after.status = execution.status ∧ ∃ key node, ∃ f : NodeExecution → NodeExecution,
        execution.nodes.get? key = some node ∧ node.status.isWork = true ∧
        after.nodes = execution.nodes.modify key f ∧ (f node).status.isWork = true) := by
  have hhandled : ∀ {changedAt key node definition}, execution.nodes.get? key = some node →
      node.status = .running → Handled changedAt execution key node definition after →
      after.isTerminal = true ∨
      after.status = execution.status ∧ ∃ key node, ∃ f : NodeExecution → NodeExecution,
        execution.nodes.get? key = some node ∧ node.status.isWork = true ∧
        after.nodes = execution.nodes.modify key f ∧ (f node).status.isWork = true := by
    intro changedAt key node definition hnode hrunning hhandled
    cases hhandled with
    | retried =>
      exact Or.inr ⟨rfl, key, node, fun node => node.retry changedAt, hnode, by rw [hrunning]; rfl,
        rfl, rfl⟩
    | givenUp => exact Or.inl rfl
  cases h with
  | @beginTask key changedAt node _ hnode _ _ hready =>
    exact ⟨rfl, Or.inr ⟨rfl, key, node, fun node => node.beginAttempt changedAt, hnode,
      by rw [hready]; rfl, rfl, rfl⟩⟩
  | @claimTask key workerId leaseSeconds leaseToken changedAt node _ hnode _ _ hready =>
    exact ⟨rfl, Or.inr ⟨rfl, key, node, _, hnode, by rw [hready]; rfl,
      execution.claimed_nodes key workerId leaseToken _ changedAt, rfl⟩⟩
  | @renewLease key leaseToken leaseSeconds changedAt node hnode hrunning =>
    exact ⟨rfl, Or.inr ⟨rfl, key, node, fun node => node.renew _ changedAt, hnode,
      by rw [hrunning]; rfl, rfl, by simp [NodeExecution.renew, hrunning,
        NodeExecutionStatus.isWork]⟩⟩
  | failTask hnode _ hrunning _ hhandled' => exact ⟨rfl, hhandled hnode hrunning hhandled'⟩
  | expireTask hnode _ hrunning _ _ hhandled' => exact ⟨rfl, hhandled hnode hrunning hhandled'⟩
  | cancel => exact ⟨rfl, Or.inl rfl⟩
  | start => cases hrouting
  | completeTask => cases hrouting
  | resolveApproval => cases hrouting

end JbOrchestrator.Workflows
