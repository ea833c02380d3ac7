import JbOrchestrator.Workflows.Invariants
import Mathlib.Algebra.Order.BigOperators.Group.List
import Mathlib.Tactic.Ring

/-!
# Bounds — every run is finite

Each operation other than a renewal spends credit.  A node holds the credit of its visits and
attempts left, the execution holds one for its start and one for its end; activations only move
credit from the visits left to the attempts left.  `bounded_runs` collects the resource bounds.
-/

open Lib Relation

namespace JbOrchestrator.Workflows

/-! ## 1. The credit of a node -/

namespace NodeDefinition

/-- The operations one visit of the node can take. -/
def visitWorth (definition : NodeDefinition) : ℕ :=
  match definition.kind with
  | .task => 2 * definition.maxAttempts
  | .approval => 1
  | _ => 0

/-- The operations left in the current visit. -/
def attemptCredit (definition : NodeDefinition) (node : NodeExecution) : ℕ :=
  match node.status with
  | .ready => 2 * (definition.maxAttempts - node.attemptCount)
  | .running => 2 * (definition.maxAttempts - node.attemptCount) + 1
  | .awaitingApproval => 1
  | _ => 0

def credit (definition : NodeDefinition) (node : NodeExecution) : ℕ :=
  definition.visitWorth * (definition.maxVisits - node.visitCount) + definition.attemptCredit node

variable {definition : NodeDefinition} {node : NodeExecution}

/-- A new visit that starts with at most the worth of a visit takes no credit. -/
theorem credit_visit_le {node' : NodeExecution} (hvisits : node.visitCount < definition.maxVisits)
    (hvisits' : node'.visitCount = node.visitCount + 1)
    (hcredit : definition.attemptCredit node' ≤ definition.visitWorth) :
    definition.credit node' ≤ definition.credit node := by
  unfold credit
  rw [hvisits']
  have hleft : definition.maxVisits - node.visitCount =
      (definition.maxVisits - (node.visitCount + 1)) + 1 := by omega
  rw [hleft, Nat.mul_add, Nat.mul_one]
  omega

theorem credit_becomeReady_le (hkind : definition.kind = .task)
    (hvisits : node.visitCount < definition.maxVisits) (changedAt : Instant) :
    definition.credit (node.becomeReady changedAt) ≤ definition.credit node := by
  refine credit_visit_le hvisits rfl ?_
  simp only [visitWorth, hkind]
  exact le_refl (2 * definition.maxAttempts)

theorem credit_awaitApproval_le (hkind : definition.kind = .approval)
    (hvisits : node.visitCount < definition.maxVisits) (changedAt : Instant) :
    definition.credit (node.awaitApproval changedAt) ≤ definition.credit node := by
  refine credit_visit_le hvisits rfl ?_
  simp only [visitWorth, hkind]
  exact le_refl 1

theorem credit_pass_le (hvisits : node.visitCount < definition.maxVisits) (changedAt : Instant) :
    definition.credit (node.pass changedAt) ≤ definition.credit node :=
  credit_visit_le hvisits rfl (Nat.zero_le _)

theorem credit_cancel_le (node : NodeExecution) (changedAt : Instant) :
    definition.credit (node.cancel changedAt) ≤ definition.credit node := by
  unfold NodeExecution.cancel
  split
  · unfold credit
    exact Nat.add_le_add_left (Nat.zero_le _) _
  · exact le_refl _

theorem credit_beginAttempt_lt (hready : node.status = .ready)
    (hattempts : node.attemptCount < definition.maxAttempts) (changedAt : Instant) :
    definition.credit (node.beginAttempt changedAt) < definition.credit node := by
  unfold credit attemptCredit
  simp only [NodeExecution.beginAttempt, hready]
  omega

theorem credit_lease (node : NodeExecution) (workerId : String) (leaseToken : UUID)
    (expiresAt : Instant) :
    definition.credit (node.lease workerId leaseToken expiresAt) = definition.credit node := rfl

theorem credit_renew (node : NodeExecution) (expiresAt changedAt : Instant) :
    definition.credit (node.renew expiresAt changedAt) = definition.credit node := rfl

theorem credit_complete_lt (hrunning : node.status = .running) (outcome : NodeOutcome)
    (output : Option JsonObject) (changedAt : Instant) :
    definition.credit (node.complete outcome output changedAt) < definition.credit node := by
  unfold credit attemptCredit
  simp only [NodeExecution.complete, NodeExecution.clearLease, hrunning]
  omega

theorem credit_resolve_lt (hawaiting : node.status = .awaitingApproval) (outcome : NodeOutcome)
    (changedAt : Instant) :
    definition.credit (node.resolve outcome changedAt) < definition.credit node := by
  unfold credit attemptCredit
  simp only [NodeExecution.resolve, hawaiting]
  omega

theorem credit_retry_lt (hrunning : node.status = .running) (changedAt : Instant) :
    definition.credit (node.retry changedAt) < definition.credit node := by
  unfold credit attemptCredit
  simp only [NodeExecution.retry, NodeExecution.clearLease, hrunning]
  omega

theorem credit_giveUp_lt (hrunning : node.status = .running) (changedAt : Instant) :
    definition.credit (node.giveUp changedAt) < definition.credit node := by
  unfold credit attemptCredit
  simp only [NodeExecution.giveUp, NodeExecution.clearLease, hrunning]
  omega

end NodeDefinition

/-! ## 2. The potential of an aggregate -/

def WorkflowStatus.credit : WorkflowStatus → ℕ
  | .pending => 2
  | .running | .awaitingApproval => 1
  | _ => 0

theorem WorkflowStatus.credit_le_one {status : WorkflowStatus} (h : status ≠ .pending) :
    status.credit ≤ 1 := by
  cases status <;> simp_all [credit]

theorem WorkflowStatus.credit_pos {status : WorkflowStatus} (h : status.isTerminal = false) :
    1 ≤ status.credit := by
  cases status <;> simp_all [credit, isTerminal]

namespace WorkflowExecution

def creditAt (execution : WorkflowExecution) (definition : NodeDefinition) : ℕ :=
  ((execution.nodes.get? definition.key).map definition.credit).getD 0

def nodesCredit (execution : WorkflowExecution) : ℕ :=
  (execution.graph.nodes.map execution.creditAt).sum

def potential (execution : WorkflowExecution) : ℕ :=
  execution.status.credit + execution.nodesCredit

/-- `after` has the graph of `before` and no node holds more credit. -/
structure SpendsTo (before after : WorkflowExecution) : Prop where
  graph : after.graph = before.graph
  le : ∀ definition ∈ before.graph.nodes, after.creditAt definition ≤ before.creditAt definition

namespace SpendsTo

theorem refl (execution : WorkflowExecution) : SpendsTo execution execution :=
  ⟨rfl, fun _ _ => le_refl _⟩

theorem trans {a b c : WorkflowExecution} (h : SpendsTo a b) (h' : SpendsTo b c) : SpendsTo a c :=
  ⟨h'.graph.trans h.graph, fun definition hmem =>
    (h'.le definition (h.graph ▸ hmem)).trans (h.le definition hmem)⟩

theorem nodesCredit_le {a b : WorkflowExecution} (h : SpendsTo a b) :
    b.nodesCredit ≤ a.nodesCredit := by
  unfold nodesCredit
  rw [h.graph]
  exact List.sum_le_sum h.le

theorem nodesCredit_lt {a b : WorkflowExecution} (h : SpendsTo a b) {definition : NodeDefinition}
    (hmem : definition ∈ a.graph.nodes) (hlt : b.creditAt definition < a.creditAt definition) :
    b.nodesCredit < a.nodesCredit := by
  unfold nodesCredit
  rw [h.graph]
  exact List.sum_lt_sum _ _ h.le ⟨definition, hmem, hlt⟩

theorem cancelActiveNodes (execution : WorkflowExecution) (changedAt : Instant) :
    SpendsTo execution (execution.cancelActiveNodes changedAt) := by
  refine ⟨rfl, fun definition _ => ?_⟩
  simp only [creditAt, WorkflowExecution.cancelActiveNodes, Dict.get?_mapValues, Option.map_map]
  cases execution.nodes.get? definition.key with
  | none => exact le_refl _
  | some node => exact NodeDefinition.credit_cancel_le node changedAt

theorem of_nodes {a b : WorkflowExecution} (hsnapshot : b.snapshot = a.snapshot)
    (hnodes : b.nodes = a.nodes) : SpendsTo a b :=
  ⟨congrArg WorkflowSnapshot.toWorkflowGraph hsnapshot, fun definition _ => by
    simp only [creditAt, hnodes, le_refl]⟩

theorem fail (execution : WorkflowExecution) (reason : String) (changedAt : Instant) :
    SpendsTo execution (execution.fail reason changedAt) :=
  (cancelActiveNodes execution changedAt).trans (of_nodes rfl rfl)

section

variable {execution after : WorkflowExecution} {key : NodeKey} {node : NodeExecution}
  {definition : NodeDefinition}

theorem creditAt_eq (hnode : execution.nodes.get? key = some node) (hkey : definition.key = key) :
    execution.creditAt definition = definition.credit node := by
  simp [creditAt, hkey, hnode]

theorem modify (hsound : execution.Sound) (hnode : execution.nodes.get? key = some node)
    (hdefinition : execution.graph.node key = some definition) (f : NodeExecution → NodeExecution)
    (hsnapshot : after.snapshot = execution.snapshot)
    (hnodes : after.nodes = execution.nodes.modify key f)
    (hf : definition.credit (f node) ≤ definition.credit node) : SpendsTo execution after := by
  refine ⟨congrArg WorkflowSnapshot.toWorkflowGraph hsnapshot, fun definition' hmem => ?_⟩
  by_cases hkey : definition'.key = key
  · have hdefinition' := WorkflowGraph.node_of_mem hsound.wellFormed.keys_nodup hmem
    rw [hkey, hdefinition] at hdefinition'
    obtain rfl := Option.some_injective _ hdefinition'
    have hafter : after.nodes.get? key = some (f node) := by
      rw [hnodes, Dict.get?_modify_self, hnode]
      rfl
    rw [creditAt_eq hafter hkey, creditAt_eq hnode hkey]
    exact hf
  · simp [creditAt, hnodes, Dict.get?_modify, hkey]

/-- An update that costs its node credit costs the aggregate credit. -/
theorem nodesCredit_lt_of_modify (hsound : execution.Sound)
    (hnode : execution.nodes.get? key = some node)
    (hdefinition : execution.graph.node key = some definition) (f : NodeExecution → NodeExecution)
    (hsnapshot : after.snapshot = execution.snapshot)
    (hnodes : after.nodes = execution.nodes.modify key f)
    (hf : definition.credit (f node) < definition.credit node) :
    after.nodesCredit < execution.nodesCredit := by
  refine (modify hsound hnode hdefinition f hsnapshot hnodes hf.le).nodesCredit_lt
    (WorkflowGraph.node_mem hdefinition) ?_
  have hafter : after.nodes.get? key = some (f node) := by
    rw [hnodes, Dict.get?_modify_self, hnode]
    rfl
  have hkey := WorkflowGraph.node_key hdefinition
  rw [creditAt_eq hafter hkey, creditAt_eq hnode hkey]
  exact hf

end

end SpendsTo

end WorkflowExecution

open WorkflowExecution

/-! ## 3. What operations cost -/

section

variable {changedAt : Instant} {execution after : WorkflowExecution} {key : NodeKey}
  {node : NodeExecution} {definition : NodeDefinition} {pushed keys : List NodeKey}
  {resets : Bool} {calls : List ActivateCall}

theorem Visit.spendsTo (h : Visit changedAt execution key node definition pushed resets after)
    (hsound : execution.Sound) (hnode : execution.nodes.get? key = some node)
    (hdefinition : execution.graph.node key = some definition) : SpendsTo execution after := by
  cases h with
  | waits => exact SpendsTo.refl _
  | exhausted => exact SpendsTo.fail execution _ changedAt
  | task hkind hvisits =>
    exact SpendsTo.modify hsound hnode hdefinition
      (fun node => node.becomeReady changedAt) rfl rfl
      (NodeDefinition.credit_becomeReady_le hkind hvisits changedAt)
  | approval hkind hvisits =>
    exact SpendsTo.modify hsound hnode hdefinition
      (fun node => node.awaitApproval changedAt) rfl rfl
      (NodeDefinition.credit_awaitApproval_le hkind hvisits changedAt)
  | structural _ _ hvisits =>
    exact SpendsTo.modify hsound hnode hdefinition
      (fun node => node.pass changedAt) rfl rfl
      (NodeDefinition.credit_pass_le hvisits changedAt)
  | terminal _ hvisits =>
    have hpass : SpendsTo execution (execution.modifyNode key fun node => node.pass changedAt) :=
      SpendsTo.modify hsound hnode hdefinition
      (fun node => node.pass changedAt) rfl rfl
        (NodeDefinition.credit_pass_le hvisits changedAt)
    exact (hpass.trans (SpendsTo.cancelActiveNodes _ changedAt)).trans (SpendsTo.of_nodes rfl rfl)

theorem Cascade.spendsTo (h : Cascade changedAt execution keys calls after)
    (hsound : execution.Sound) : SpendsTo execution after := by
  induction h with
  | nil => exact SpendsTo.refl _
  | halt hnode hdefinition hvisit _ => exact hvisit.spendsTo hsound hnode hdefinition
  | next hnode hdefinition hvisit _ _ ih =>
    exact (hvisit.spendsTo hsound hnode hdefinition).trans (ih (hvisit.sameShape.sound hsound))

theorem Routed.spendsTo {source : NodeKey} {outcome : NodeOutcome} {output : Option JsonObject}
    (h : Routed changedAt execution source outcome output calls after)
    (hsound : execution.Sound) : SpendsTo execution after := by
  cases h with
  | stuck _ reason => exact SpendsTo.fail execution reason changedAt
  | routed _ hcascade => exact hcascade.spendsTo hsound

end

/-- The operations that the bound counts. -/
def Operation.isRenewal : Operation → Bool
  | .renewLease .. => true
  | _ => false

theorem WorkflowExecution.potential_lt {before after : WorkflowExecution}
    (hlive : before.isTerminal = false) (hstarted : after.status ≠ .pending)
    (hnodes : after.nodesCredit < before.nodesCredit) : after.potential < before.potential := by
  have hbefore := WorkflowStatus.credit_pos hlive
  have hafter := WorkflowStatus.credit_le_one hstarted
  unfold potential
  omega

/-- A failure that the engine handles ends the attempt. -/
theorem Handled.potential_lt {changedAt : Instant} {execution after : WorkflowExecution}
    {key : NodeKey} {node : NodeExecution} {definition : NodeDefinition}
    (h : Handled changedAt execution key node definition after) (hinv : execution.Inv)
    (hnode : execution.nodes.get? key = some node)
    (hdefinition : execution.graph.node key = some definition)
    (hrunning : node.status = .running) : after.potential < execution.potential := by
  obtain ⟨hstarted, hlive⟩ := hinv.live_of_active hnode (by rw [hrunning]; rfl)
  cases h with
  | retried =>
    exact WorkflowExecution.potential_lt hlive hstarted
      (SpendsTo.nodesCredit_lt_of_modify hinv.sound hnode hdefinition
      (fun node => node.retry changedAt) rfl rfl
        (NodeDefinition.credit_retry_lt hrunning changedAt))
  | givenUp _ reason =>
    refine WorkflowExecution.potential_lt hlive
      (by simp [WorkflowExecution.givenUp, WorkflowExecution.fail, touch]) ?_
    refine lt_of_le_of_lt (SpendsTo.fail _ reason changedAt).nodesCredit_le ?_
    exact SpendsTo.nodesCredit_lt_of_modify hinv.sound hnode hdefinition
      (fun node => node.giveUp changedAt) rfl rfl
      (NodeDefinition.credit_giveUp_lt hrunning changedAt)

/-- Every operation but a renewal costs credit. -/
theorem Effect.potential_lt {execution after : WorkflowExecution} {operation : Operation}
    {calls : List ActivateCall} (h : Effect execution operation calls after)
    (hinv : execution.Inv) (hrenewal : operation.isRenewal = false) :
    after.potential < execution.potential := by
  cases h with
  | @start changedAt _ _ hstatus hcascade =>
    have hnodes := (hcascade.spendsTo (hinv.started changedAt).sound).nodesCredit_le
    have hstarted := (hcascade.inv (hinv.started changedAt)
      (by simp [WorkflowExecution.started, touch]) rfl).2
    have hcredit := WorkflowStatus.credit_le_one hstarted
    have hpending : execution.status.credit = 2 := by rw [hstatus]; rfl
    change after.nodesCredit ≤ execution.nodesCredit at hnodes
    unfold WorkflowExecution.potential
    omega
  | beginTask hnode hdefinition _ hready hattempts =>
    obtain ⟨hstarted, hlive⟩ := hinv.live_of_active hnode (by rw [hready]; rfl)
    exact WorkflowExecution.potential_lt hlive hstarted
      (SpendsTo.nodesCredit_lt_of_modify hinv.sound hnode hdefinition
      (fun node => node.beginAttempt _) rfl rfl
        (NodeDefinition.credit_beginAttempt_lt hready hattempts _))
  | @claimTask key workerId leaseSeconds leaseToken changedAt _ _ hnode hdefinition _ hready
      hattempts =>
    obtain ⟨hstarted, hlive⟩ := hinv.live_of_active hnode (by rw [hready]; rfl)
    exact WorkflowExecution.potential_lt hlive hstarted
      (SpendsTo.nodesCredit_lt_of_modify hinv.sound hnode hdefinition
        (fun node => (node.beginAttempt changedAt).lease workerId leaseToken
          (changedAt + WorkflowEngine.seconds leaseSeconds)) rfl
        (execution.claimed_nodes key workerId leaseToken _ changedAt)
        (NodeDefinition.credit_beginAttempt_lt hready hattempts changedAt))
  | renewLease => cases hrenewal
  | @completeTask key outcome output _ changedAt _ _ _ hnode hrunning _ _ hrouted =>
    obtain ⟨hstarted, hlive⟩ := hinv.live_of_active hnode (by rw [hrunning]; rfl)
    obtain ⟨definition, hdefinition, -⟩ := hinv.node hnode
    have hcompleted := hinv.completed hnode hrunning outcome output changedAt
    refine WorkflowExecution.potential_lt hlive (hrouted.inv hcompleted hstarted hlive).2 ?_
    refine lt_of_le_of_lt (hrouted.spendsTo hcompleted.sound).nodesCredit_le ?_
    exact SpendsTo.nodesCredit_lt_of_modify hinv.sound hnode hdefinition
      (fun node => node.complete outcome output changedAt) rfl rfl
      (NodeDefinition.credit_complete_lt hrunning outcome output changedAt)
  | failTask hnode hdefinition hrunning _ hhandled =>
    exact hhandled.potential_lt hinv hnode hdefinition hrunning
  | expireTask hnode hdefinition hrunning _ _ hhandled =>
    exact hhandled.potential_lt hinv hnode hdefinition hrunning
  | @resolveApproval key approved changedAt _ _ _ hnode hawaiting hrouted =>
    obtain ⟨-, hlive⟩ := hinv.live_of_active hnode (by rw [hawaiting]; rfl)
    obtain ⟨definition, hdefinition, -⟩ := hinv.node hnode
    have hresolved := hinv.resolved hnode hawaiting (approvalOutcome approved) changedAt
    refine WorkflowExecution.potential_lt hlive (hrouted.inv hresolved
      (by simp [WorkflowExecution.resolved, touch]) rfl).2 ?_
    refine lt_of_le_of_lt (hrouted.spendsTo hresolved.sound).nodesCredit_le ?_
    exact SpendsTo.nodesCredit_lt_of_modify hinv.sound hnode hdefinition
      (fun node => node.resolve (approvalOutcome approved) changedAt) rfl rfl
      (NodeDefinition.credit_resolve_lt hawaiting _ changedAt)
  | @cancel changedAt hlive =>
    have hnodes := (SpendsTo.cancelActiveNodes execution changedAt).nodesCredit_le
    have hcredit := WorkflowStatus.credit_pos hlive
    have hcancelled : (execution.cancelled changedAt).potential =
        0 + (execution.cancelActiveNodes changedAt).nodesCredit := rfl
    rw [hcancelled]
    unfold WorkflowExecution.potential
    omega

theorem Effect.potential_le {execution after : WorkflowExecution} {operation : Operation}
    {calls : List ActivateCall} (h : Effect execution operation calls after)
    (hinv : execution.Inv) : after.potential ≤ execution.potential := by
  cases hrenewal : operation.isRenewal with
  | false => exact (h.potential_lt hinv hrenewal).le
  | true =>
    cases h with
    | @renewLease key _ leaseSeconds changedAt _ hnode =>
      obtain ⟨definition, hdefinition, -⟩ := hinv.node hnode
      refine Nat.add_le_add_left (SpendsTo.nodesCredit_le ?_) _
      exact SpendsTo.modify hinv.sound hnode hdefinition
        (fun node => node.renew (changedAt + WorkflowEngine.seconds leaseSeconds) changedAt) rfl rfl
        (NodeDefinition.credit_renew _ _ _).le
    | _ => cases hrenewal

/-! ## 4. Bounded runs -/

/-- A successful operation that is no renewal. -/
def productive (t : EngineStep) : Bool := t.output.succeeded && !t.input.isRenewal

theorem potential_step (execution : WorkflowExecution) (operation : Operation)
    (hinv : execution.Inv) :
    (engine.step execution operation).2.potential +
      (if productive (engine.fire execution operation) then 1 else 0) ≤ execution.potential := by
  have hfire : productive (engine.fire execution operation) =
      ((engine.step execution operation).1.succeeded && !operation.isRenewal) := rfl
  rw [hfire]
  rcases step_spec hinv.sound hinv.active operation with
    ⟨message, hstep⟩ | ⟨calls, after, hstep, heffect⟩
  · simp [hstep, Reply.succeeded]
  · rw [hstep]
    cases hrenewal : operation.isRenewal with
    | true => simpa using heffect.potential_le hinv
    | false =>
      have hlt := heffect.potential_lt hinv hrenewal
      simp only [Reply.succeeded, Bool.not_false, Bool.and_true, if_true]
      omega

namespace WorkflowGraph

/-- The bound on the operations of a run. -/
def operationBound (graph : WorkflowGraph) : ℕ :=
  2 + ((graph.nodes.filter fun node => node.kind = .task).map fun node =>
      2 * node.maxVisits * node.maxAttempts).sum +
    ((graph.nodes.filter fun node => node.kind = .approval).map NodeDefinition.maxVisits).sum

theorem operationBound_eq (graph : WorkflowGraph) :
    graph.operationBound =
      2 + (graph.nodes.map fun node => node.visitWorth * node.maxVisits).sum := by
  unfold operationBound
  induction graph.nodes with
  | nil => rfl
  | cons node nodes ih =>
    have hworth : node.visitWorth * node.maxVisits =
        (if node.kind = .task then 2 * node.maxVisits * node.maxAttempts else 0) +
          if node.kind = .approval then node.maxVisits else 0 := by
      cases hkind : node.kind <;> simp [NodeDefinition.visitWorth, hkind]
      ring
    rw [List.map_cons, List.sum_cons, hworth, List.filter_cons, List.filter_cons]
    cases hkind : node.kind <;> simp <;> omega

end WorkflowGraph

theorem AcceptedDefinition.Creates.potential {d : AcceptedDefinition}
    {execution : WorkflowExecution} (h : d.Creates execution) :
    execution.potential = d.graph.operationBound := by
  rw [WorkflowGraph.operationBound_eq, ← h.graph]
  unfold WorkflowExecution.potential nodesCredit
  rw [h.status]
  refine congrArg (2 + ·) (congrArg List.sum (List.map_congr_left fun definition hmem => ?_))
  obtain ⟨node, hnode⟩ := (h.inv.sound.node_iff definition.key).mpr
    (List.mem_map_of_mem hmem)
  obtain ⟨-, hstatus, hvisits, -⟩ := h.node hnode
  simp [creditAt, hnode, NodeDefinition.credit, NodeDefinition.attemptCredit, hstatus, hvisits]

/-- The recursion of `_activate` returns from every call on a reachable aggregate that is not
terminal, and no operation runs out of recursion. -/
theorem AcceptedDefinition.Reachable.terminates {d : AcceptedDefinition}
    {execution : WorkflowExecution} (h : d.Reachable execution) :
    (∀ operation, (engine.step execution operation).1.result ≠ .error .recursionError) ∧
    ∀ key ∈ execution.graph.keys, execution.isTerminal = false → ∀ changedAt fuel,
      execution.graph.nodes.length < fuel →
      ∃ state, WorkflowEngine.activate fuel key changedAt { execution := execution } =
        .ok () state := by
  constructor
  · intro operation
    rcases step_spec h.inv.sound h.inv.active operation with ⟨message, hstep⟩ | ⟨calls, after, hstep, -⟩
    · simp [hstep]
    · simp [hstep]
  · intro key hkey hlive changedAt fuel hfuel
    obtain ⟨calls, after, hrun, -⟩ := WorkflowEngine.activate_spec changedAt fuel
      { execution := execution } key h.inv.sound hlive hkey
      (lt_of_le_of_lt (WorkflowGraph.structuralRank_le _ _) hfuel)
    exact ⟨_, hrun⟩

theorem AcceptedDefinition.bounded_runs (d : AcceptedDefinition) :
    (∀ execution, d.Reachable execution → ∀ key node definition,
      execution.nodes.get? key = some node → d.graph.node key = some definition →
      node.visitCount ≤ definition.maxVisits ∧ node.attemptCount ≤ definition.maxAttempts) ∧
    (∀ execution, d.Reachable execution →
      (∀ operation, (engine.step execution operation).1.result ≠ .error .recursionError) ∧
      ∀ key ∈ execution.graph.keys, execution.isTerminal = false → ∀ changedAt fuel,
        execution.graph.nodes.length < fuel →
        ∃ state, WorkflowEngine.activate fuel key changedAt { execution := execution } =
          .ok () state) ∧
    (∀ graph : WorkflowGraph, graph.checkEdges [] graph.edges = .ok () → ∀ source target,
      graph.canReach source target true = true ↔ TransGen graph.Adjacent source target) ∧
    (∀ key node, d.graph.node key = some node → node.kind.isStructural →
      ¬TransGen d.graph.Adjacent key key) ∧
    (∀ start, d.Creates start → ∀ operations,
      (engine.trace start operations).countP productive ≤ d.graph.operationBound) := by
  refine ⟨fun execution h key node definition hnode hdefinition => ?_, fun execution h => h.terminates,
    fun graph hedges source target => ?_, d.wellFormed.structural_acyclic,
    fun start h operations => ?_⟩
  · have hnodeInv := h.inv.nodes key node definition hnode (h.graph ▸ hdefinition)
    exact ⟨hnodeInv.visits, hnodeInv.attempts⟩
  · exact WorkflowGraph.canReach_iff (WorkflowGraph.edgesKnown_of_checkEdges hedges) source target
  · have hbound := engine.countP_trace_le productive WorkflowExecution.potential step_inv
      potential_step h.inv operations
    rw [h.potential] at hbound
    omega

/-- One task that may be tried twice, then the end. -/
def singleTask : WorkflowDefinition where
  key := "single-task"
  version := 1
  entryNode := "work"
  nodes := [
    { key := "work", kind := .task, maxAttempts := 2 },
    { key := "done", kind := .terminal, terminalStatus := some .succeeded }]
  edges := [⟨"work", .success, "done", none⟩, ⟨"work", .failure, "work", none⟩]

def acceptedSingleTask : AcceptedDefinition := ⟨singleTask, by decide +kernel⟩

/-- Start, an attempt that fails, an attempt that succeeds: five of the six operations allowed. -/
theorem bounded_runs_singleTask :
    (engine.trace acceptedSingleTask.blank
      [.start 0, .beginTask "work" 1, .failTask "work" "boom" none 2, .beginTask "work" 3,
        .completeTask "work" .success none none 4]).countP productive = 5 ∧
    acceptedSingleTask.graph.operationBound = 6 ∧
    (engine.trace acceptedSingleTask.blank
      [.start 0, .beginTask "work" 1, .failTask "work" "boom" none 2, .beginTask "work" 3,
        .completeTask "work" .success none none 4]).countP productive ≤
      acceptedSingleTask.graph.operationBound :=
  ⟨by decide +kernel, by decide +kernel,
    acceptedSingleTask.bounded_runs.2.2.2.2 _ acceptedSingleTask.creates_blank _⟩

end JbOrchestrator.Workflows
