import JbOrchestrator.Workflows.Routing

/-!
# Cascade — what a chain of calls does

`_activate` and `_route` call each other depth first.  `Visit` says what one call of `_activate` does
to the aggregate and which targets it hands on; `Cascade` runs a stack of pending targets until the
stack is empty or the execution is terminal.  `activate_spec` and `routeWith_spec` connect them to the
engine: on a sound aggregate the engine's recursion returns, and what it returns is a cascade.  Every
invariant of the engine is proved from `Visit`, never by unfolding the engine again.
-/

open Lib Relation

namespace JbOrchestrator.Workflows

namespace NodeExecution

/-- A task node at the start of a visit. -/
def becomeReady (node : NodeExecution) (changedAt : Instant) : NodeExecution :=
  { node.visit changedAt with status := .ready }

def awaitApproval (node : NodeExecution) (changedAt : Instant) : NodeExecution :=
  { node.visit changedAt with status := .awaitingApproval }

/-- A node that the engine completes on the spot. -/
def pass (node : NodeExecution) (changedAt : Instant) : NodeExecution :=
  { node.visit changedAt with
    status := .succeeded, outcome := some .success, completedAt := some changedAt }

end NodeExecution

namespace WorkflowExecution

abbrev graph (execution : WorkflowExecution) : WorkflowGraph :=
  execution.snapshot.toWorkflowGraph

def statusOf (execution : WorkflowExecution) (key : NodeKey) : Option NodeExecutionStatus :=
  (execution.nodes.get? key).map NodeExecution.status

/-- What `_join_is_ready` tests. -/
def JoinReady (execution : WorkflowExecution) (key : NodeKey) : Prop :=
  ∀ source ∈ execution.graph.incomingSources key, execution.statusOf source = some .succeeded

instance (execution : WorkflowExecution) (key : NodeKey) : Decidable (execution.JoinReady key) :=
  inferInstanceAs (Decidable (∀ source ∈ _, _))

/-! ## 1. The effects of an activation -/

def enterTask (execution : WorkflowExecution) (key : NodeKey) (changedAt : Instant) :
    WorkflowExecution :=
  (execution.modifyNode key fun node => node.becomeReady changedAt).touch changedAt

def enterApproval (execution : WorkflowExecution) (key : NodeKey) (changedAt : Instant) :
    WorkflowExecution :=
  ({ execution.modifyNode key fun node => node.awaitApproval changedAt with
    status := .awaitingApproval } : WorkflowExecution).touch changedAt

def enterStructural (execution : WorkflowExecution) (key : NodeKey) (changedAt : Instant) :
    WorkflowExecution :=
  (execution.modifyNode key fun node => node.pass changedAt).touch changedAt

def enterTerminal (execution : WorkflowExecution) (key : NodeKey) (status : WorkflowStatus)
    (changedAt : Instant) : WorkflowExecution :=
  ({ (execution.modifyNode key fun node => node.pass changedAt).cancelActiveNodes changedAt with
    status := status
    completedAt := some changedAt
    failureReason :=
      if status = .failed then some ("workflow reached failure terminal: " ++ key)
      else execution.failureReason } : WorkflowExecution).touch changedAt

/-! ## 2. Sound aggregates -/

/-- The node executions are those of the nodes of a well-formed graph. -/
structure Sound (execution : WorkflowExecution) : Prop where
  wellFormed : execution.graph.WellFormed
  node_iff : ∀ key, (∃ node, execution.nodes.get? key = some node) ↔ key ∈ execution.graph.keys
  nodeKey : ∀ key node, execution.nodes.get? key = some node → node.nodeKey = key

/-- `after` keeps the identity, the snapshot and the keys of the node executions. -/
structure SameShape (before after : WorkflowExecution) : Prop where
  snapshot : after.snapshot = before.snapshot
  id : after.id = before.id
  keys : after.nodes.keys = before.nodes.keys
  nodeKeys : ∀ key, (after.nodes.get? key).map NodeExecution.nodeKey =
    (before.nodes.get? key).map NodeExecution.nodeKey

namespace SameShape

theorem refl (execution : WorkflowExecution) : SameShape execution execution :=
  ⟨rfl, rfl, rfl, fun _ => rfl⟩

theorem trans {a b c : WorkflowExecution} (h : SameShape a b) (h' : SameShape b c) :
    SameShape a c :=
  ⟨h'.snapshot.trans h.snapshot, h'.id.trans h.id, h'.keys.trans h.keys,
    fun key => (h'.nodeKeys key).trans (h.nodeKeys key)⟩

theorem sound {a b : WorkflowExecution} (h : SameShape a b) (ha : a.Sound) : b.Sound := by
  have hgraph : b.graph = a.graph := congrArg WorkflowSnapshot.toWorkflowGraph h.snapshot
  refine ⟨hgraph ▸ ha.wellFormed, fun key => ?_, fun key node hnode => ?_⟩
  · rw [hgraph, ← ha.node_iff key]
    have hkeys := h.nodeKeys key
    cases hb : b.nodes.get? key <;> cases hak : a.nodes.get? key <;> simp_all
  · have hkeys := h.nodeKeys key
    rw [hnode] at hkeys
    cases hak : a.nodes.get? key with
    | none => simp [hak] at hkeys
    | some node' =>
      rw [hak] at hkeys
      exact (Option.some_injective _ hkeys).trans (ha.nodeKey key node' hak)

theorem modifyNode (execution : WorkflowExecution) (key : NodeKey)
    (f : NodeExecution → NodeExecution) (hf : ∀ node, (f node).nodeKey = node.nodeKey) :
    SameShape execution (execution.modifyNode key f) := by
  refine ⟨rfl, rfl, Dict.keys_modify _ _ _, fun key' => ?_⟩
  simp only [WorkflowExecution.modifyNode, Dict.get?_modify]
  split
  · rw [Option.map_map]
    congr 1
    funext node
    exact hf node
  · rfl

theorem of_nodes {a b : WorkflowExecution} (hsnapshot : b.snapshot = a.snapshot)
    (hid : b.id = a.id) (hnodes : b.nodes = a.nodes) : SameShape a b :=
  ⟨hsnapshot, hid, congrArg Dict.keys hnodes, fun key => by rw [hnodes]⟩

theorem cancelActiveNodes (execution : WorkflowExecution) (changedAt : Instant) :
    SameShape execution (execution.cancelActiveNodes changedAt) := by
  refine ⟨rfl, rfl, Dict.keys_mapValues _ _, fun key => ?_⟩
  simp only [WorkflowExecution.cancelActiveNodes, Dict.get?_mapValues, Option.map_map]
  congr 1
  funext node
  simp only [Function.comp_apply, NodeExecution.cancel]
  split <;> rfl

theorem fail (execution : WorkflowExecution) (reason : String) (changedAt : Instant) :
    SameShape execution (execution.fail reason changedAt) :=
  (cancelActiveNodes execution changedAt).trans (of_nodes rfl rfl rfl)

theorem enterTask (execution : WorkflowExecution) (key : NodeKey) (changedAt : Instant) :
    SameShape execution (execution.enterTask key changedAt) :=
  (modifyNode execution key (fun node => node.becomeReady changedAt) fun _ => rfl).trans
    (of_nodes rfl rfl rfl)

theorem enterApproval (execution : WorkflowExecution) (key : NodeKey) (changedAt : Instant) :
    SameShape execution (execution.enterApproval key changedAt) :=
  (modifyNode execution key (fun node => node.awaitApproval changedAt) fun _ => rfl).trans
    (of_nodes rfl rfl rfl)

theorem enterStructural (execution : WorkflowExecution) (key : NodeKey) (changedAt : Instant) :
    SameShape execution (execution.enterStructural key changedAt) :=
  (modifyNode execution key (fun node => node.pass changedAt) fun _ => rfl).trans
    (of_nodes rfl rfl rfl)

theorem enterTerminal (execution : WorkflowExecution) (key : NodeKey) (status : WorkflowStatus)
    (changedAt : Instant) : SameShape execution (execution.enterTerminal key status changedAt) :=
  ((modifyNode execution key (fun node => node.pass changedAt) fun _ => rfl).trans
    (cancelActiveNodes _ changedAt)).trans (of_nodes rfl rfl rfl)

end SameShape

end WorkflowExecution

open WorkflowExecution

/-! ## 3. Visits and cascades -/

/-- One call of `_activate` for the node `key`: the targets it routes to, whether it resets the node,
and the aggregate it leaves. -/
inductive Visit (changedAt : Instant) (execution : WorkflowExecution) (key : NodeKey)
    (node : NodeExecution) (definition : NodeDefinition) :
    List NodeKey → Bool → WorkflowExecution → Prop where
  | waits (hkind : definition.kind = .join) (hready : ¬execution.JoinReady key) :
    Visit changedAt execution key node definition [] false execution
  | exhausted (hjoin : definition.kind = .join → execution.JoinReady key)
    (hvisits : definition.maxVisits ≤ node.visitCount) :
    Visit changedAt execution key node definition [] false
      (execution.fail ("node visit limit exceeded: " ++ key) changedAt)
  | task (hkind : definition.kind = .task) (hvisits : node.visitCount < definition.maxVisits) :
    Visit changedAt execution key node definition [] true (execution.enterTask key changedAt)
  | approval (hkind : definition.kind = .approval)
    (hvisits : node.visitCount < definition.maxVisits) :
    Visit changedAt execution key node definition [] true (execution.enterApproval key changedAt)
  | structural (hkind : definition.kind.isStructural)
    (hjoin : definition.kind = .join → execution.JoinReady key)
    (hvisits : node.visitCount < definition.maxVisits) :
    Visit changedAt execution key node definition
      (selectTargets (execution.graph.routeEdges key .success) none) true
      (execution.enterStructural key changedAt)
  | terminal (hkind : definition.kind = .terminal)
    (hvisits : node.visitCount < definition.maxVisits) :
    Visit changedAt execution key node definition [] true
      (execution.enterTerminal key (definition.terminalStatus.getD .failed) changedAt)

/-- Activate the targets of a stack, depth first, until the execution is terminal. -/
inductive Cascade (changedAt : Instant) :
    WorkflowExecution → List NodeKey → List ActivateCall → WorkflowExecution → Prop where
  | nil (execution : WorkflowExecution) : Cascade changedAt execution [] [] execution
  | halt {execution after : WorkflowExecution} {key : NodeKey} {keys pushed : List NodeKey}
    {resets : Bool} {node : NodeExecution} {definition : NodeDefinition}
    (hnode : execution.nodes.get? key = some node)
    (hdefinition : execution.graph.node key = some definition)
    (hvisit : Visit changedAt execution key node definition pushed resets after)
    (hterminal : after.isTerminal = true) :
    Cascade changedAt execution (key :: keys) [⟨key, execution, resets⟩] after
  | next {execution middle after : WorkflowExecution} {key : NodeKey} {keys pushed : List NodeKey}
    {resets : Bool} {calls : List ActivateCall} {node : NodeExecution}
    {definition : NodeDefinition} (hnode : execution.nodes.get? key = some node)
    (hdefinition : execution.graph.node key = some definition)
    (hvisit : Visit changedAt execution key node definition pushed resets middle)
    (hterminal : middle.isTerminal = false)
    (hrest : Cascade changedAt middle (pushed ++ keys) calls after) :
    Cascade changedAt execution (key :: keys) (⟨key, execution, resets⟩ :: calls) after

section

variable {changedAt : Instant} {execution middle after : WorkflowExecution} {key : NodeKey}
  {node : NodeExecution} {definition : NodeDefinition} {pushed keys keys' : List NodeKey}
  {resets : Bool} {calls calls' : List ActivateCall}

theorem Visit.sameShape (h : Visit changedAt execution key node definition pushed resets after) :
    SameShape execution after := by
  cases h with
  | waits => exact SameShape.refl _
  | exhausted => exact SameShape.fail _ _ _
  | task => exact SameShape.enterTask _ _ _
  | approval => exact SameShape.enterApproval _ _ _
  | structural => exact SameShape.enterStructural _ _ _
  | terminal => exact SameShape.enterTerminal _ _ _ _

theorem Cascade.sameShape (h : Cascade changedAt execution keys calls after) :
    SameShape execution after := by
  induction h with
  | nil => exact SameShape.refl _
  | halt _ _ hvisit _ => exact hvisit.sameShape
  | next _ _ hvisit _ _ ih => exact hvisit.sameShape.trans ih

theorem Cascade.halt_append (h : Cascade changedAt execution keys calls after)
    (hstart : execution.isTerminal = false) (hterminal : after.isTerminal = true)
    (keys' : List NodeKey) : Cascade changedAt execution (keys ++ keys') calls after := by
  induction h with
  | nil => rw [hstart] at hterminal; cases hterminal
  | halt hnode hdefinition hvisit hhalt => exact Cascade.halt hnode hdefinition hvisit hhalt
  | next hnode hdefinition hvisit hmiddle _ ih =>
    refine Cascade.next hnode hdefinition hvisit hmiddle ?_
    rw [List.append_eq, ← List.append_assoc]
    exact ih hmiddle hterminal

theorem Cascade.append (h : Cascade changedAt execution keys calls middle)
    (hmiddle : middle.isTerminal = false) (h' : Cascade changedAt middle keys' calls' after) :
    Cascade changedAt execution (keys ++ keys') (calls ++ calls') after := by
  induction h with
  | nil => exact h'
  | halt _ _ _ hhalt => rw [hhalt] at hmiddle; cases hmiddle
  | next hnode hdefinition hvisit hnext _ ih =>
    rw [List.cons_append, List.cons_append]
    refine Cascade.next hnode hdefinition hvisit hnext ?_
    rw [← List.append_assoc]
    exact ih hmiddle h'

end

end JbOrchestrator.Workflows
