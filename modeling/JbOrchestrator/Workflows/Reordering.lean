import JbOrchestrator.Lib.Agreement
import JbOrchestrator.Workflows.Operations

/-!
# Reordering — the engine does not see the order of the node executions

Two aggregates are alike when they differ in the order of their node executions and in the parts of
the snapshot beside the graph.  An operation answers the same on both and leaves them alike.
-/

open Lib

namespace JbOrchestrator.Workflows

/-! ## 1. Aggregates that are alike -/

/-- What a node execution is told apart by, which no operation changes. -/
def NodeExecution.identity (node : NodeExecution) : UUID × UUID × NodeKey :=
  (node.id, node.workflowExecutionId, node.nodeKey)

/-- `after` is `before` with its node executions in another order and another snapshot of the same
graph.  Both stem from `origin`, and every output meets `fits`. -/
structure Alike (fits : Option JsonObject → Prop) (origin before after : WorkflowExecution) : Prop where
  header : after = { before with snapshot := after.snapshot, nodes := after.nodes }
  graph : after.snapshot.toWorkflowGraph = before.snapshot.toWorkflowGraph
  nodes : after.nodes.entries.Perm before.nodes.entries
  nodup : before.nodes.keys.Nodup
  snapshot : before.snapshot = origin.snapshot
  id : before.id = origin.id
  identities : before.nodes.entries.map (fun p => (p.1, p.2.identity)) =
    origin.nodes.entries.map (fun p => (p.1, p.2.identity))
  fits : ∀ p ∈ before.nodes.entries, fits p.2.output

namespace Alike

variable {fits : Option JsonObject → Prop} {origin before after : WorkflowExecution}

theorem nodup_after (h : Alike fits origin before after) : after.nodes.keys.Nodup :=
  (h.nodes.map Prod.fst).nodup_iff.mpr h.nodup

theorem get? (h : Alike fits origin before after) (key : NodeKey) :
    after.nodes.get? key = before.nodes.get? key := by
  have hmem : ∀ node, after.nodes.get? key = some node ↔ before.nodes.get? key = some node := by
    intro node
    constructor
    · intro hget
      exact Dict.get?_of_mem_entries h.nodup (h.nodes.mem_iff.mp (Dict.mem_entries_of_get? hget))
    · intro hget
      exact Dict.get?_of_mem_entries h.nodup_after
        (h.nodes.mem_iff.mpr (Dict.mem_entries_of_get? hget))
  exact Option.ext hmem

theorem status (h : Alike fits origin before after) : after.status = before.status := by
  rw [h.header]

theorem isTerminal (h : Alike fits origin before after) : after.isTerminal = before.isTerminal :=
  congrArg WorkflowStatus.isTerminal h.status

/-- A change of every node execution by itself. -/
theorem mapEntries (h : Alike fits origin before after) {f : NodeKey × NodeExecution → NodeExecution}
    (hidentity : ∀ p, (f p).identity = p.2.identity)
    (hfits : ∀ p, fits p.2.output → fits (f p).output) :
    Alike fits origin
      { before with nodes := ⟨before.nodes.entries.map fun p => (p.1, f p)⟩ }
      { after with nodes := ⟨after.nodes.entries.map fun p => (p.1, f p)⟩ } where
  header := by
    conv_lhs => rw [h.header]
  graph := h.graph
  nodes := h.nodes.map _
  nodup := by
    have hkeys : (before.nodes.entries.map fun p => (p.1, f p)).map Prod.fst =
        before.nodes.entries.map Prod.fst := by
      rw [List.map_map]
      rfl
    show ((before.nodes.entries.map fun p => (p.1, f p)).map Prod.fst).Nodup
    rw [hkeys]
    exact h.nodup
  snapshot := h.snapshot
  id := h.id
  identities := by
    rw [← h.identities, List.map_map]
    apply List.map_congr_left
    intro p _
    exact Prod.ext rfl (hidentity p)
  fits := by
    intro p hp
    obtain ⟨q, hq, rfl⟩ := List.mem_map.mp hp
    exact hfits q (h.fits q hq)

/-- An update of one node execution that keeps its identity. -/
theorem modifyNode (h : Alike fits origin before after) (key : NodeKey)
    {f : NodeExecution → NodeExecution} (hidentity : ∀ node, (f node).identity = node.identity)
    (hfits : ∀ node, fits node.output → fits (f node).output) :
    Alike fits origin (before.modifyNode key f) (after.modifyNode key f) := by
  have hentry : ∀ entries : List (NodeKey × NodeExecution),
      (entries.map fun p => if p.1 = key then (p.1, f p.2) else p) =
        entries.map fun p => (p.1, if p.1 = key then f p.2 else p.2) := by
    intro entries
    apply List.map_congr_left
    intro p _
    split <;> rfl
  unfold WorkflowExecution.modifyNode Dict.modify
  rw [hentry, hentry]
  apply h.mapEntries
  · intro p
    split
    · exact hidentity p.2
    · rfl
  · intro p hp
    split
    · exact hfits p.2 hp
    · exact hp

theorem cancelActiveNodes (h : Alike fits origin before after) (changedAt : Instant) :
    Alike fits origin (before.cancelActiveNodes changedAt) (after.cancelActiveNodes changedAt) := by
  refine h.mapEntries (f := fun p => p.2.cancel changedAt) ?_ ?_
  · intro p
    unfold NodeExecution.cancel
    by_cases hactive : p.2.status.isActive = true
    · rw [if_pos hactive]
      rfl
    · rw [if_neg hactive]
  · intro p hp
    unfold NodeExecution.cancel
    by_cases hactive : p.2.status.isActive = true
    · rw [if_pos hactive]
      exact hp
    · rw [if_neg hactive]
      exact hp

/-- A change of the attributes that looks neither at the snapshot nor at the node executions. -/
theorem update (h : Alike fits origin before after) {f : WorkflowExecution → WorkflowExecution}
    (hid : ∀ execution, (f execution).id = execution.id)
    (hf : ∀ (execution : WorkflowExecution) (snapshot : WorkflowSnapshot)
      (nodes : Dict NodeKey NodeExecution),
      f { execution with snapshot := snapshot, nodes := nodes } =
        ({ f execution with snapshot := snapshot, nodes := nodes } : WorkflowExecution)) :
    Alike fits origin (f before) (f after) := by
  have hkept : ∀ execution : WorkflowExecution,
      (f execution).snapshot = execution.snapshot ∧ (f execution).nodes = execution.nodes := by
    intro execution
    have heq : f execution = _ := hf execution execution.snapshot execution.nodes
    constructor <;> rw [heq]
  obtain ⟨hsnapshot, hnodes⟩ := hkept before
  obtain ⟨hsnapshot', hnodes'⟩ := hkept after
  constructor
  · rw [hsnapshot', hnodes', ← hf before after.snapshot after.nodes]
    exact congrArg f h.header
  · rw [hsnapshot, hsnapshot']
    exact h.graph
  · rw [hnodes, hnodes']
    exact h.nodes
  · rw [hnodes]
    exact h.nodup
  · rw [hsnapshot]
    exact h.snapshot
  · rw [hid]
    exact h.id
  · rw [hnodes]
    exact h.identities
  · rw [hnodes]
    exact h.fits

theorem touch (h : Alike fits origin before after) (changedAt : Instant) :
    Alike fits origin (before.touch changedAt) (after.touch changedAt) :=
  h.update (f := fun execution => execution.touch changedAt) (fun _ => rfl) fun _ _ _ => rfl

theorem fail (h : Alike fits origin before after) (reason : String) (changedAt : Instant) :
    Alike fits origin (before.fail reason changedAt) (after.fail reason changedAt) :=
  ((h.cancelActiveNodes changedAt).update (f := fun execution =>
    { execution with
      status := .failed
      failureReason := some reason
      completedAt := some changedAt }) (fun _ => rfl) fun _ _ _ => rfl).touch changedAt

end Alike

/-! ## 2. The parts of the engine -/

namespace WorkflowEngine

variable {fits : Option JsonObject → Prop} {origin : WorkflowExecution}

/-- The computation answers the same on aggregates that are alike. -/
def Indifferent (fits : Option JsonObject → Prop) (origin : WorkflowExecution) {α : Type}
    (x : EngineM α) : Prop :=
  Agrees (fun s s' => Alike fits origin s.execution s'.execution) x

namespace Indifferent

theorem raiseIf (condition : Prop) [Decidable condition] (message : String) :
    Indifferent fits origin (WorkflowEngine.raiseIf condition message) :=
  Agrees.ite (Agrees.throw _) (Agrees.pure _)

theorem modifyExecution {f : WorkflowExecution → WorkflowExecution}
    (hf : ∀ before after, Alike fits origin before after → Alike fits origin (f before) (f after)) :
    Indifferent fits origin (WorkflowEngine.modifyExecution f) :=
  Agrees.update fun s s' h => hf s.execution s'.execution h

theorem header {f : WorkflowExecution → WorkflowExecution}
    (hid : ∀ execution, (f execution).id = execution.id)
    (hf : ∀ (execution : WorkflowExecution) (snapshot : WorkflowSnapshot)
      (nodes : Dict NodeKey NodeExecution),
      f { execution with snapshot := snapshot, nodes := nodes } =
        ({ f execution with snapshot := snapshot, nodes := nodes } : WorkflowExecution)) :
    Indifferent fits origin (WorkflowEngine.modifyExecution f) :=
  modifyExecution fun _ _ h => h.update hid hf

theorem modifyNode (key : NodeKey) {f : NodeExecution → NodeExecution}
    (hidentity : ∀ node, (f node).identity = node.identity)
    (hfits : ∀ node, fits node.output → fits (f node).output) :
    Indifferent fits origin (WorkflowEngine.modifyNode key f) :=
  modifyExecution fun _ _ h => h.modifyNode key hidentity hfits

theorem touch (changedAt : Instant) : Indifferent fits origin (WorkflowEngine.touch changedAt) :=
  modifyExecution fun _ _ h => h.touch changedAt

theorem fail (reason : String) (changedAt : Instant) :
    Indifferent fits origin (WorkflowEngine.fail reason changedAt) :=
  modifyExecution fun _ _ h => h.fail reason changedAt

theorem recordCall (key : NodeKey) (resets : Bool) :
    Indifferent fits origin (WorkflowEngine.recordCall key resets) :=
  Agrees.update fun _ _ h => h

theorem nodeExecution (key : NodeKey) :
    Indifferent fits origin (WorkflowEngine.nodeExecution key) := by
  apply Agrees.get_bind
  · intro s s' h
    rw [h.get? key]
  · intro s
    split
    · exact Agrees.pure _
    · exact Agrees.throw _

theorem nodeDefinition (key : NodeKey) :
    Indifferent fits origin (WorkflowEngine.nodeDefinition key) := by
  apply Agrees.get_bind
  · intro s s' h
    rw [h.graph]
  · intro s
    split
    · exact Agrees.pure _
    · exact Agrees.throw _

theorem allSucceeded (sources : List NodeKey) :
    Indifferent fits origin (WorkflowEngine.allSucceeded sources) := by
  induction sources with
  | nil => exact Agrees.pure _
  | cons source sources ih =>
    apply Agrees.get_bind
    · intro s s' h
      rw [h.get? source]
    · intro s
      split
      · exact Agrees.throw _
      · exact Agrees.ite ih (Agrees.pure _)

theorem joinIsReady (key : NodeKey) : Indifferent fits origin (WorkflowEngine.joinIsReady key) := by
  apply Agrees.get_bind
  · intro s s' h
    rw [h.graph]
  · intro s
    exact allSucceeded _

theorem recursionLimit : Indifferent fits origin WorkflowEngine.recursionLimit := by
  apply Agrees.get_bind
  · intro s s' h
    rw [h.graph]
  · intro s
    exact Agrees.pure _

variable {activate : NodeKey → EngineM Unit}

theorem activateAll (hactivate : ∀ key, Indifferent fits origin (activate key))
    (targets : List NodeKey) : Indifferent fits origin (WorkflowEngine.activateAll activate targets) := by
  induction targets with
  | nil => exact Agrees.pure _
  | cons target targets ih =>
    apply Agrees.bind (hactivate target)
    intro _
    apply Agrees.get_bind
    · intro s s' h
      rw [h.isTerminal]
    · intro s
      exact Agrees.ite (Agrees.pure _) ih

theorem routeWith (hactivate : ∀ key, Indifferent fits origin (activate key)) (source : NodeKey)
    (outcome : NodeOutcome) (output : Option JsonObject) (changedAt : Instant) :
    Indifferent fits origin
      (WorkflowEngine.routeWith activate source outcome output changedAt) := by
  apply Agrees.get_bind
  · intro s s' h
    rw [h.graph]
  · intro s
    exact Agrees.ite (fail _ _) (activateAll hactivate _)

/-- The part of `_activate` behind its guards, by the kind of the node. -/
theorem enter (hnone : fits none) (hactivate : ∀ key, Indifferent fits origin (activate key))
    (key : NodeKey) (definition : NodeDefinition) (changedAt : Instant) :
    Indifferent fits origin (WorkflowEngine.enter activate key definition changedAt) := by
  have hpass : Indifferent fits origin (WorkflowEngine.modifyNode key fun node =>
      { node with
        status := .succeeded, outcome := some .success, completedAt := some changedAt }) :=
    modifyNode key (fun _ => rfl) fun _ h => h
  unfold WorkflowEngine.enter
  apply Agrees.bind (recordCall key true)
  intro _
  apply Agrees.bind
  · exact modifyNode key (fun _ => rfl) fun _ _ => hnone
  intro _
  cases definition.kind with
  | task =>
    apply Agrees.bind
    · exact modifyNode key (fun _ => rfl) fun _ h => h
    intro _
    exact touch changedAt
  | approval =>
    apply Agrees.bind
    · exact modifyNode key (fun _ => rfl) fun _ h => h
    intro _
    apply Agrees.bind
    · exact header (fun _ => rfl) fun _ _ _ => rfl
    intro _
    exact touch changedAt
  | fork =>
    apply Agrees.bind hpass
    intro _
    apply Agrees.bind (touch changedAt)
    intro _
    exact routeWith hactivate _ _ _ _
  | join =>
    apply Agrees.bind hpass
    intro _
    apply Agrees.bind (touch changedAt)
    intro _
    exact routeWith hactivate _ _ _ _
  | terminal =>
    apply Agrees.bind hpass
    intro _
    apply Agrees.bind
    · exact header (fun _ => rfl) fun _ _ _ => rfl
    intro _
    apply Agrees.bind
    · exact modifyExecution fun _ _ h => h.cancelActiveNodes changedAt
    intro _
    apply Agrees.bind
    · apply header
      · intro execution
        split <;> rfl
      · intro execution snapshot nodes
        dsimp only
        split <;> rfl
    · intro _
      exact touch changedAt

theorem activate_fuel (hnone : fits none) (changedAt : Instant) (fuel : ℕ) (key : NodeKey) :
    Indifferent fits origin (WorkflowEngine.activate fuel key changedAt) := by
  induction fuel generalizing key with
  | zero => exact Agrees.throw _
  | succ fuel ih =>
    apply Agrees.bind (nodeExecution key)
    intro node
    apply Agrees.bind (nodeDefinition key)
    intro definition
    have hrest : ∀ waiting : Bool, Indifferent fits origin
        (if waiting then WorkflowEngine.recordCall key false
        else if node.visitCount ≥ definition.maxVisits then do
          WorkflowEngine.recordCall key false
          WorkflowEngine.fail ("node visit limit exceeded: " ++ key) changedAt
        else WorkflowEngine.enter (fun target => WorkflowEngine.activate fuel target changedAt) key
          definition changedAt) := by
      intro waiting
      apply Agrees.ite (recordCall key false)
      apply Agrees.ite
      · apply Agrees.bind (recordCall key false)
        intro _
        exact fail _ _
      · exact enter hnone ih _ _ _
    exact Agrees.ite (Agrees.bind (Agrees.map (joinIsReady key) _) hrest)
      (Agrees.bind (Agrees.pure _) hrest)

theorem route (hnone : fits none) (source : NodeKey) (outcome : NodeOutcome)
    (output : Option JsonObject) (changedAt : Instant) :
    Indifferent fits origin (WorkflowEngine.route source outcome output changedAt) := by
  apply Agrees.bind recursionLimit
  intro fuel
  exact routeWith (activate_fuel hnone changedAt fuel) _ _ _ _

theorem validateOptionalLease (node : NodeExecution) (leaseToken : Option UUID)
    (changedAt : Instant) :
    Indifferent fits origin (WorkflowEngine.validateOptionalLease node leaseToken changedAt) := by
  unfold WorkflowEngine.validateOptionalLease
  split
  · exact raiseIf _ _
  · apply Agrees.bind (raiseIf _ _)
    intro _
    exact raiseIf _ _

theorem handleTaskFailure (key : NodeKey) (node : NodeExecution) (reason : String)
    (changedAt : Instant) :
    Indifferent fits origin (WorkflowEngine.handleTaskFailure key node reason changedAt) := by
  apply Agrees.bind (nodeDefinition _)
  intro definition
  apply Agrees.bind
  · exact modifyNode key (fun _ => rfl) fun _ h => h
  intro _
  apply Agrees.ite
  · apply Agrees.bind
    · exact modifyNode key (fun _ => rfl) fun _ h => h
    intro _
    exact touch changedAt
  · apply Agrees.bind
    · exact modifyNode key (fun _ => rfl) fun _ h => h
    intro _
    exact fail _ _

/-! ## 3. The operations -/

theorem beginTask (key : NodeKey) (changedAt : Instant) :
    Indifferent fits origin (WorkflowEngine.beginTask key changedAt) := by
  apply Agrees.bind (nodeExecution key)
  intro node
  apply Agrees.bind (nodeDefinition key)
  intro definition
  apply Agrees.bind (raiseIf _ _)
  intro _
  apply Agrees.bind (raiseIf _ _)
  intro _
  apply Agrees.bind
  · exact modifyNode key (fun _ => rfl) fun _ h => h
  intro _
  exact touch changedAt

theorem start (hnone : fits none) (changedAt : Instant) :
    Indifferent fits origin (WorkflowEngine.start changedAt) := by
  apply Agrees.get_bind
  · intro s s' h
    rw [h.status]
  · intro s
    apply Agrees.bind (raiseIf _ _)
    intro _
    apply Agrees.bind
    · exact header (fun _ => rfl) fun _ _ _ => rfl
    intro _
    apply Agrees.bind (touch changedAt)
    intro _
    apply Agrees.bind recursionLimit
    intro fuel
    apply Agrees.get_bind
    · intro s s' h
      rw [h.graph]
    · intro s
      exact activate_fuel hnone changedAt fuel _

theorem claimTask (key : NodeKey) (workerId : String) (leaseSeconds : ℕ) (leaseToken : UUID)
    (changedAt : Instant) :
    Indifferent fits origin
      (WorkflowEngine.claimTask key workerId leaseSeconds leaseToken changedAt) := by
  apply Agrees.bind (raiseIf _ _)
  intro _
  apply Agrees.bind (raiseIf _ _)
  intro _
  apply Agrees.bind (beginTask key changedAt)
  intro _
  exact modifyNode key (fun _ => rfl) fun _ h => h

theorem renewLease (key : NodeKey) (leaseToken : UUID) (leaseSeconds : ℕ) (changedAt : Instant) :
    Indifferent fits origin
      (WorkflowEngine.renewLease key leaseToken leaseSeconds changedAt) := by
  apply Agrees.bind (raiseIf _ _)
  intro _
  apply Agrees.bind
  · apply Agrees.bind (nodeExecution key)
    intro node
    apply Agrees.bind (raiseIf _ _)
    intro _
    apply Agrees.bind (validateOptionalLease _ _ _)
    intro _
    exact Agrees.pure node
  · intro _
    apply Agrees.bind
    · exact modifyNode key (fun _ => rfl) fun _ h => h
    intro _
    exact touch changedAt

theorem completeTask (hnone : fits none) (key : NodeKey) (outcome : NodeOutcome)
    {output : Option JsonObject} (hfits : fits output) (leaseToken : Option UUID)
    (changedAt : Instant) :
    Indifferent fits origin
      (WorkflowEngine.completeTask key outcome output leaseToken changedAt) := by
  apply Agrees.bind (nodeExecution key)
  intro node
  apply Agrees.bind (raiseIf _ _)
  intro _
  apply Agrees.bind (raiseIf _ _)
  intro _
  apply Agrees.bind (validateOptionalLease _ _ _)
  intro _
  apply Agrees.bind
  · exact modifyNode key (fun _ => rfl) fun _ _ => hfits
  intro _
  apply Agrees.bind (touch changedAt)
  intro _
  exact route hnone _ _ _ _

theorem failTask (key : NodeKey) (reason : String) (leaseToken : Option UUID) (changedAt : Instant) :
    Indifferent fits origin (WorkflowEngine.failTask key reason leaseToken changedAt) := by
  apply Agrees.bind (nodeExecution key)
  intro node
  apply Agrees.bind (raiseIf _ _)
  intro _
  apply Agrees.bind (validateOptionalLease _ _ _)
  intro _
  exact handleTaskFailure _ _ _ _

theorem expireTask (key : NodeKey) (changedAt : Instant) :
    Indifferent fits origin (WorkflowEngine.expireTask key changedAt) := by
  apply Agrees.bind (nodeExecution key)
  intro node
  split
  · exact Agrees.throw _
  · apply Agrees.bind (raiseIf _ _)
    intro _
    apply Agrees.bind (raiseIf _ _)
    intro _
    exact handleTaskFailure _ _ _ _

theorem resolveApproval (hnone : fits none) (key : NodeKey) (approved : Bool) (changedAt : Instant) :
    Indifferent fits origin (WorkflowEngine.resolveApproval key approved changedAt) := by
  apply Agrees.bind (nodeExecution key)
  intro node
  apply Agrees.bind (raiseIf _ _)
  intro _
  apply Agrees.bind
  · exact modifyNode key (fun _ => rfl) fun _ h => h
  intro _
  apply Agrees.bind
  · exact header (fun _ => rfl) fun _ _ _ => rfl
  intro _
  apply Agrees.bind (touch changedAt)
  intro _
  exact route hnone _ _ _ _

theorem cancel (changedAt : Instant) :
    Indifferent fits origin (WorkflowEngine.cancel changedAt) := by
  apply Agrees.get_bind
  · intro s s' h
    rw [h.isTerminal]
  · intro s
    apply Agrees.bind (raiseIf _ _)
    intro _
    apply Agrees.bind
    · exact modifyExecution fun _ _ h => h.cancelActiveNodes changedAt
    intro _
    apply Agrees.bind
    · exact header (fun _ => rfl) fun _ _ _ => rfl
    intro _
    exact touch changedAt

end Indifferent

end WorkflowEngine

/-- The output that an operation writes. -/
def Operation.output : Operation → Option JsonObject
  | .completeTask _ _ output _ _ => output
  | _ => none

theorem Operation.call_indifferent {fits : Option JsonObject → Prop} {origin : WorkflowExecution}
    (hnone : fits none) (operation : Operation) (hfits : fits operation.output) :
    WorkflowEngine.Indifferent fits origin operation.call := by
  cases operation with
  | start changedAt => exact .start hnone changedAt
  | beginTask key changedAt => exact .beginTask key changedAt
  | claimTask key workerId leaseSeconds leaseToken changedAt => exact .claimTask _ _ _ _ _
  | renewLease key leaseToken leaseSeconds changedAt => exact .renewLease _ _ _ _
  | completeTask key outcome output leaseToken changedAt =>
    exact .completeTask hnone _ _ hfits _ _
  | failTask key reason leaseToken changedAt => exact .failTask _ _ _ _
  | expireTask key changedAt => exact .expireTask _ _
  | resolveApproval key approved changedAt => exact .resolveApproval hnone _ _ _
  | cancel changedAt => exact .cancel _

/-- On aggregates that are alike an operation answers the same and leaves them alike. -/
theorem Operation.step_alike {fits : Option JsonObject → Prop}
    {origin before after : WorkflowExecution} (h : Alike fits origin before after) (hnone : fits none)
    (operation : Operation) (hfits : fits operation.output) :
    (operation.step after).1.result = (operation.step before).1.result ∧
      Alike fits origin (operation.step before).2 (operation.step after).2 := by
  have hanswers := operation.call_indifferent hnone hfits { execution := before }
    { execution := after } h
  unfold Operation.step
  generalize operation.call { execution := before } = result,
    operation.call { execution := after } = result' at hanswers
  cases hanswers with
  | ok _ hnext => exact ⟨rfl, hnext⟩
  | error error hnext => exact ⟨rfl, hnext⟩

end JbOrchestrator.Workflows
