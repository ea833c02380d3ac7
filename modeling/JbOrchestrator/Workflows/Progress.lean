import JbOrchestrator.Workflows.Chains

/-!
# Progress — when a run gets stuck

A join that is not ready returns from `_activate` without doing anything.  An operation therefore
leaves a running execution with nothing to do exactly when no other node is active and the chain from
its targets consists of forks, ready joins and waiting joins only (`Operation.Stalls`).
-/

open Lib

namespace JbOrchestrator.Workflows

open WorkflowExecution

/-- A started execution that is not terminal has a node that some worker or approver can move. -/
def WorkflowExecution.CanMove (execution : WorkflowExecution) : Prop :=
  execution.status = .running ∨ execution.status = .awaitingApproval →
    ∃ key node, execution.nodes.get? key = some node ∧ node.status.isActive = true

theorem WorkflowExecution.canMove_of_terminal {execution : WorkflowExecution}
    (h : execution.isTerminal = true) : execution.CanMove := by
  rintro (hstatus | hstatus) <;> rw [isTerminal, hstatus] at h <;> cases h

/-- Nothing is active once the operation has ended its own node, and the targets lead to nothing but
forks and joins. -/
def Operation.Stalls (execution : WorkflowExecution) (operation : Operation) : Prop :=
  ∃ middle keys, operation.routing execution = some (middle, keys) ∧ keys ≠ [] ∧
    middle.Inactive ∧ Confined middle (fun kind => kind.isStructural = true) [] keys

/-! ## 1. One operation -/

section

variable {changedAt : Instant} {execution after : WorkflowExecution} {keys : List NodeKey}
  {calls : List ActivateCall}

/-- A running cascade never ends the activity of a node. -/
theorem WorkflowExecution.Entered.active {before after : WorkflowExecution}
    {entered : List NodeKey} (h : Entered before entered after) (hinv : before.Inv) {key : NodeKey}
    {node : NodeExecution} (hnode : before.nodes.get? key = some node)
    (hactive : node.status.isActive = true) :
    ∃ node', after.nodes.get? key = some node' ∧ node'.status.isActive = true := by
  by_cases hmem : key ∈ entered
  · obtain ⟨kind, hkind, -, hstatus⟩ := h.touched key hmem
    obtain ⟨node', hnode', hstatus'⟩ := Option.map_eq_some_iff.mp hstatus
    obtain ⟨definition, hdefinition, hnodeInv⟩ := hinv.node hnode
    rw [WorkflowGraph.kindOf_eq hdefinition, Option.some_inj] at hkind
    refine ⟨node', hnode', ?_⟩
    rw [hstatus', ← hkind]
    rcases hnodeInv.kind_of_active hactive with htask | happroval
    · rw [htask]
      rfl
    · rw [happroval]
      rfl
  · exact ⟨node, by rw [h.untouched key hmem, hnode], hactive⟩

theorem Cascade.canMove_iff (h : Cascade changedAt execution keys calls after)
    (hlive : Live execution) :
    after.CanMove ↔ ¬(execution.Inactive ∧
      Confined execution (fun kind => kind.isStructural = true) [] keys) := by
  rw [confined_iff hlive h]
  constructor
  · rintro hmove ⟨hinactive, hterminal, entered, hentered, hstructural⟩
    obtain ⟨hinv, hstarted⟩ := h.inv hlive.inv hlive.started hlive.notTerminal
    have hstatus : after.status = .running ∨ after.status = .awaitingApproval := by
      rw [isTerminal] at hterminal
      cases hs : after.status <;> simp_all [WorkflowStatus.isTerminal]
    obtain ⟨key, node, hnode, hactive⟩ := hmove hstatus
    by_cases hmem : key ∈ entered
    · obtain ⟨kind, hkind, -, hentry⟩ := hentered.touched key hmem
      have hk := hstructural key hmem kind hkind
      rw [statusOf_eq hnode, Option.some_inj] at hentry
      rw [hentry] at hactive
      cases kind <;> simp_all [NodeKind.entryStatus, NodeKind.isStructural,
        NodeExecutionStatus.isActive]
    · rw [hentered.untouched key hmem] at hnode
      rw [hinactive key node hnode] at hactive
      cases hactive
  · intro hstall
    by_contra hmove
    unfold CanMove at hmove
    push Not at hmove
    obtain ⟨hstatus, hnone⟩ := hmove
    have hterminal : after.isTerminal = false := by
      rcases hstatus with hs | hs <;> rw [isTerminal, hs] <;> rfl
    obtain ⟨entered, hentered, -⟩ := h.exists_entered hlive hterminal (Entered.refl execution)
    refine hstall ⟨fun key node hnode => ?_, hterminal, entered, hentered, fun key hmem kind hkind => ?_⟩
    · by_contra hactive
      rw [Bool.not_eq_false] at hactive
      obtain ⟨node', hnode', hactive'⟩ := hentered.active hlive.inv hnode hactive
      exact hnone key node' hnode' hactive'
    · obtain ⟨kind', hkind', hne, hentry⟩ := hentered.touched key hmem
      obtain rfl := Option.some_injective _ (hkind'.symm.trans hkind)
      obtain ⟨node, hnode, hstatus'⟩ := Option.map_eq_some_iff.mp hentry
      have hinactive := hnone key node hnode
      rw [hstatus'] at hinactive
      cases kind' <;> simp_all [NodeKind.entryStatus, NodeKind.isStructural,
        NodeExecutionStatus.isActive]

/-- An operation gets the execution stuck exactly when it stalls. -/
theorem Effect.canMove_iff {operation : Operation} (h : Effect execution operation calls after)
    (hinv : execution.Inv) : after.CanMove ↔ ¬operation.Stalls execution := by
  cases hrouting : operation.routing execution with
  | none =>
    have hstalls : ¬operation.Stalls execution := by
      rintro ⟨middle, keys, hsome, -⟩
      rw [hrouting] at hsome
      cases hsome
    refine iff_of_true ?_ hstalls
    obtain ⟨-, hterminal | ⟨-, key, node, f, hnode, -, hnodes, hwork⟩⟩ := h.local_spec hrouting
    · exact canMove_of_terminal hterminal
    · refine fun _ => ⟨key, f node, ?_, ?_⟩
      · rw [hnodes, Dict.get?_modify_self, hnode]
        rfl
      · cases hs : (f node).status <;> simp_all [NodeExecutionStatus.isWork,
          NodeExecutionStatus.isActive]
  | some pair =>
    obtain ⟨middle, keys⟩ := pair
    obtain ⟨hlive, -, ⟨hkeys, hterminal⟩ | ⟨hkeys, changedAt, hcascade⟩⟩ :=
      h.routing_spec hinv hrouting
    · refine iff_of_true (canMove_of_terminal hterminal) ?_
      rintro ⟨middle', keys', hsome, hne, -⟩
      rw [hrouting] at hsome
      obtain ⟨-, rfl⟩ := Prod.mk.inj (Option.some_injective _ hsome)
      exact hne hkeys
    · rw [hcascade.canMove_iff hlive]
      refine not_congr ⟨fun hstall => ⟨middle, keys, hrouting, hkeys, hstall⟩, ?_⟩
      rintro ⟨middle', keys', hsome, -, hstall⟩
      rw [hrouting] at hsome
      obtain ⟨rfl, rfl⟩ := Prod.mk.inj (Option.some_injective _ hsome)
      exact hstall

end

/-! ## 2. Runs -/

/-- A run never gets stuck exactly when none of its successful operations stalls. -/
theorem run_progress {d : AcceptedDefinition} {start : WorkflowExecution} (hstart : d.Creates start)
    (operations : List Operation) :
    (∀ t ∈ engine.trace start operations, t.after.CanMove) ↔
      ∀ t ∈ engine.trace start operations, t.output.succeeded = true → ¬t.input.Stalls t.before := by
  refine engine.forall_trace_iff step_inv ?_ hstart.inv ?_ operations
  · intro execution operation hinv hmove
    rcases fire_cases hinv operation with ⟨hfailed, hafter, -⟩ | ⟨hsucceeded, heffect⟩
    · change (engine.fire execution operation).after.CanMove ↔ _
      rw [hafter, hfailed]
      simpa using hmove
    · rw [hsucceeded]
      simpa using heffect.canMove_iff hinv
  · rintro (hstatus | hstatus) <;> rw [hstart.status] at hstatus <;> cases hstatus

/-! ## 3. A join whose sources exclude each other -/

/-- The outcomes of one task lead to two branches that meet in a join. -/
def exclusiveBranches : WorkflowDefinition where
  key := "exclusive-branches"
  version := 1
  entryNode := "review"
  nodes := [
    { key := "review", kind := .task },
    { key := "accept", kind := .task },
    { key := "rework", kind := .task },
    { key := "merge", kind := .join },
    { key := "done", kind := .terminal, terminalStatus := some .succeeded }]
  edges := [
    ⟨"review", .success, "accept", none⟩,
    ⟨"review", .failure, "rework", none⟩,
    ⟨"accept", .success, "merge", none⟩,
    ⟨"rework", .success, "merge", none⟩,
    ⟨"merge", .success, "done", none⟩]

def acceptedExclusiveBranches : AcceptedDefinition := ⟨exclusiveBranches, by decide +kernel⟩

def stuckRun : List Operation :=
  [.start 0, .beginTask "review" 1, .completeTask "review" .success none none 2,
    .beginTask "accept" 3, .completeTask "accept" .success none none 4]

instance (execution : WorkflowExecution) : Decidable execution.Inactive :=
  decidable_of_iff (∀ entry ∈ execution.nodes.entries,
    (execution.nodes.get? entry.1).all fun node => !node.status.isActive) (by
      constructor
      · intro h key node hnode
        have := h _ (Dict.mem_entries_of_get? hnode)
        simpa [hnode] using this
      · intro h entry hentry
        cases hnode : execution.nodes.get? entry.1 with
        | none => rfl
        | some node => simp [h _ node hnode])

/-- The last operation of the run stalls. -/
theorem run_progress_exclusiveBranches :
    ∃ t ∈ engine.trace acceptedExclusiveBranches.blank stuckRun,
      t.output.succeeded = true ∧ t.input.Stalls t.before := by
  have hstuck : ∃ t ∈ engine.trace acceptedExclusiveBranches.blank stuckRun,
      t.after.status = .running ∧ t.after.Inactive := by
    decide +kernel
  have hrun : ¬∀ t ∈ engine.trace acceptedExclusiveBranches.blank stuckRun,
      t.output.succeeded = true → ¬t.input.Stalls t.before := by
    rw [← run_progress acceptedExclusiveBranches.creates_blank stuckRun]
    intro hmove
    obtain ⟨t, ht, hstatus, hinactive⟩ := hstuck
    obtain ⟨key, node, hnode, hactive⟩ := hmove t ht (Or.inl hstatus)
    rw [hinactive key node hnode] at hactive
    cases hactive
  push Not at hrun
  exact hrun

/-- After both tasks have succeeded the execution is running and has nothing left to do. -/
theorem silent_deadlock :
    ¬∀ (d : AcceptedDefinition) (execution : WorkflowExecution), d.Reachable execution →
      execution.CanMove := by
  intro hclaim
  have hmove := hclaim acceptedExclusiveBranches _
    ⟨_, acceptedExclusiveBranches.creates_blank, stuckRun, rfl⟩
  have hstuck : (engine.run acceptedExclusiveBranches.blank stuckRun).status = .running ∧
      (engine.run acceptedExclusiveBranches.blank stuckRun).Inactive := by
    decide +kernel
  obtain ⟨key, node, hnode, hactive⟩ := hmove (Or.inl hstuck.1)
  rw [hstuck.2 key node hnode] at hactive
  cases hactive

end JbOrchestrator.Workflows
