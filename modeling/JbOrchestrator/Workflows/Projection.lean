import JbOrchestrator.Infrastructure.Selection
import JbOrchestrator.Workflows.Chains

/-!
# Projection — one status for many nodes

The execution has one status, its nodes have one each.  Dispatch filters on the former
(`dispatch_visible_iff`), and the engine sets it to awaiting approval in one place and back to
running whenever any approval is resolved (`run_projects`).
-/

open Lib

namespace JbOrchestrator.Workflows

open WorkflowExecution Infrastructure

/-! ## 1. Dispatch -/

/-- The lease of a running node is over at `now`. -/
def NodeExecution.ExpiredAt (node : NodeExecution) (now : Instant) : Prop :=
  node.status = .running ∧ ∃ expiresAt, node.leaseExpiresAt = some expiresAt ∧ expiresAt ≤ now

/-- The ready tasks of an execution that is not terminal can be claimed, and the expired ones can be
recovered. -/
def WorkflowExecution.Dispatchable (execution : WorkflowExecution) (now : Instant) : Prop :=
  ∀ key node, execution.nodes.get? key = some node → execution.graph.kindOf key = some .task →
    (node.status = .ready → execution.isTerminal = false →
      readyForUpdate none execution node = true) ∧
    (node.ExpiredAt now → expiredForUpdate now execution node = true)

/-- Ready and expired tasks are hidden exactly while the execution waits for an approval. -/
theorem dispatchable_iff {d : AcceptedDefinition} {execution : WorkflowExecution}
    (h : d.Reachable execution) (now : Instant) :
    execution.Dispatchable now ↔
      ¬(execution.status = .awaitingApproval ∧ ∃ key node, execution.nodes.get? key = some node ∧
        (node.status = .ready ∨ node.ExpiredAt now)) := by
  have hinv := h.inv
  constructor
  · rintro hvisible ⟨hstatus, key, node, hnode, hwork⟩
    obtain ⟨definition, hdefinition, hnodeInv⟩ := hinv.node hnode
    have hkind : execution.graph.kindOf key = some .task := by
      rw [WorkflowGraph.kindOf_eq hdefinition]
      rcases hwork with hready | ⟨hrunning, -⟩
      · rw [hnodeInv.task (Or.inl hready)]
      · rw [hnodeInv.task (Or.inr (Or.inl hrunning))]
    obtain ⟨hready, hexpired⟩ := hvisible key node hnode hkind
    rcases hwork with hwork | hwork
    · have hfilter := hready hwork (by rw [isTerminal, hstatus]; rfl)
      simp [readyForUpdate, hstatus] at hfilter
    · have hfilter := hexpired hwork
      simp [expiredForUpdate, hstatus] at hfilter
  · intro hhidden key node hnode _
    have hrunning : node.status.isActive = true → (node.status = .ready ∨ node.ExpiredAt now) →
        execution.status = .running := by
      intro hactive hwork
      obtain ⟨hstarted, hlive⟩ := hinv.live_of_active hnode hactive
      rw [isTerminal] at hlive
      have hnot : execution.status ≠ .awaitingApproval := fun hstatus =>
        hhidden ⟨hstatus, key, node, hnode, hwork⟩
      cases hs : execution.status <;> simp_all [WorkflowStatus.isTerminal]
    constructor
    · intro hready _
      simp [readyForUpdate, hready, hrunning (by rw [hready]; rfl) (Or.inl hready)]
    · intro hexpired
      obtain ⟨hstatus, expiresAt, hexpires, hle⟩ := id hexpired
      simp [expiredForUpdate, hstatus, hexpires, hle,
        hrunning (by rw [hstatus]; rfl) (Or.inr hexpired)]

/-- A task beside an approval. -/
def approvalBesideTask : WorkflowDefinition where
  key := "approval-beside-task"
  version := 1
  entryNode := "fan_out"
  nodes := [
    { key := "fan_out", kind := .fork },
    { key := "sign_off", kind := .approval },
    { key := "build", kind := .task },
    { key := "fan_in", kind := .join },
    { key := "done", kind := .terminal, terminalStatus := some .succeeded }]
  edges := [
    ⟨"fan_out", .success, "sign_off", none⟩,
    ⟨"fan_out", .success, "build", none⟩,
    ⟨"sign_off", .approved, "fan_in", none⟩,
    ⟨"build", .success, "fan_in", none⟩,
    ⟨"fan_in", .success, "done", none⟩]

def acceptedApprovalBesideTask : AcceptedDefinition := ⟨approvalBesideTask, by decide +kernel⟩

theorem reachable_approvalBesideTask (operations : List Operation) :
    acceptedApprovalBesideTask.Reachable
      (engine.run acceptedApprovalBesideTask.blank operations) :=
  ⟨_, acceptedApprovalBesideTask.creates_blank, operations, rfl⟩

/-- The start makes `build` ready and the execution wait. -/
theorem dispatchable_iff_approvalBesideTask :
    ¬(engine.run acceptedApprovalBesideTask.blank [.start 0]).Dispatchable 0 := by
  rw [dispatchable_iff (reachable_approvalBesideTask [.start 0]) 0, not_not]
  have hready : (engine.run acceptedApprovalBesideTask.blank [.start 0]).statusOf "build" =
      some .ready := by
    decide +kernel
  obtain ⟨node, hnode, hstatus⟩ := Option.map_eq_some_iff.mp hready
  exact ⟨by decide +kernel, "build", node, hnode, Or.inl hstatus⟩

/-- A ready task that no worker can be given. -/
theorem approval_hides_sibling :
    ¬∀ (d : AcceptedDefinition) (execution : WorkflowExecution), d.Reachable execution →
      ∀ now, execution.Dispatchable now := by
  intro hclaim
  have hvisible := hclaim _ _ (reachable_approvalBesideTask [.start 0]) 0
  have hready : (engine.run acceptedApprovalBesideTask.blank [.start 0]).statusOf "build" =
      some .ready := by
    decide +kernel
  obtain ⟨node, hnode, hstatus⟩ := Option.map_eq_some_iff.mp hready
  have hfilter := (hvisible "build" node hnode (by decide +kernel)).1 hstatus (by decide +kernel)
  have hawaiting : (engine.run acceptedApprovalBesideTask.blank [.start 0]).status =
      .awaitingApproval := by
    decide +kernel
  unfold readyForUpdate at hfilter
  rw [hawaiting] at hfilter
  simp at hfilter

/-! ## 2. The status of a cascade -/

/-- A started execution that is not terminal awaits an approval when one of its nodes does, and is
running otherwise. -/
def WorkflowExecution.Projects (execution : WorkflowExecution) : Prop :=
  execution.status ≠ .pending → execution.isTerminal = false →
    (execution.status = .awaitingApproval ↔ execution.Awaits) ∧
      (¬execution.Awaits → execution.status = .running)

section

variable {changedAt : Instant} {execution before after : WorkflowExecution} {keys : List NodeKey}
  {calls : List ActivateCall} {entered : List NodeKey}

theorem WorkflowExecution.projects_of_terminal (h : execution.isTerminal = true) :
    execution.Projects := by
  intro _ hlive
  rw [h] at hlive
  cases hlive

/-- For a started execution that is not terminal the two halves of the projection are one. -/
theorem WorkflowExecution.projects_iff (hstarted : execution.status ≠ .pending)
    (hlive : execution.isTerminal = false) :
    execution.Projects ↔ (execution.status = .awaitingApproval ↔ execution.Awaits) := by
  constructor
  · intro h
    exact (h hstarted hlive).1
  · intro h _ _
    refine ⟨h, fun hnot => ?_⟩
    rw [← h] at hnot
    rw [isTerminal] at hlive
    cases hs : execution.status <;> simp_all [WorkflowStatus.isTerminal]

/-- An approval that was entered is awaited, and so is the execution. -/
theorem WorkflowExecution.Entered.awaits (h : Entered before entered after) {key : NodeKey}
    (hmem : key ∈ entered) (hkind : before.graph.kindOf key = some .approval) :
    after.status = .awaitingApproval ∧ after.Awaits := by
  constructor
  · rw [h.status, if_pos (List.mem_map.mpr ⟨key, hmem, hkind⟩)]
  · obtain ⟨kind, hkind', -, hstatus⟩ := h.touched key hmem
    obtain rfl := Option.some_injective _ (hkind.symm.trans hkind')
    exact ⟨key, hstatus⟩

/-- Without an approval among the entered nodes nothing changes for the approvals. -/
theorem WorkflowExecution.Entered.awaits_iff (h : Entered before entered after) (hinv : before.Inv)
    (hnone : ∀ key ∈ entered, before.graph.kindOf key ≠ some .approval) :
    after.status = before.status ∧ (after.Awaits ↔ before.Awaits) := by
  constructor
  · rw [h.status, if_neg]
    intro hmem
    obtain ⟨key, hkey, hkind⟩ := List.mem_map.mp hmem
    exact hnone key hkey hkind
  · constructor
    · rintro ⟨key, hkey⟩
      by_cases hmem : key ∈ entered
      · obtain ⟨kind, hkind, -, hstatus⟩ := h.touched key hmem
        rw [hkey, Option.some_inj] at hstatus
        have hne := hnone key hmem
        cases kind with
        | approval => exact absurd hkind hne
        | _ => cases hstatus
      · refine ⟨key, ?_⟩
        unfold statusOf at hkey ⊢
        rwa [h.untouched key hmem] at hkey
    · rintro ⟨key, hkey⟩
      obtain ⟨node, hnode, hstatus⟩ := Option.map_eq_some_iff.mp hkey
      obtain ⟨definition, hdefinition, hnodeInv⟩ := hinv.node hnode
      have hmem : key ∉ entered := by
        intro hmem
        apply hnone key hmem
        rw [WorkflowGraph.kindOf_eq hdefinition, hnodeInv.approval hstatus]
      refine ⟨key, ?_⟩
      unfold statusOf at hkey ⊢
      rwa [h.untouched key hmem]

/-- After a cascade from a running execution with a pending approval the projection fails exactly
when the chain enters neither an approval nor a terminal node. -/
theorem Cascade.projects_iff (h : Cascade changedAt execution keys calls after)
    (hlive : Live execution) (hstatus : execution.status = .running) :
    after.Projects ↔
      ¬(execution.Awaits ∧ Confined execution (fun kind => kind ≠ .approval) [] keys) := by
  obtain ⟨-, hstarted⟩ := h.inv hlive.inv hlive.started hlive.notTerminal
  rw [confined_iff hlive h]
  cases hterminal : after.isTerminal with
  | true =>
    refine iff_of_true (projects_of_terminal hterminal) ?_
    rintro ⟨-, hfalse, -⟩
    cases hfalse
  | false =>
    obtain ⟨entered, hentered, -⟩ := h.exists_entered hlive hterminal (Entered.refl execution)
    rw [WorkflowExecution.projects_iff hstarted hterminal]
    by_cases happroval : ∃ key ∈ entered, execution.graph.kindOf key = some .approval
    · obtain ⟨key, hmem, hkind⟩ := happroval
      obtain ⟨hafter, hawaits⟩ := hentered.awaits hmem hkind
      refine iff_of_true (iff_of_true hafter hawaits) ?_
      rintro ⟨-, -, entered', hentered', hallowed⟩
      -- the two lists of entered nodes have the same members
      have hmem' : key ∈ entered' := by
        have hcount := hentered.visits key
        have hcount' := hentered'.visits key
        have hpos := List.count_pos_iff.mpr hmem
        exact List.count_pos_iff.mp (by omega)
      exact hallowed key hmem' .approval hkind rfl
    · push Not at happroval
      obtain ⟨hsame, hawaits⟩ := hentered.awaits_iff hlive.inv happroval
      have hnot : after.status ≠ .awaitingApproval := by
        rw [hsame, hstatus]
        simp
      rw [hawaits]
      constructor
      · rintro hiff ⟨hexecution, -⟩
        exact hnot (hiff.mpr hexecution)
      · intro hhidden
        refine iff_of_false hnot fun hexecution => hhidden ⟨hexecution, rfl, entered, hentered, ?_⟩
        intro key hmem kind hkind hk
        exact happroval key hmem (hk ▸ hkind)

/-- A cascade keeps the projection. -/
theorem Cascade.projects (h : Cascade changedAt execution keys calls after)
    (hlive : Live execution) (hprojects : execution.Projects) : after.Projects := by
  obtain ⟨-, hstarted⟩ := h.inv hlive.inv hlive.started hlive.notTerminal
  cases hterminal : after.isTerminal with
  | true => exact projects_of_terminal hterminal
  | false =>
    obtain ⟨entered, hentered, -⟩ := h.exists_entered hlive hterminal (Entered.refl execution)
    rw [WorkflowExecution.projects_iff hstarted hterminal]
    rw [WorkflowExecution.projects_iff hlive.started hlive.notTerminal] at hprojects
    by_cases happroval : ∃ key ∈ entered, execution.graph.kindOf key = some .approval
    · obtain ⟨key, hmem, hkind⟩ := happroval
      obtain ⟨hafter, hawaits⟩ := hentered.awaits hmem hkind
      exact iff_of_true hafter hawaits
    · push Not at happroval
      obtain ⟨hsame, hawaits⟩ := hentered.awaits_iff hlive.inv happroval
      rw [hsame, hawaits]
      exact hprojects

end

/-! ## 3. Operations -/

/-- Resolving the approval leaves another one pending, and the chain from its targets enters neither
an approval nor a terminal node. -/
def Operation.HidesApproval (execution : WorkflowExecution) : Operation → Prop
  | .resolveApproval key approved changedAt =>
    let middle := execution.resolved key (approvalOutcome approved) changedAt
    let keys := execution.targets key (approvalOutcome approved) none
    middle.Awaits ∧ keys ≠ [] ∧ Confined middle (fun kind => kind ≠ .approval) [] keys
  | _ => False

theorem WorkflowExecution.awaits_modifyNode {execution after : WorkflowExecution} {key : NodeKey}
    {node : NodeExecution} {f : NodeExecution → NodeExecution}
    (hnode : execution.nodes.get? key = some node)
    (hnodes : after.nodes = execution.nodes.modify key f)
    (hbefore : node.status ≠ .awaitingApproval) (hafter : (f node).status ≠ .awaitingApproval) :
    after.Awaits ↔ execution.Awaits := by
  have hstatusOf : ∀ key', after.statusOf key' =
      (execution.modifyNode key f).statusOf key' := by
    intro key'
    simp only [statusOf, hnodes, WorkflowExecution.modifyNode]
  unfold Awaits
  refine exists_congr fun key' => ?_
  rw [hstatusOf]
  by_cases hkey : key' = key
  · subst hkey
    rw [statusOf_modifyNode_self f hnode, statusOf_eq hnode, Option.some_inj, Option.some_inj]
    exact iff_of_false hafter hbefore
  · rw [statusOf_modifyNode_of_ne _ f hkey]

theorem Effect.projects_iff {execution after : WorkflowExecution} {operation : Operation}
    {calls : List ActivateCall} (h : Effect execution operation calls after)
    (hinv : execution.Inv) (hprojects : execution.Projects) :
    after.Projects ↔ ¬operation.HidesApproval execution := by
  cases hrouting : operation.routing execution with
  | none =>
    have hhides : ¬operation.HidesApproval execution := by
      cases operation <;> simp_all [Operation.HidesApproval, Operation.routing]
    refine iff_of_true ?_ hhides
    obtain ⟨-, hterminal | ⟨hstatus, key, node, f, hnode, hwork, hnodes, hwork'⟩⟩ :=
      h.local_spec hrouting
    · exact projects_of_terminal hterminal
    · intro hstarted hlive
      have hawaits : after.Awaits ↔ execution.Awaits := by
        refine awaits_modifyNode hnode hnodes ?_ ?_ <;> rintro hs <;>
          simp_all [NodeExecutionStatus.isWork]
      rw [isTerminal, hstatus] at hlive
      rw [hstatus] at hstarted ⊢
      rw [hawaits]
      exact hprojects hstarted hlive
  | some pair =>
    obtain ⟨middle, keys⟩ := pair
    obtain ⟨hlive, -, hcases⟩ := h.routing_spec hinv hrouting
    cases h with
    | @start changedAt _ _ hstatus hcascade =>
      refine iff_of_true ?_ id
      have hstarted := hinv.started changedAt
      have hnone : ¬(execution.started changedAt).Awaits := by
        rintro ⟨key, hkey⟩
        obtain ⟨node, hnode, hs⟩ := Option.map_eq_some_iff.mp hkey
        rw [hinv.pending hstatus key node hnode] at hs
        cases hs
      refine hcascade.projects ⟨hstarted, by simp [WorkflowExecution.started, touch], rfl⟩ ?_
      intro _ _
      refine ⟨iff_of_false ?_ hnone, fun _ => rfl⟩
      simp [WorkflowExecution.started, touch]
    | @completeTask key outcome output leaseToken changedAt node _ _ hnode hrunning _ _ hrouted =>
      refine iff_of_true ?_ id
      cases hrouted with
      | stuck => exact projects_of_terminal rfl
      | routed _ hcascade =>
        obtain ⟨hstarted, hlive'⟩ := hinv.live_of_active hnode (by rw [hrunning]; rfl)
        refine hcascade.projects
          ⟨hinv.completed hnode hrunning outcome output changedAt, hstarted, hlive'⟩ ?_
        have hawaits : (execution.completed key outcome output changedAt).Awaits ↔
            execution.Awaits :=
          awaits_modifyNode (f := fun node => node.complete outcome output changedAt) hnode rfl
            (by rw [hrunning]; simp) (by simp [NodeExecution.complete, NodeExecution.clearLease])
        intro _ _
        rw [hawaits]
        exact hprojects hstarted hlive'
    | @resolveApproval key approved changedAt node _ _ hnode hawaiting hrouted =>
      have hlive' : Live (execution.resolved key (approvalOutcome approved) changedAt) :=
        ⟨hinv.resolved hnode hawaiting _ changedAt,
          by simp [WorkflowExecution.resolved, touch], rfl⟩
      cases hrouted with
      | stuck htargets =>
        refine iff_of_true (projects_of_terminal rfl) ?_
        rintro ⟨-, hne, -⟩
        exact hne htargets
      | routed htargets hcascade =>
        rw [hcascade.projects_iff hlive' rfl]
        refine not_congr (and_congr_right fun _ => ?_)
        exact (and_iff_right htargets).symm
    | _ => cases hrouting

/-! ## 4. Runs -/

/-- In every state of a run the status agrees with the approvals, exactly when no successful
resolution hides one. -/
theorem run_projects {d : AcceptedDefinition} {start : WorkflowExecution} (hstart : d.Creates start)
    (operations : List Operation) :
    (∀ t ∈ engine.trace start operations, t.after.Projects) ↔
      ∀ t ∈ engine.trace start operations, t.output.succeeded = true →
        ¬t.input.HidesApproval t.before := by
  refine engine.forall_trace_iff step_inv ?_ hstart.inv ?_ operations
  · intro execution operation hinv hprojects
    rcases fire_cases hinv operation with ⟨hfailed, hafter, -⟩ | ⟨hsucceeded, heffect⟩
    · change (engine.fire execution operation).after.Projects ↔ _
      rw [hafter, hfailed]
      simpa using hprojects
    · rw [hsucceeded]
      simpa using heffect.projects_iff hinv hprojects
  · intro hstarted
    exact absurd hstart.status hstarted

/-- Two approvals at once; the first leads to a task. -/
def twoApprovals : WorkflowDefinition where
  key := "two-approvals"
  version := 1
  entryNode := "fan_out"
  nodes := [
    { key := "fan_out", kind := .fork },
    { key := "legal", kind := .approval },
    { key := "security", kind := .approval },
    { key := "publish", kind := .task },
    { key := "fan_in", kind := .join },
    { key := "done", kind := .terminal, terminalStatus := some .succeeded }]
  edges := [
    ⟨"fan_out", .success, "legal", none⟩,
    ⟨"fan_out", .success, "security", none⟩,
    ⟨"legal", .approved, "publish", none⟩,
    ⟨"publish", .success, "fan_in", none⟩,
    ⟨"security", .approved, "fan_in", none⟩,
    ⟨"fan_in", .success, "done", none⟩]

def acceptedTwoApprovals : AcceptedDefinition := ⟨twoApprovals, by decide +kernel⟩

def firstApproval : List Operation := [.start 0, .resolveApproval "legal" true 1]

theorem not_projects_firstApproval :
    ¬(engine.run acceptedTwoApprovals.blank firstApproval).Projects := by
  intro hprojects
  have hstatus : (engine.run acceptedTwoApprovals.blank firstApproval).status = .running := by
    decide +kernel
  have hawaits : (engine.run acceptedTwoApprovals.blank firstApproval).statusOf "security" =
      some .awaitingApproval := by
    decide +kernel
  have hiff := (hprojects (by rw [hstatus]; simp) (by rw [isTerminal, hstatus]; rfl)).1
  rw [hstatus] at hiff
  exact absurd (hiff.mpr ⟨"security", hawaits⟩) (by simp)

/-- Resolving `legal` hides that `security` is still pending. -/
theorem run_projects_twoApprovals :
    ∃ t ∈ engine.trace acceptedTwoApprovals.blank firstApproval,
      t.output.succeeded = true ∧ t.input.HidesApproval t.before := by
  have hrun : ¬∀ t ∈ engine.trace acceptedTwoApprovals.blank firstApproval,
      t.output.succeeded = true → ¬t.input.HidesApproval t.before := by
    rw [← run_projects acceptedTwoApprovals.creates_blank firstApproval]
    intro hall
    refine not_projects_firstApproval (hall (engine.fire
      (engine.run acceptedTwoApprovals.blank [.start 0]) (.resolveApproval "legal" true 1)) ?_)
    exact List.mem_cons_of_mem _ List.mem_cons_self
  push Not at hrun
  exact hrun

/-- An execution that is running although an approval is pending. -/
theorem approval_resets_status :
    ¬∀ (d : AcceptedDefinition) (execution : WorkflowExecution), d.Reachable execution →
      execution.Projects := fun hclaim =>
  not_projects_firstApproval
    (hclaim _ _ ⟨_, acceptedTwoApprovals.creates_blank, firstApproval, rfl⟩)

end JbOrchestrator.Workflows
