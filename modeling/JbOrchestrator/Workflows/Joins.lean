import JbOrchestrator.Workflows.Runs

/-!
# Joins — when a join is activated

A join waits until every direct predecessor is in the completed state; it does not ask where the
predecessor routed to.  `join_activation` is what holds of every activation of a join: all direct
predecessors have ended their latest visit, and at least one of them, with every fork and join among
them, routed to it.  A predecessor that routed elsewhere counts as well (`joinCountsDetours`).
-/

open Lib

namespace JbOrchestrator.Workflows

open WorkflowExecution

/-! ## 1. Predecessors -/

/-- The latest visit of `source` has ended. -/
def WorkflowExecution.Ended (execution : WorkflowExecution) (source : NodeKey) : Prop :=
  ∃ node outcome, execution.nodes.get? source = some node ∧ 1 ≤ node.visitCount ∧
    node.status = .succeeded ∧ node.outcome = some outcome

section

variable {changedAt : Instant} {execution after : WorkflowExecution} {key source target : NodeKey}
  {node : NodeExecution} {definition : NodeDefinition} {pushed keys : List NodeKey} {resets : Bool}

theorem ended_of_succeeded (hinv : execution.Inv)
    (hstatus : execution.statusOf source = some .succeeded) : execution.Ended source := by
  obtain ⟨node, hnode, hstatus⟩ := Option.map_eq_some_iff.mp hstatus
  obtain ⟨definition, -, hnodeInv⟩ := hinv.node hnode
  obtain ⟨outcome, houtcome⟩ := Option.isSome_iff_exists.mp (hnodeInv.outcome hstatus)
  have hvisits : node.visitCount ≠ 0 := by
    rw [ne_eq, ← hnodeInv.unvisited, hstatus]
    simp
  exact ⟨node, outcome, hnode, Nat.one_le_iff_ne_zero.mpr hvisits, hstatus, houtcome⟩

/-- A fork or a join that has ended routed to all its successors. -/
theorem arrives_of_structural (hinv : execution.Inv)
    (hstatus : execution.statusOf source = some .succeeded)
    (hdefinition : execution.graph.node source = some definition)
    (hkind : definition.kind.isStructural) (hedge : execution.graph.Adjacent source target) :
    execution.Arrives source target := by
  obtain ⟨node, hnode, hstatus⟩ := Option.map_eq_some_iff.mp hstatus
  obtain ⟨houtcome, houtput⟩ :=
    (hinv.nodes source node definition hnode hdefinition).structural hkind hstatus
  refine ⟨node, .success, hnode, hstatus, houtcome, ?_⟩
  rw [houtput]
  exact (hinv.sound.wellFormed.mem_structural_targets hdefinition hkind none target).mpr hedge

/-- A structural node that has ended is never visited again: the visit either waits or fails the
execution. -/
theorem Visit.ne_structural (h : Visit changedAt execution key node definition pushed resets after)
    (hlive : Live execution) (hnode : execution.nodes.get? key = some node)
    (hdefinition : execution.graph.node key = some definition)
    (hterminal : after.isTerminal = false) (hkind : definition.kind.isStructural)
    (hstatus : node.status = .succeeded) : after = execution := by
  have hnodeInv := hlive.inv.nodes key node definition hnode hdefinition
  have hmax := hlive.inv.sound.wellFormed.structural_visits key definition hdefinition hkind
  have hvisits : node.visitCount ≠ 0 := by
    rw [ne_eq, ← hnodeInv.unvisited, hstatus]
    simp
  cases h with
  | waits => rfl
  | exhausted => cases hterminal
  | task _ hleft => omega
  | approval _ hleft => omega
  | structural _ _ hleft => omega
  | terminal _ hleft => omega

/-! ## 2. Why a node is on the stack -/

/-- Some fork or join that has ended routes to `target`. -/
def WorkflowExecution.Forked (execution : WorkflowExecution) (target : NodeKey) : Prop :=
  ∃ source definition, execution.graph.node source = some definition ∧
    definition.kind.isStructural = true ∧ execution.statusOf source = some .succeeded ∧
    execution.graph.Adjacent source target

theorem Visit.forked (h : Visit changedAt execution key node definition pushed resets after)
    (hlive : Live execution) (hnode : execution.nodes.get? key = some node)
    (hdefinition : execution.graph.node key = some definition)
    (hterminal : after.isTerminal = false) (htarget : execution.Forked target) :
    after.Forked target := by
  obtain ⟨source, definition', hdefinition', hkind, hstatus, hedge⟩ := htarget
  have hgraph : after.graph = execution.graph :=
    congrArg WorkflowSnapshot.toWorkflowGraph h.sameShape.snapshot
  refine ⟨source, definition', hgraph ▸ hdefinition', hkind, ?_, hgraph ▸ hedge⟩
  by_cases hkey : source = key
  · subst hkey
    obtain rfl := Option.some_injective _ (hdefinition.symm.trans hdefinition')
    rw [statusOf_eq hnode, Option.some_inj] at hstatus
    rw [h.ne_structural hlive hnode hdefinition hterminal hkind hstatus, statusOf_eq hnode, hstatus]
  · unfold statusOf
    rw [h.get?_of_ne hlive.inv.sound hdefinition hterminal hkey]
    exact hstatus

/-- A visit pushes the successors of the structural node it has just completed. -/
theorem Visit.forked_pushed
    (h : Visit changedAt execution key node definition pushed resets after)
    (hnode : execution.nodes.get? key = some node)
    (hdefinition : execution.graph.node key = some definition) (htarget : target ∈ pushed) :
    after.Forked target := by
  cases h with
  | structural hkind =>
    refine ⟨key, definition, hdefinition, hkind, ?_,
      WorkflowGraph.adjacent_of_mem_selectTargets htarget⟩
    exact statusOf_modifyNode_self _ hnode
  | _ => cases htarget

/-- The invariant of the stack: what lies below the top comes from a fork or a join. -/
def Justified (execution : WorkflowExecution) : List NodeKey → Prop
  | [] => True
  | key :: keys => Live execution ∧
      (key = execution.graph.entryNode ∨ ∃ source, execution.Arrives source key) ∧
      ∀ target ∈ keys, execution.Forked target

theorem Forked.arrives (hinv : execution.Inv) (h : execution.Forked target) :
    ∃ source, execution.Arrives source target := by
  obtain ⟨source, definition, hdefinition, hkind, hstatus, hedge⟩ := h
  exact ⟨source, arrives_of_structural hinv hstatus hdefinition hkind hedge⟩

theorem Justified.of_forked (hlive : Live execution)
    (h : ∀ target ∈ keys, execution.Forked target) : Justified execution keys := by
  cases keys with
  | nil => trivial
  | cons key keys =>
    rw [List.forall_mem_cons] at h
    exact ⟨hlive, Or.inr (Forked.arrives hlive.inv h.1), h.2⟩

theorem Origin.justified (h : Origin execution keys) (hlive : Live execution) :
    Justified execution keys := by
  cases h with
  | entry => exact ⟨hlive, Or.inl rfl, by simp⟩
  | @visit source node definition outcome hnode hdefinition hkind hstatus houtcome =>
    have hlength := hlive.inv.sound.wellFormed.length_targets_le_one hdefinition hkind outcome
      node.output
    cases htargets : execution.targets source outcome node.output with
    | nil => trivial
    | cons target rest =>
      have hrest : rest = [] := by
        change (execution.targets source outcome node.output).length ≤ 1 at hlength
        rw [htargets] at hlength
        simpa using hlength
      refine ⟨hlive, Or.inr ⟨source, node, outcome, hnode, hstatus, houtcome, ?_⟩, by simp [hrest]⟩
      rw [htargets]
      exact List.mem_cons_self

end

/-! ## 3. Activations of a join -/

/-- What holds of the aggregate when a join is activated. -/
structure JoinActivation (execution : WorkflowExecution) (join : NodeKey) : Prop where
  ended : ∀ source, execution.graph.Adjacent source join → execution.Ended source
  structural : ∀ source definition, execution.graph.Adjacent source join →
    execution.graph.node source = some definition → definition.kind.isStructural →
    execution.Arrives source join
  trigger : ∃ source, execution.graph.Adjacent source join ∧ execution.Arrives source join

theorem Visit.joinActivation {changedAt : Instant} {execution after : WorkflowExecution}
    {key : NodeKey} {node : NodeExecution} {definition : NodeDefinition}
    {pushed keys : List NodeKey}
    (h : Visit changedAt execution key node definition pushed true after)
    (hdefinition : execution.graph.node key = some definition) (hkind : definition.kind = .join)
    (hjustified : Justified execution (key :: keys)) : JoinActivation execution key := by
  obtain ⟨hlive, harrives, -⟩ := hjustified
  have hready : execution.JoinReady key := by
    cases h with
    | task hkind' => rw [hkind] at hkind'; cases hkind'
    | approval hkind' => rw [hkind] at hkind'; cases hkind'
    | structural _ hjoin => exact hjoin hkind
    | terminal hkind' => rw [hkind] at hkind'; cases hkind'
  have hsucceeded : ∀ source, execution.graph.Adjacent source key →
      execution.statusOf source = some .succeeded := fun source hedge =>
    hready source (WorkflowGraph.mem_incomingSources.mpr hedge)
  refine ⟨fun source hedge => ended_of_succeeded hlive.inv (hsucceeded source hedge),
    fun source definition' hedge hdefinition' hkind' =>
      arrives_of_structural hlive.inv (hsucceeded source hedge) hdefinition' hkind' hedge, ?_⟩
  rcases harrives with rfl | ⟨source, harrives⟩
  · exact absurd hkind (hlive.inv.sound.wellFormed.entry_not_join definition hdefinition)
  · have harrives' := harrives
    obtain ⟨node', outcome, -, -, -, htarget⟩ := harrives'
    exact ⟨source, WorkflowGraph.adjacent_of_mem_selectTargets htarget, harrives⟩

theorem Cascade.joinActivation {changedAt : Instant} {execution after : WorkflowExecution}
    {keys : List NodeKey} {calls : List ActivateCall}
    (h : Cascade changedAt execution keys calls after) (hjustified : Justified execution keys) :
    ∀ call ∈ calls, call.resets = true → ∀ definition,
      call.before.graph.node call.node = some definition → definition.kind = .join →
      JoinActivation call.before call.node := by
  refine h.forall_calls ?_ ?_ hjustified
  · intro e key keys node definition pushed resets after hI _ hdefinition hvisit hresets definition'
      hdefinition' hkind
    simp only at hresets hdefinition'
    subst hresets
    obtain rfl := Option.some_injective _ (hdefinition.symm.trans hdefinition')
    exact hvisit.joinActivation hdefinition hkind hI
  · intro e key keys node definition pushed resets after hI hnode hdefinition hvisit hterminal
    obtain ⟨hlive, -, hforked⟩ := hI
    refine Justified.of_forked (hvisit.live hlive hnode hdefinition hterminal) fun target hmem => ?_
    rcases List.mem_append.mp hmem with hmem | hmem
    · exact hvisit.forked_pushed hnode hdefinition hmem
    · exact hvisit.forked hlive hnode hdefinition hterminal (hforked target hmem)

/-- Every activation of a join in every run finds all direct predecessors ended, and the structural
ones and at least one of all of them routed to the join. -/
theorem join_activation {d : AcceptedDefinition} {start : WorkflowExecution}
    (hstart : d.Creates start) (operations : List Operation) :
    ∀ t ∈ engine.trace start operations, ∀ call ∈ t.output.calls, call.resets = true →
      ∀ definition, call.before.graph.node call.node = some definition →
        definition.kind = .join → JoinActivation call.before call.node := by
  intro t ht call hcall
  obtain ⟨hinv, -, hraised | htook⟩ := hstart.trace_cases ht
  · rw [hraised.2.2] at hcall
    cases hcall
  · rcases htook.2.calls_cascade hinv with
      hcalls | ⟨changedAt, middle, keys, -, hlive, horigin, hcascade⟩
    · rw [hcalls] at hcall
      cases hcall
    · exact hcascade.joinActivation (horigin.justified hlive) call hcall

/-! ## 4. A predecessor that took a detour -/

/-- Two branches of a fork meet in a join; a failure of the first goes to a repair step. -/
def repairBranch : WorkflowDefinition where
  key := "repair-branch"
  version := 1
  entryNode := "fan_out"
  nodes := [
    { key := "fan_out", kind := .fork },
    { key := "research", kind := .task },
    { key := "design", kind := .task },
    { key := "repair", kind := .task },
    { key := "fan_in", kind := .join },
    { key := "done", kind := .terminal, terminalStatus := some .succeeded }]
  edges := [
    ⟨"fan_out", .success, "research", none⟩,
    ⟨"fan_out", .success, "design", none⟩,
    ⟨"research", .success, "fan_in", none⟩,
    ⟨"research", .failure, "repair", none⟩,
    ⟨"design", .success, "fan_in", none⟩,
    ⟨"repair", .success, "done", none⟩,
    ⟨"fan_in", .success, "done", none⟩]

def acceptedRepairBranch : AcceptedDefinition := ⟨repairBranch, by decide +kernel⟩

/-- The join is activated although `research` ended with a failure that went to `repair`. -/
def detourRun : List Operation :=
  [.start 0, .beginTask "research" 1, .completeTask "research" .failure none none 2,
    .beginTask "design" 3, .completeTask "design" .success none none 4]

/-- The last operation of the run activates `fan_in`. -/
theorem join_activation_repairBranch :
    ∃ t ∈ engine.trace acceptedRepairBranch.blank detourRun, ∃ call ∈ t.output.calls,
      call.node = "fan_in" ∧ call.resets = true ∧ JoinActivation call.before call.node := by
  have hcall : ∃ t ∈ engine.trace acceptedRepairBranch.blank detourRun, ∃ call ∈ t.output.calls,
      call.node = "fan_in" ∧ call.resets = true ∧
        (call.before.graph.node call.node).map NodeDefinition.kind = some .join := by
    decide +kernel
  obtain ⟨t, ht, call, hcall, hnode, hresets, hkind⟩ := hcall
  obtain ⟨definition, hdefinition, hkind⟩ := Option.map_eq_some_iff.mp hkind
  exact ⟨t, ht, call, hcall, hnode, hresets,
    join_activation acceptedRepairBranch.creates_blank detourRun t ht call hcall hresets definition
      hdefinition hkind⟩

/-- Not every predecessor of an activated join has routed to it. -/
theorem join_counts_detours :
    ¬∀ (d : AcceptedDefinition) (start : WorkflowExecution), d.Creates start →
      ∀ operations, ∀ t ∈ engine.trace start operations, ∀ call ∈ t.output.calls,
        call.resets = true → ∀ definition, call.before.graph.node call.node = some definition →
          definition.kind = .join → ∀ source, call.before.graph.Adjacent source call.node →
            call.before.Arrives source call.node := by
  intro hclaim
  have hdetour : ∃ t ∈ engine.trace acceptedRepairBranch.blank detourRun,
      ∃ call ∈ t.output.calls, call.resets = true ∧
        (call.before.graph.node call.node).map NodeDefinition.kind = some .join ∧
        "research" ∈ call.before.graph.incomingSources call.node ∧
        (call.before.nodes.get? "research").map NodeExecution.outcome = some (some .failure) ∧
        call.node ∉ (call.before.graph.routeEdges "research" .failure).map
          EdgeDefinition.target := by
    decide +kernel
  obtain ⟨t, ht, call, hcall, hresets, hkind, hsource, houtcome, hroute⟩ := hdetour
  obtain ⟨definition, hdefinition, hkind⟩ := Option.map_eq_some_iff.mp hkind
  obtain ⟨node, outcome, hnode, -, houtcome', htarget⟩ :=
    hclaim acceptedRepairBranch _ acceptedRepairBranch.creates_blank detourRun t ht call hcall
      hresets definition hdefinition hkind "research" (WorkflowGraph.mem_incomingSources.mp hsource)
  rw [hnode, Option.map_some, houtcome', Option.some_inj, Option.some_inj] at houtcome
  subst houtcome
  obtain ⟨edge, hedge, htarget⟩ := mem_selectTargets htarget
  exact hroute (htarget ▸ List.mem_map_of_mem hedge)

end JbOrchestrator.Workflows
