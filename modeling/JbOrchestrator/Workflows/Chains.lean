import JbOrchestrator.Workflows.Runs

/-!
# Chains — predicting a cascade from the aggregate before it

`Entered` says what a cascade that leaves the execution running did: which nodes it entered, and that
it changed nothing else.  `Confined` follows the same chain of targets over the statuses and visit
counts before the cascade, without running it.  `confined_iff` says that the two agree: a chain is
confined to some kinds of nodes exactly when the cascade goes on running and enters only those kinds.
-/

open Lib

namespace JbOrchestrator.Workflows

/-- The status that an activation gives a node. -/
def NodeKind.entryStatus : NodeKind → NodeExecutionStatus
  | .task => .ready
  | .approval => .awaitingApproval
  | _ => .succeeded

def WorkflowGraph.kindOf (graph : WorkflowGraph) (key : NodeKey) : Option NodeKind :=
  (graph.node key).map NodeDefinition.kind

theorem WorkflowGraph.kindOf_eq {graph : WorkflowGraph} {key : NodeKey} {node : NodeDefinition}
    (h : graph.node key = some node) : graph.kindOf key = some node.kind := by
  simp [kindOf, h]

namespace WorkflowExecution

def visitsOf (execution : WorkflowExecution) (key : NodeKey) : ℕ :=
  ((execution.nodes.get? key).map NodeExecution.visitCount).getD 0

/-! ## 1. What a cascade did -/

/-- `after` is `before` after activations of the nodes of `entered`. -/
structure Entered (before : WorkflowExecution) (entered : List NodeKey)
    (after : WorkflowExecution) : Prop where
  graph : after.graph = before.graph
  untouched : ∀ key ∉ entered, after.nodes.get? key = before.nodes.get? key
  touched : ∀ key ∈ entered, ∃ kind, before.graph.kindOf key = some kind ∧ kind ≠ .terminal ∧
    after.statusOf key = some kind.entryStatus
  visits : ∀ key, after.visitsOf key = before.visitsOf key + entered.count key
  status : after.status =
    if some .approval ∈ entered.map before.graph.kindOf then .awaitingApproval else before.status

theorem Entered.refl (execution : WorkflowExecution) : Entered execution [] execution :=
  ⟨rfl, fun _ _ => rfl, by simp, by simp, by simp⟩

/-- `source` has ended once the nodes of `entered` have been activated. -/
def EndedAfter (execution : WorkflowExecution) (entered : List NodeKey) (source : NodeKey) : Prop :=
  if source ∈ entered then
    ∃ kind, execution.graph.kindOf source = some kind ∧ kind.entryStatus = .succeeded
  else execution.statusOf source = some .succeeded

theorem Entered.statusOf_succeeded {before after : WorkflowExecution} {entered : List NodeKey}
    (h : Entered before entered after) (source : NodeKey) :
    after.statusOf source = some .succeeded ↔ before.EndedAfter entered source := by
  unfold EndedAfter
  split
  · rename_i hmem
    obtain ⟨kind, hkind, -, hstatus⟩ := h.touched source hmem
    rw [hstatus, hkind]
    simp
  · rename_i hmem
    unfold statusOf
    rw [h.untouched source hmem]

theorem Entered.joinReady_iff {before after : WorkflowExecution} {entered : List NodeKey}
    (h : Entered before entered after) (key : NodeKey) :
    after.JoinReady key ↔
      ∀ source, before.graph.Adjacent source key → before.EndedAfter entered source := by
  unfold JoinReady
  simp only [WorkflowGraph.mem_incomingSources, h.graph, h.statusOf_succeeded]

end WorkflowExecution

open WorkflowExecution

section

variable {changedAt : Instant} {before execution after : WorkflowExecution} {key : NodeKey}
  {node : NodeExecution} {definition : NodeDefinition} {entered pushed keys : List NodeKey}
  {resets : Bool} {calls : List ActivateCall}

/-- A visit that leaves the execution running waits at a join, or enters the node. -/
theorem Visit.cases_running
    (h : Visit changedAt execution key node definition pushed resets after)
    (hsound : execution.Sound) (hdefinition : execution.graph.node key = some definition)
    (hterminal : after.isTerminal = false) :
    (resets = false ∧ pushed = [] ∧ after = execution ∧ definition.kind = .join ∧
      ¬execution.JoinReady key) ∨
    (resets = true ∧
      pushed = (if definition.kind.isStructural then execution.targets key .success none else []) ∧
      definition.kind ≠ .terminal ∧ (definition.kind = .join → execution.JoinReady key) ∧
      node.visitCount < definition.maxVisits ∧ after.snapshot = execution.snapshot ∧
      after.status = (if definition.kind = .approval then .awaitingApproval else execution.status) ∧
      ∃ f : NodeExecution → NodeExecution, after.nodes = execution.nodes.modify key f ∧
        (f node).status = definition.kind.entryStatus ∧
        (f node).visitCount = node.visitCount + 1) := by
  cases h with
  | waits hkind hready => exact Or.inl ⟨rfl, rfl, rfl, hkind, hready⟩
  | exhausted => cases hterminal
  | task hkind hvisits =>
    refine Or.inr ⟨rfl, ?_, ?_, ?_, hvisits, rfl, ?_, fun node => node.becomeReady changedAt, rfl,
      ?_, rfl⟩ <;> simp [hkind, NodeKind.isStructural, NodeKind.entryStatus]
    · rfl
    · rfl
  | approval hkind hvisits =>
    refine Or.inr ⟨rfl, ?_, ?_, ?_, hvisits, rfl, ?_, fun node => node.awaitApproval changedAt, rfl,
      ?_, rfl⟩ <;> simp [hkind, NodeKind.isStructural, NodeKind.entryStatus]
    · rfl
    · rfl
  | structural hkind hjoin hvisits =>
    refine Or.inr ⟨rfl, ?_, ?_, hjoin, hvisits, rfl, ?_, fun node => node.pass changedAt, rfl,
      ?_, rfl⟩
    · simp only [hkind, if_true]
      rfl
    · rintro hterm
      rw [hterm] at hkind
      cases hkind
    · rw [if_neg]
      · rfl
      · intro happroval
        rw [happroval] at hkind
        cases hkind
    · cases hk : definition.kind <;> simp_all [NodeKind.isStructural] <;> rfl
  | terminal hkind =>
    rw [enterTerminal_isTerminal hsound hdefinition hkind] at hterminal
    cases hterminal

theorem Visit.of_waits (h : Visit changedAt execution key node definition pushed resets after)
    (hkind : definition.kind = .join) (hready : ¬execution.JoinReady key) :
    resets = false ∧ pushed = [] ∧ after = execution := by
  cases h with
  | waits => exact ⟨rfl, rfl, rfl⟩
  | exhausted hjoin => exact absurd (hjoin hkind) hready
  | task hkind' => rw [hkind] at hkind'; cases hkind'
  | approval hkind' => rw [hkind] at hkind'; cases hkind'
  | structural _ hjoin => exact absurd (hjoin hkind) hready
  | terminal hkind' => rw [hkind] at hkind'; cases hkind'

theorem Visit.of_enters (h : Visit changedAt execution key node definition pushed resets after)
    (hlive : execution.isTerminal = false) (hkind : definition.kind ≠ .terminal)
    (hready : definition.kind = .join → execution.JoinReady key)
    (hvisits : node.visitCount < definition.maxVisits) :
    resets = true ∧ after.isTerminal = false := by
  cases h with
  | waits hjoin hnot => exact absurd (hready hjoin) hnot
  | exhausted _ hmax => omega
  | task => exact ⟨rfl, hlive⟩
  | approval => exact ⟨rfl, rfl⟩
  | structural => exact ⟨rfl, hlive⟩
  | terminal hkind' => exact absurd hkind' hkind

/-- One more activation. -/
theorem WorkflowExecution.Entered.enter (h : Entered before entered execution)
    (hnode : execution.nodes.get? key = some node)
    (hdefinition : before.graph.node key = some definition) (hterminal : definition.kind ≠ .terminal)
    (hsnapshot : after.snapshot = execution.snapshot)
    (hstatus : after.status =
      if definition.kind = .approval then .awaitingApproval else execution.status)
    {f : NodeExecution → NodeExecution} (hnodes : after.nodes = execution.nodes.modify key f)
    (hentry : (f node).status = definition.kind.entryStatus)
    (hvisits : (f node).visitCount = node.visitCount + 1) :
    Entered before (key :: entered) after := by
  have hself : after.nodes.get? key = some (f node) := by
    rw [hnodes, Dict.get?_modify_self, hnode]
    rfl
  have hother : ∀ key', key' ≠ key → after.nodes.get? key' = execution.nodes.get? key' := by
    intro key' hne
    rw [hnodes, Dict.get?_modify_of_ne _ _ hne]
  have hkind := WorkflowGraph.kindOf_eq hdefinition
  refine ⟨(congrArg WorkflowSnapshot.toWorkflowGraph hsnapshot).trans h.graph, ?_, ?_, ?_, ?_⟩
  · intro key' hmem
    rw [List.mem_cons, not_or] at hmem
    rw [hother key' hmem.1, h.untouched key' hmem.2]
  · intro key' hmem
    by_cases hkey : key' = key
    · subst hkey
      exact ⟨definition.kind, hkind, hterminal, by rw [statusOf_eq hself, hentry]⟩
    · obtain ⟨kind, hkind', hne, hstatus'⟩ :=
        h.touched key' ((List.mem_cons.mp hmem).resolve_left hkey)
      refine ⟨kind, hkind', hne, ?_⟩
      unfold statusOf
      rw [hother key' hkey]
      exact hstatus'
  · intro key'
    by_cases hkey : key' = key
    · subst hkey
      have hbefore := h.visits key'
      simp only [visitsOf, hself, hnode, Option.map_some, Option.getD_some] at hbefore ⊢
      rw [hvisits, List.count_cons_self]
      omega
    · rw [List.count_cons_of_ne (Ne.symm hkey)]
      unfold visitsOf at *
      rw [hother key' hkey]
      exact h.visits key'
  · rw [hstatus, h.status]
    by_cases happroval : definition.kind = .approval
    · simp [hkind, happroval]
    · simp only [happroval, if_false, List.map_cons, List.mem_cons, hkind, Option.some_inj,
        Ne.symm happroval, false_or]

theorem WorkflowExecution.Entered.visit (h : Entered before entered execution) (hsound : execution.Sound)
    (hvisit : Visit changedAt execution key node definition pushed resets after)
    (hnode : execution.nodes.get? key = some node)
    (hdefinition : execution.graph.node key = some definition)
    (hterminal : after.isTerminal = false) :
    Entered before (if resets then key :: entered else entered) after := by
  rcases hvisit.cases_running hsound hdefinition hterminal with
    ⟨rfl, -, rfl, -, -⟩ | ⟨rfl, -, hkind, -, -, hsnapshot, hstatus, f, hnodes, hentry, hvisits⟩
  · exact h
  · exact h.enter hnode (h.graph ▸ hdefinition) hkind hsnapshot hstatus hnodes hentry hvisits

/-- A cascade that leaves the execution running entered the nodes it reset. -/
theorem Cascade.exists_entered (h : Cascade changedAt execution keys calls after) (hlive : Live execution)
    (hterminal : after.isTerminal = false) (hentered : Entered before entered execution) :
    ∃ entered', Entered before entered' after ∧ ∀ key, key ∈ entered' ↔
      key ∈ entered ∨ ∃ call ∈ calls, call.resets = true ∧ call.node = key := by
  induction h generalizing entered with
  | nil => exact ⟨entered, hentered, by simp⟩
  | halt _ _ _ hhalt => rw [hhalt] at hterminal; cases hterminal
  | @next _ _ _ key _ _ resets _ _ _ hnode hdefinition hvisit hmiddle _ ih =>
    obtain ⟨entered', hafter, hmem⟩ := ih (hvisit.live hlive hnode hdefinition hmiddle) hterminal
      (hentered.visit hlive.inv.sound hvisit hnode hdefinition hmiddle)
    refine ⟨entered', hafter, fun key' => ?_⟩
    rw [hmem key']
    cases resets
    · simp
    · simp only [if_true, List.mem_cons, exists_eq_or_imp, true_and, eq_comm (b := key)]
      tauto

/-! ## 2. Following the chain beforehand -/

/-- Following `keys` on `execution`, with `entered` activated so far, enters only nodes of the allowed
kinds and meets neither a terminal node nor a visit limit. -/
inductive Confined (execution : WorkflowExecution) (allowed : NodeKind → Prop) :
    List NodeKey → List NodeKey → Prop where
  | done (entered : List NodeKey) : Confined execution allowed entered []
  | waits {entered keys : List NodeKey} {key source : NodeKey}
    (hkind : execution.graph.kindOf key = some .join)
    (hsource : execution.graph.Adjacent source key)
    (hwaits : ¬execution.EndedAfter entered source)
    (hrest : Confined execution allowed entered keys) :
    Confined execution allowed entered (key :: keys)
  | enters {entered keys : List NodeKey} {key : NodeKey} {definition : NodeDefinition}
    (hdefinition : execution.graph.node key = some definition) (hallowed : allowed definition.kind)
    (hkind : definition.kind ≠ .terminal)
    (hjoin : definition.kind = .join → ∀ source, execution.graph.Adjacent source key →
      execution.EndedAfter entered source)
    (hvisits : execution.visitsOf key + entered.count key < definition.maxVisits)
    (hrest : Confined execution allowed (key :: entered)
      ((if definition.kind.isStructural then execution.targets key .success none else []) ++
        keys)) :
    Confined execution allowed entered (key :: keys)

/-- A cascade that goes on running and resets only allowed nodes is confined beforehand. -/
theorem Cascade.confined {allowed : NodeKind → Prop}
    (h : Cascade changedAt execution keys calls after) (hlive : Live execution)
    (hterminal : after.isTerminal = false) (hentered : Entered before entered execution)
    (hallowed : ∀ call ∈ calls, call.resets = true →
      ∀ kind, before.graph.kindOf call.node = some kind → allowed kind) :
    Confined before allowed entered keys := by
  induction h generalizing entered with
  | nil => exact Confined.done entered
  | halt _ _ _ hhalt => rw [hhalt] at hterminal; cases hterminal
  | @next e middle _ key keys _ resets _ node definition hnode hdefinition hvisit hmiddle _ ih =>
    have hrest := ih (hvisit.live hlive hnode hdefinition hmiddle) hterminal
      (hentered.visit hlive.inv.sound hvisit hnode hdefinition hmiddle)
      (fun call hcall => hallowed call (List.mem_cons_of_mem _ hcall))
    have hdefinition' : before.graph.node key = some definition := hentered.graph ▸ hdefinition
    have hkind' := WorkflowGraph.kindOf_eq hdefinition'
    rcases hvisit.cases_running hlive.inv.sound hdefinition hmiddle with
      ⟨rfl, rfl, rfl, hkind, hready⟩ | ⟨rfl, rfl, hkind, hjoin, hvisits, -⟩
    · rw [hentered.joinReady_iff] at hready
      push Not at hready
      obtain ⟨source, hsource, hwaits⟩ := hready
      exact Confined.waits (hkind ▸ hkind') hsource hwaits hrest
    · refine Confined.enters hdefinition' (hallowed _ List.mem_cons_self rfl _ hkind') hkind ?_ ?_ ?_
      · intro hk
        exact (hentered.joinReady_iff key).mp (hjoin hk)
      · have hcount := hentered.visits key
        simp only [visitsOf, hnode, Option.map_some, Option.getD_some] at hcount ⊢
        omega
      · unfold WorkflowExecution.targets at hrest ⊢
        rw [← hentered.graph]
        exact hrest

/-- On a confined chain every cascade goes on running and resets only allowed nodes. -/
theorem Confined.cascade {allowed : NodeKind → Prop} (h : Confined before allowed entered keys)
    (hentered : Entered before entered execution) (hlive : Live execution)
    (hcascade : Cascade changedAt execution keys calls after) :
    after.isTerminal = false ∧ ∀ call ∈ calls, call.resets = true →
      ∀ kind, before.graph.kindOf call.node = some kind → allowed kind := by
  induction h generalizing execution calls with
  | done =>
    cases hcascade
    exact ⟨hlive.notTerminal, by simp⟩
  | @waits entered keys key source hkind hsource hwaits _ ih =>
    have hready : ¬execution.JoinReady key := by
      rw [hentered.joinReady_iff]
      exact fun hall => hwaits (hall source hsource)
    have hjoin : ∀ definition, execution.graph.node key = some definition →
        definition.kind = .join := by
      intro definition hdefinition
      rw [hentered.graph] at hdefinition
      rw [WorkflowGraph.kindOf_eq hdefinition, Option.some_inj] at hkind
      exact hkind
    cases hcascade with
    | halt _ hdefinition hvisit hhalt =>
      obtain ⟨-, -, rfl⟩ := hvisit.of_waits (hjoin _ hdefinition) hready
      rw [hlive.notTerminal] at hhalt
      cases hhalt
    | next _ hdefinition hvisit _ hrest =>
      obtain ⟨rfl, rfl, rfl⟩ := hvisit.of_waits (hjoin _ hdefinition) hready
      obtain ⟨hterminal, hcalls⟩ := ih hentered hlive hrest
      refine ⟨hterminal, ?_⟩
      rw [List.forall_mem_cons]
      exact ⟨by simp, hcalls⟩
  | @enters entered keys key definition hdefinition hallowed hkind hjoin hvisits _ ih =>
    have hkindOf := WorkflowGraph.kindOf_eq hdefinition
    have henters : ∀ node definition' pushed resets after',
        execution.nodes.get? key = some node → execution.graph.node key = some definition' →
        Visit changedAt execution key node definition' pushed resets after' →
        definition' = definition ∧ resets = true ∧ after'.isTerminal = false := by
      intro node definition' pushed resets after' hnode hdefinition' hvisit
      rw [hentered.graph, hdefinition] at hdefinition'
      obtain rfl := Option.some_injective _ hdefinition'
      have hready : definition.kind = .join → execution.JoinReady key := fun hk =>
        (hentered.joinReady_iff key).mpr (hjoin hk)
      have hleft : node.visitCount < definition.maxVisits := by
        have hcount := hentered.visits key
        simp only [visitsOf, hnode, Option.map_some, Option.getD_some] at hcount hvisits
        omega
      exact ⟨rfl, hvisit.of_enters hlive.notTerminal hkind hready hleft⟩
    cases hcascade with
    | halt hnode hdefinition' hvisit hhalt =>
      rw [(henters _ _ _ _ _ hnode hdefinition' hvisit).2.2] at hhalt
      cases hhalt
    | next hnode hdefinition' hvisit hmiddle hrest =>
      obtain ⟨rfl, rfl, -⟩ := henters _ _ _ _ _ hnode hdefinition' hvisit
      have hentered' := hentered.visit hlive.inv.sound hvisit hnode hdefinition' hmiddle
      rcases hvisit.cases_running hlive.inv.sound hdefinition' hmiddle with
        ⟨hfalse, -⟩ | ⟨-, rfl, -⟩
      · cases hfalse
      · have hpushed : execution.targets key .success none = before.targets key .success none := by
          unfold WorkflowExecution.targets
          rw [hentered.graph]
        rw [hpushed] at hrest
        obtain ⟨hterminal, hcalls⟩ :=
          ih hentered' (hvisit.live hlive hnode hdefinition' hmiddle) hrest
        refine ⟨hterminal, ?_⟩
        rw [List.forall_mem_cons]
        refine ⟨fun _ kind hk => ?_, hcalls⟩
        rw [hkindOf, Option.some_inj] at hk
        exact hk ▸ hallowed

/-- The chain beforehand is confined to the allowed kinds exactly when the cascade leaves the
execution running and entered only such nodes. -/
theorem confined_iff {allowed : NodeKind → Prop} (hlive : Live execution)
    (h : Cascade changedAt execution keys calls after) :
    Confined execution allowed [] keys ↔
      after.isTerminal = false ∧ ∃ entered, Entered execution entered after ∧
        ∀ key ∈ entered, ∀ kind, execution.graph.kindOf key = some kind → allowed kind := by
  constructor
  · intro hconfined
    obtain ⟨hterminal, hcalls⟩ := hconfined.cascade (Entered.refl execution) hlive h
    obtain ⟨entered, hentered, hmem⟩ :=
      h.exists_entered hlive hterminal (Entered.refl execution)
    refine ⟨hterminal, entered, hentered, fun key hkey => ?_⟩
    rcases (hmem key).mp hkey with hnil | ⟨call, hcall, hresets, rfl⟩
    · cases hnil
    · exact hcalls call hcall hresets
  · rintro ⟨hterminal, entered, hentered, hallowed⟩
    obtain ⟨entered', hentered', hmem⟩ :=
      h.exists_entered hlive hterminal (Entered.refl execution)
    refine h.confined hlive hterminal (Entered.refl execution) fun call hcall hresets => ?_
    refine hallowed call.node ?_
    -- both lists count the visits that the cascade added
    have hin : call.node ∈ entered' := (hmem _).mpr (Or.inr ⟨call, hcall, hresets, rfl⟩)
    have hcount := hentered.visits call.node
    have hcount' := hentered'.visits call.node
    have hpos := List.count_pos_iff.mpr hin
    exact List.count_pos_iff.mp (by omega)

end

end JbOrchestrator.Workflows
