import JbOrchestrator.Workflows.Chains

/-!
# Visits — whether a visit is overwritten

`_activate` resets whatever node it is given.  A call for a node that is still active therefore
overwrites the current visit unless the node has no visits left.  In a run without such calls a
leased visit ends only through its token, through its expiry or with the execution.
-/

open Lib

namespace JbOrchestrator.Workflows

open WorkflowExecution

def WorkflowExecution.ActiveAt (execution : WorkflowExecution) (key : NodeKey) : Prop :=
  ∃ node, execution.nodes.get? key = some node ∧ node.status.isActive = true

/-- The node has used up its visits. -/
def WorkflowExecution.Exhausted (execution : WorkflowExecution) (key : NodeKey) : Prop :=
  ∃ node definition, execution.nodes.get? key = some node ∧
    execution.graph.node key = some definition ∧ definition.maxVisits ≤ node.visitCount

/-- The call starts a new visit although the last one has not ended. -/
def ActivateCall.Overwrites (call : ActivateCall) : Prop :=
  call.resets = true ∧ call.before.ActiveAt call.node

/-- The call is for a node that is still active and may be visited again. -/
def ActivateCall.Reenters (call : ActivateCall) : Prop :=
  call.before.ActiveAt call.node ∧ ¬call.before.Exhausted call.node

/-! ## 1. One call -/

section

variable {changedAt : Instant} {execution after : WorkflowExecution} {key : NodeKey}
  {node : NodeExecution} {definition : NodeDefinition} {pushed keys : List NodeKey}
  {resets : Bool} {calls : List ActivateCall}

theorem WorkflowExecution.exhausted_iff (hnode : execution.nodes.get? key = some node)
    (hdefinition : execution.graph.node key = some definition) :
    execution.Exhausted key ↔ definition.maxVisits ≤ node.visitCount := by
  constructor
  · rintro ⟨node', definition', hnode', hdefinition', hvisits⟩
    obtain rfl := Option.some_injective _ (hnode.symm.trans hnode')
    obtain rfl := Option.some_injective _ (hdefinition.symm.trans hdefinition')
    exact hvisits
  · exact fun hvisits => ⟨node, definition, hnode, hdefinition, hvisits⟩

theorem Visit.overwrites_iff
    (h : Visit changedAt execution key node definition pushed resets after) (hinv : execution.Inv)
    (hnode : execution.nodes.get? key = some node)
    (hdefinition : execution.graph.node key = some definition) :
    ActivateCall.Overwrites ⟨key, execution, resets⟩ ↔
      ActivateCall.Reenters ⟨key, execution, resets⟩ := by
  unfold ActivateCall.Overwrites ActivateCall.Reenters
  rw [exhausted_iff hnode hdefinition]
  cases h with
  | waits hkind =>
    have hinactive : ¬execution.ActiveAt key := by
      rintro ⟨node', hnode', hactive⟩
      obtain rfl := Option.some_injective _ (hnode.symm.trans hnode')
      rcases (hinv.nodes key node definition hnode hdefinition).kind_of_active hactive with h | h <;>
        rw [hkind] at h <;> cases h
    exact iff_of_false (by simp) (fun hreenters => hinactive hreenters.1)
  | exhausted _ hvisits => exact iff_of_false (by simp) (fun hreenters => hreenters.2 hvisits)
  | task _ hvisits => simp [hvisits]
  | approval _ hvisits => simp [hvisits]
  | structural _ _ hvisits => simp [hvisits]
  | terminal _ hvisits => simp [hvisits]

theorem Cascade.overwrites_iff (h : Cascade changedAt execution keys calls after)
    (hlive : Live execution) : ∀ call ∈ calls, call.Overwrites ↔ call.Reenters := by
  refine h.forall_calls (I := fun e _ => Live e) ?_ ?_ hlive
  · intro e key keys node definition pushed resets after hlive hnode hdefinition hvisit
    exact hvisit.overwrites_iff hlive.inv hnode hdefinition
  · intro e key keys node definition pushed resets after hlive hnode hdefinition hvisit hterminal
    exact hvisit.live hlive hnode hdefinition hterminal

/-- Without overwriting calls a running cascade leaves every active node as it is. -/
theorem Cascade.keeps_active (h : Cascade changedAt execution keys calls after)
    (hlive : Live execution) (hcalls : ∀ call ∈ calls, ¬call.Overwrites)
    (hterminal : after.isTerminal = false) (hnode : execution.nodes.get? key = some node)
    (hactive : node.status.isActive = true) : after.nodes.get? key = some node := by
  induction h with
  | nil => exact hnode
  | halt _ _ _ hhalt => rw [hhalt] at hterminal; cases hterminal
  | @next e middle _ key' _ _ resets _ _ _ hnode' hdefinition hvisit hmiddle _ ih =>
    rw [List.forall_mem_cons] at hcalls
    refine ih (hvisit.live hlive hnode' hdefinition hmiddle) hcalls.2 hterminal ?_
    by_cases hkey : key = key'
    · subst hkey
      rcases hvisit.cases_running hlive.inv.sound hdefinition hmiddle with
        ⟨-, -, rfl, -⟩ | ⟨rfl, -⟩
      · exact hnode
      · exact absurd ⟨rfl, node, hnode, hactive⟩ hcalls.1
    · rw [hvisit.get?_of_ne hlive.inv.sound hdefinition hmiddle hkey]
      exact hnode

end

/-! ## 2. The end of a leased visit -/

/-- The operation ends the lease of `key` by its rules: with the token before the lease expires, or by
the expiry itself. -/
def Operation.EndsLease (key : NodeKey) (leaseToken : UUID) (expiresAt : Instant) :
    Operation → Prop
  | .completeTask key' _ _ leaseToken' changedAt =>
    key' = key ∧ leaseToken' = some leaseToken ∧ changedAt < expiresAt
  | .failTask key' _ leaseToken' changedAt =>
    key' = key ∧ leaseToken' = some leaseToken ∧ changedAt < expiresAt
  | .expireTask key' changedAt => key' = key ∧ expiresAt ≤ changedAt
  | _ => False

/-- `node'` is the same leased visit as `node`, with its lease as it was or renewed in time. -/
structure SameVisit (operation : Operation) (key : NodeKey) (leaseToken : UUID)
    (expiresAt : Instant) (node node' : NodeExecution) : Prop where
  running : node'.status = .running
  token : node'.leaseToken = some leaseToken
  visits : node'.visitCount = node.visitCount
  attempts : node'.attemptCount = node.attemptCount
  lease : node'.leaseExpiresAt = some expiresAt ∨
    ∃ leaseSeconds changedAt, operation = .renewLease key leaseToken leaseSeconds changedAt ∧
      changedAt < expiresAt ∧
      node'.leaseExpiresAt = some (changedAt + WorkflowEngine.seconds leaseSeconds)

/-- A leased visit goes on, or ends by the rules of the lease, or ends with the execution. -/
def EngineStep.KeepsLeases (t : EngineStep) : Prop :=
  ∀ key node leaseToken expiresAt, t.before.nodes.get? key = some node → node.status = .running →
    node.leaseToken = some leaseToken → node.leaseExpiresAt = some expiresAt →
    (∃ node', t.after.nodes.get? key = some node' ∧
      SameVisit t.input key leaseToken expiresAt node node') ∨
    t.input.EndsLease key leaseToken expiresAt ∨ t.after.isTerminal = true

theorem NodeExecution.Accepts.leased {node : NodeExecution} {presented : Option UUID}
    {changedAt : Instant} (h : node.Accepts presented changedAt) {leaseToken : UUID}
    (htoken : node.leaseToken = some leaseToken) :
    presented = some leaseToken ∧
      ∃ expiresAt, node.leaseExpiresAt = some expiresAt ∧ changedAt < expiresAt := by
  unfold Accepts at h
  rw [htoken] at h
  exact h

theorem NodeExecution.Accepts.token {node : NodeExecution} {leaseToken : UUID}
    {changedAt : Instant} (h : node.Accepts (some leaseToken) changedAt) :
    node.leaseToken = some leaseToken := by
  unfold Accepts at h
  cases htoken : node.leaseToken with
  | none => rw [htoken] at h; cases h
  | some token => rw [htoken] at h; rw [h.1]

theorem Effect.keepsLeases {t : EngineStep}
    (h : Effect t.before t.input t.output.calls t.after) (hinv : t.before.Inv)
    (hcalls : ∀ call ∈ t.output.calls, ¬call.Overwrites) : t.KeepsLeases := by
  obtain ⟨execution, operation, ⟨result, calls⟩, after⟩ := t
  intro key node leaseToken expiresAt hnode hrunning htoken hexpires
  simp only at h hinv hcalls hnode ⊢
  have hactive : node.status.isActive = true := by rw [hrunning]; rfl
  have hsame : SameVisit operation key leaseToken expiresAt node node :=
    ⟨hrunning, htoken, rfl, rfl, Or.inl hexpires⟩
  have hhandled : ∀ {changedAt key' node' definition}, key ≠ key' →
      Handled changedAt execution key' node' definition after →
      (∃ node', after.nodes.get? key = some node' ∧
        SameVisit operation key leaseToken expiresAt node node') ∨
      operation.EndsLease key leaseToken expiresAt ∨ after.isTerminal = true := by
    intro changedAt key' node' definition hne hhandled
    cases hhandled with
    | retried => exact Or.inl ⟨node, (Dict.get?_modify_of_ne _ _ hne).trans hnode, hsame⟩
    | givenUp => exact Or.inr (Or.inr rfl)
  have hlocal : ∀ {key' node'}, execution.nodes.get? key' = some node' → node'.status ≠ .running →
      key ≠ key' := by
    rintro key' node' hnode' hne rfl
    obtain rfl := Option.some_injective _ (hnode.symm.trans hnode')
    exact hne hrunning
  -- what a cascade does to the node once the operation has updated its own node
  have hcascade : ∀ {changedAt middle keys}, Live middle → middle.nodes.get? key = some node →
      Cascade changedAt middle keys calls after →
      (∃ node', after.nodes.get? key = some node' ∧
        SameVisit operation key leaseToken expiresAt node node') ∨
      operation.EndsLease key leaseToken expiresAt ∨ after.isTerminal = true := by
    intro changedAt middle keys hlive hmiddle hcascade
    cases hterminal : after.isTerminal with
    | true => exact Or.inr (Or.inr rfl)
    | false =>
      exact Or.inl ⟨node, hcascade.keeps_active hlive hcalls hterminal hmiddle hactive, hsame⟩
  cases hrouting : operation.routing execution with
  | some pair =>
    obtain ⟨middle, keys⟩ := pair
    obtain ⟨hlive, -, hcases⟩ := h.routing_spec hinv hrouting
    rcases hcases with ⟨-, hterminal⟩ | ⟨-, changedAt, hcascade'⟩
    · exact Or.inr (Or.inr hterminal)
    · cases h with
      | start hstatus =>
        rw [hinv.pending hstatus key node hnode] at hrunning
        cases hrunning
      | @completeTask key' _ _ _ _ _ _ _ hnode' hrunning' _ haccepts =>
        obtain ⟨rfl, rfl⟩ := Prod.mk.inj (Option.some_injective _ hrouting)
        by_cases hkey : key = key'
        · subst hkey
          obtain rfl := Option.some_injective _ (hnode.symm.trans hnode')
          obtain ⟨hpresented, expiresAt', hexpires', hlt⟩ := haccepts.leased htoken
          obtain rfl := Option.some_injective _ (hexpires.symm.trans hexpires')
          exact Or.inr (Or.inl ⟨rfl, hpresented, hlt⟩)
        · exact hcascade hlive ((Dict.get?_modify_of_ne _ _ hkey).trans hnode) hcascade'
      | @resolveApproval key' _ _ _ _ _ hnode' hawaiting =>
        obtain ⟨rfl, rfl⟩ := Prod.mk.inj (Option.some_injective _ hrouting)
        have hkey := hlocal hnode' (by rw [hawaiting]; simp)
        exact hcascade hlive ((Dict.get?_modify_of_ne _ _ hkey).trans hnode) hcascade'
      | _ => cases hrouting
  | none =>
    cases h with
    | @beginTask key' _ _ _ hnode' _ _ hready =>
      have hkey := hlocal hnode' (by rw [hready]; simp)
      exact Or.inl ⟨node, (Dict.get?_modify_of_ne _ _ hkey).trans hnode, hsame⟩
    | @claimTask key' _ _ _ _ _ _ hnode' _ _ hready =>
      have hkey := hlocal hnode' (by rw [hready]; simp)
      refine Or.inl ⟨node, ?_, hsame⟩
      rw [execution.claimed_nodes, Dict.get?_modify_of_ne _ _ hkey, hnode]
    | @renewLease key' leaseToken' leaseSeconds changedAt _ hnode' hrunning' haccepts =>
      by_cases hkey : key = key'
      · subst hkey
        obtain rfl := Option.some_injective _ (hnode.symm.trans hnode')
        obtain ⟨hpresented, expiresAt', hexpires', hlt⟩ := haccepts.leased htoken
        obtain rfl := Option.some_injective _ (hexpires.symm.trans hexpires')
        obtain rfl := Option.some_injective _ hpresented
        refine Or.inl ⟨node.renew (changedAt + WorkflowEngine.seconds leaseSeconds) changedAt, ?_,
          hrunning, htoken, rfl, rfl, Or.inr ⟨leaseSeconds, changedAt, rfl, hlt, rfl⟩⟩
        change (execution.nodes.modify key _).get? key = _
        rw [Dict.get?_modify_self, hnode]
        rfl
      · exact Or.inl ⟨node, (Dict.get?_modify_of_ne _ _ hkey).trans hnode, hsame⟩
    | @failTask key' _ _ _ _ _ _ hnode' _ hrunning' haccepts hhandled' =>
      by_cases hkey : key = key'
      · subst hkey
        obtain rfl := Option.some_injective _ (hnode.symm.trans hnode')
        obtain ⟨hpresented, expiresAt', hexpires', hlt⟩ := haccepts.leased htoken
        obtain rfl := Option.some_injective _ (hexpires.symm.trans hexpires')
        exact Or.inr (Or.inl ⟨rfl, hpresented, hlt⟩)
      · exact hhandled hkey hhandled'
    | @expireTask key' changedAt expiresAt' _ _ _ hnode' _ hrunning' hexpires' hexpired hhandled' =>
      by_cases hkey : key = key'
      · subst hkey
        obtain rfl := Option.some_injective _ (hnode.symm.trans hnode')
        obtain rfl := Option.some_injective _ (hexpires.symm.trans hexpires')
        exact Or.inr (Or.inl ⟨rfl, hexpired⟩)
      · exact hhandled hkey hhandled'
    | cancel => exact Or.inr (Or.inr rfl)
    | _ => cases hrouting

/-! ## 3. Runs -/

/-- Both branches of a fork lead to the same task, which may be visited twice. -/
def sharedTarget : WorkflowDefinition where
  key := "shared-target"
  version := 1
  entryNode := "fan_out"
  nodes := [
    { key := "fan_out", kind := .fork },
    { key := "left", kind := .task },
    { key := "right", kind := .task },
    { key := "publish", kind := .task, maxVisits := 2 },
    { key := "done", kind := .terminal, terminalStatus := some .succeeded }]
  edges := [
    ⟨"fan_out", .success, "left", none⟩,
    ⟨"fan_out", .success, "right", none⟩,
    ⟨"left", .success, "publish", none⟩,
    ⟨"right", .success, "publish", none⟩,
    ⟨"publish", .success, "done", none⟩]

def acceptedSharedTarget : AcceptedDefinition := ⟨sharedTarget, by decide +kernel⟩

/-- A worker holds the lease of `publish` when the second branch completes. -/
def lateBranch : List Operation :=
  [.start 0, .beginTask "left" 1, .completeTask "left" .success none none 2,
    .claimTask "publish" "worker" 600 7 3, .beginTask "right" 4,
    .completeTask "right" .success none none 5]

theorem overwrites_lateBranch :
    ∃ t ∈ engine.trace acceptedSharedTarget.blank lateBranch, ∃ call ∈ t.output.calls,
      call.Overwrites := by
  have hcall : ∃ t ∈ engine.trace acceptedSharedTarget.blank lateBranch, ∃ call ∈ t.output.calls,
      call.resets = true ∧ call.before.statusOf call.node = some .running := by
    decide +kernel
  obtain ⟨t, ht, call, hcall, hresets, hrunning⟩ := hcall
  obtain ⟨node, hnode, hstatus⟩ := Option.map_eq_some_iff.mp hrunning
  exact ⟨t, ht, call, hcall, hresets, node, hnode, by rw [hstatus]; rfl⟩

end JbOrchestrator.Workflows
