import JbOrchestrator.Workflows.Visits

/-!
# Leases — fencing by token

A renewal, a completion or a failure that presents a token succeeds only while the node holds it.  A
token enters a node only through the claim that drew it and no other operation brings it back, so with
distinct tokens a token that is no longer held stays without effect.
-/

open Lib

namespace JbOrchestrator.Workflows

open WorkflowExecution

/-! ## 1. Presenting a token -/

/-- The node and the token that an operation presents, with its instant. -/
def Operation.presents : Operation → Option (NodeKey × UUID × Instant)
  | .renewLease key leaseToken _ changedAt => some (key, leaseToken, changedAt)
  | .completeTask key _ _ leaseToken changedAt =>
    leaseToken.map fun token => (key, token, changedAt)
  | .failTask key _ leaseToken changedAt => leaseToken.map fun token => (key, token, changedAt)
  | _ => none

/-- The token that a claim draws. -/
def Operation.claimToken : Operation → Option UUID
  | .claimTask _ _ _ leaseToken _ => some leaseToken
  | _ => none

/-- The node is running under the token until `expiresAt`. -/
def WorkflowExecution.LeasedTo (execution : WorkflowExecution) (key : NodeKey) (leaseToken : UUID)
    (expiresAt : Instant) : Prop :=
  ∃ node, execution.nodes.get? key = some node ∧ node.status = .running ∧
    node.leaseToken = some leaseToken ∧ node.leaseExpiresAt = some expiresAt

/-- The node holds the token. -/
def WorkflowExecution.Holds (execution : WorkflowExecution) (key : NodeKey) (leaseToken : UUID) :
    Prop :=
  ∃ node, execution.nodes.get? key = some node ∧ node.leaseToken = some leaseToken

theorem Effect.presents {execution after : WorkflowExecution} {operation : Operation}
    {calls : List ActivateCall} (h : Effect execution operation calls after) {key : NodeKey}
    {leaseToken : UUID} {changedAt : Instant}
    (hpresents : operation.presents = some (key, leaseToken, changedAt)) :
    ∃ expiresAt, execution.LeasedTo key leaseToken expiresAt ∧ changedAt < expiresAt := by
  have haccepted : ∀ {node : NodeExecution} {key' presented at'},
      execution.nodes.get? key' = some node → node.status = .running →
      node.Accepts presented at' → (presented.map fun token => (key', token, at')) =
        some (key, leaseToken, changedAt) →
      ∃ expiresAt, execution.LeasedTo key leaseToken expiresAt ∧ changedAt < expiresAt := by
    intro node key' presented at' hnode hrunning haccepts hmap
    obtain ⟨token, rfl, heq⟩ := Option.map_eq_some_iff.mp hmap
    obtain ⟨rfl, rfl, rfl⟩ : key' = key ∧ token = leaseToken ∧ at' = changedAt := by
      simpa using heq
    obtain ⟨-, expiresAt, hexpires, hlt⟩ := haccepts.leased haccepts.token
    exact ⟨expiresAt, ⟨node, hnode, hrunning, haccepts.token, hexpires⟩, hlt⟩
  cases h with
  | renewLease hnode hrunning haccepts => exact haccepted hnode hrunning haccepts hpresents
  | completeTask hnode hrunning _ haccepts => exact haccepted hnode hrunning haccepts hpresents
  | failTask hnode _ hrunning haccepts => exact haccepted hnode hrunning haccepts hpresents
  | _ => cases hpresents

/-! ## 2. Owned or expirable -/

section

variable {execution : WorkflowExecution} {key : NodeKey} {leaseToken : UUID} {expiresAt : Instant}

theorem succeeded_iff (operation : Operation) :
    (engine.step execution operation).1.succeeded = true ↔
      ∃ calls after, operation.call { execution := execution } = .ok () ⟨after, calls⟩ := by
  unfold engine Operation.step Reply.succeeded
  simp only
  cases hrun : operation.call { execution := execution } with
  | ok u state => exact iff_of_true rfl ⟨state.calls, state.execution, rfl⟩
  | error => exact iff_of_false (by simp) (by simp)

theorem validateOptionalLease_apply {node : NodeExecution} {changedAt : Instant}
    (htoken : node.leaseToken = some leaseToken) (hexpires : node.leaseExpiresAt = some expiresAt)
    (hlt : changedAt < expiresAt) (state : EngineState) :
    WorkflowEngine.validateOptionalLease node (some leaseToken) changedAt state = .ok () state := by
  simp [WorkflowEngine.validateOptionalLease, WorkflowEngine.raiseIf, htoken, hexpires,
    not_le.mpr hlt]

variable (hinv : execution.Inv) (hleased : execution.LeasedTo key leaseToken expiresAt)
include hinv hleased

/-- A leased node can be expired exactly from the instant its lease is over. -/
theorem expireTask_succeeded_iff (changedAt : Instant) :
    (engine.step execution (.expireTask key changedAt)).1.succeeded = true ↔
      expiresAt ≤ changedAt := by
  obtain ⟨node, hnode, hrunning, -, hexpires⟩ := hleased
  obtain ⟨definition, hdefinition, -⟩ := hinv.node hnode
  rw [succeeded_iff]
  constructor
  · rintro ⟨calls, after, hrun⟩
    by_contra hle
    simp [Operation.call, WorkflowEngine.expireTask,
      WorkflowEngine.nodeExecution_apply { execution := execution } hnode, hexpires, hrunning,
      WorkflowEngine.raiseIf, not_le.mp hle] at hrun
  · intro hle
    obtain ⟨after, hrun, -⟩ := WorkflowEngine.handleTaskFailure_spec hinv.sound hnode hdefinition
      "task lease expired" changedAt
    refine ⟨[], after, ?_⟩
    simp [Operation.call, WorkflowEngine.expireTask,
      WorkflowEngine.nodeExecution_apply { execution := execution } hnode, hexpires, hrunning,
      WorkflowEngine.raiseIf, not_lt.mpr hle, hrun]

/-- A token that succeeds with its node is in time. -/
theorem lt_of_presents {operation : Operation} {changedAt : Instant}
    (hpresents : operation.presents = some (key, leaseToken, changedAt))
    (hsucceeded : (engine.step execution operation).1.succeeded = true) :
    changedAt < expiresAt := by
  rcases fire_cases hinv operation with ⟨hfailed, -⟩ | ⟨-, heffect⟩
  · rw [show (engine.fire execution operation).output.succeeded = true from hsucceeded] at hfailed
    cases hfailed
  · obtain ⟨expiresAt', ⟨node', hnode', -, -, hexpires'⟩, hlt⟩ := heffect.presents hpresents
    obtain ⟨node, hnode, -, -, hexpires⟩ := hleased
    obtain rfl := Option.some_injective _ (hnode.symm.trans hnode')
    obtain rfl := Option.some_injective _ (hexpires.symm.trans hexpires')
    exact hlt

/-- The owner can renew exactly before that instant. -/
theorem renewLease_succeeded_iff {leaseSeconds : ℕ} (hseconds : 1 ≤ leaseSeconds)
    (changedAt : Instant) :
    (engine.step execution (.renewLease key leaseToken leaseSeconds changedAt)).1.succeeded = true ↔
      changedAt < expiresAt := by
  refine ⟨lt_of_presents hinv hleased rfl, fun hlt => ?_⟩
  obtain ⟨node, hnode, hrunning, htoken, hexpires⟩ := hleased
  rw [succeeded_iff]
  refine ⟨[], execution.renewed key (changedAt + WorkflowEngine.seconds leaseSeconds) changedAt,
    ?_⟩
  have hpositive : ¬leaseSeconds < 1 := not_lt.mpr hseconds
  simp only [Operation.call, WorkflowEngine.renewLease, WorkflowEngine.ownedRunningNode,
    WorkflowEngine.raiseIf, WorkflowEngine.bind_apply, hpositive, if_false,
    WorkflowEngine.pure_apply,
    WorkflowEngine.nodeExecution_apply { execution := execution } hnode, hrunning, ne_eq,
    not_true_eq_false, validateOptionalLease_apply htoken hexpires hlt,
    WorkflowEngine.modifyNode_apply, WorkflowEngine.touch_apply]
  rfl

theorem completeTask_succeeded_iff {outcome : NodeOutcome}
    (houtcome : outcome = .success ∨ outcome = .failure) (output : Option JsonObject)
    (changedAt : Instant) :
    (engine.step execution
      (.completeTask key outcome output (some leaseToken) changedAt)).1.succeeded = true ↔
      changedAt < expiresAt := by
  refine ⟨lt_of_presents hinv hleased rfl, fun hlt => ?_⟩
  obtain ⟨node, hnode, hrunning, htoken, hexpires⟩ := hleased
  rw [succeeded_iff]
  have hlive := (hinv.live_of_active hnode (by rw [hrunning]; rfl)).2
  obtain ⟨calls, after, hrun, -⟩ := WorkflowEngine.route_spec
    ((SameShape.completed execution key changedAt outcome output).sound hinv.sound) hlive key
    outcome output changedAt
  refine ⟨calls, after, ?_⟩
  have hallowed : ¬(outcome ≠ .success ∧ outcome ≠ .failure) := by
    rcases houtcome with rfl | rfl <;> simp
  simp only [Operation.call, WorkflowEngine.completeTask, WorkflowEngine.raiseIf,
    WorkflowEngine.bind_apply, WorkflowEngine.nodeExecution_apply { execution := execution } hnode,
    hrunning, ne_eq, not_true_eq_false, if_false, WorkflowEngine.pure_apply,
    validateOptionalLease_apply htoken hexpires hlt, WorkflowEngine.modifyNode_apply,
    WorkflowEngine.touch_apply]
  rw [if_neg hallowed]
  exact hrun

theorem failTask_succeeded_iff (reason : String) (changedAt : Instant) :
    (engine.step execution (.failTask key reason (some leaseToken) changedAt)).1.succeeded = true ↔
      changedAt < expiresAt := by
  refine ⟨lt_of_presents hinv hleased rfl, fun hlt => ?_⟩
  obtain ⟨node, hnode, hrunning, htoken, hexpires⟩ := hleased
  obtain ⟨definition, hdefinition, -⟩ := hinv.node hnode
  rw [succeeded_iff]
  obtain ⟨after, hrun, -⟩ := WorkflowEngine.handleTaskFailure_spec hinv.sound hnode hdefinition
    reason changedAt
  refine ⟨[], after, ?_⟩
  simp only [Operation.call, WorkflowEngine.failTask, WorkflowEngine.raiseIf,
    WorkflowEngine.bind_apply, WorkflowEngine.nodeExecution_apply { execution := execution } hnode,
    hrunning, ne_eq, not_true_eq_false, if_false, WorkflowEngine.pure_apply,
    validateOptionalLease_apply htoken hexpires hlt]
  exact hrun

end

/-! ## 3. Where tokens come from -/

section

variable {changedAt : Instant} {execution middle after : WorkflowExecution} {key : NodeKey}
  {node : NodeExecution} {leaseToken : UUID} {keys : List NodeKey} {calls : List ActivateCall}

/-- A terminal execution holds no token. -/
theorem WorkflowExecution.Inv.no_token (hinv : execution.Inv)
    (hterminal : execution.isTerminal = true) (hnode : execution.nodes.get? key = some node) :
    node.leaseToken = none := by
  obtain ⟨definition, -, hnodeInv⟩ := hinv.node hnode
  apply hnodeInv.leaseToken_none
  intro hrunning
  have hlive := hinv.active key node hnode (by rw [hrunning]; rfl)
  rw [hterminal] at hlive
  cases hlive

/-- A node that holds a token after a cascade is as it was before. -/
theorem Cascade.token_unchanged (h : Cascade changedAt execution keys calls after)
    (hlive : Live execution) (hnode : after.nodes.get? key = some node)
    (htoken : node.leaseToken = some leaseToken) : execution.nodes.get? key = some node := by
  have hinv := (h.inv hlive.inv hlive.started hlive.notTerminal).1
  cases hterminal : after.isTerminal with
  | true =>
    rw [hinv.no_token hterminal hnode] at htoken
    cases htoken
  | false =>
    obtain ⟨entered, hentered, -⟩ := h.exists_entered hlive hterminal (Entered.refl execution)
    by_cases hmem : key ∈ entered
    · obtain ⟨kind, -, -, hstatus⟩ := hentered.touched key hmem
      obtain ⟨definition, -, hnodeInv⟩ := hinv.node hnode
      have hrunning := hnodeInv.leased (by rw [htoken]; rfl)
      rw [statusOf_eq hnode, hrunning, Option.some_inj] at hstatus
      cases kind <;> cases hstatus
    · rw [← hentered.untouched key hmem, hnode]

/-- A node that holds a token after an operation held it before, in the same visit and attempt,
unless the operation is the claim that drew it. -/
theorem Effect.token_from {operation : Operation} (h : Effect execution operation calls after)
    (hinv : execution.Inv) (hnode : after.nodes.get? key = some node)
    (htoken : node.leaseToken = some leaseToken) :
    (∃ node', execution.nodes.get? key = some node' ∧ node'.leaseToken = some leaseToken ∧
      node'.visitCount = node.visitCount ∧ node'.attemptCount = node.attemptCount) ∨
    ∃ workerId leaseSeconds changedAt,
      operation = .claimTask key workerId leaseSeconds leaseToken changedAt := by
  have hkept : execution.nodes.get? key = some node →
      (∃ node', execution.nodes.get? key = some node' ∧ node'.leaseToken = some leaseToken ∧
        node'.visitCount = node.visitCount ∧ node'.attemptCount = node.attemptCount) ∨
      ∃ workerId leaseSeconds changedAt,
        operation = .claimTask key workerId leaseSeconds leaseToken changedAt :=
    fun hsame => Or.inl ⟨node, hsame, htoken, rfl, rfl⟩
  have hafter := h.inv hinv
  have hlive : after.isTerminal = true → False := by
    intro hterminal
    rw [hafter.no_token hterminal hnode] at htoken
    cases htoken
  -- the node that a local update has changed, or one that it has left alone
  have hmodify : ∀ {e : WorkflowExecution} {key' : NodeKey} {node' : NodeExecution}
      {f : NodeExecution → NodeExecution}, execution.nodes.get? key' = some node' →
      e.nodes = execution.nodes.modify key' f → e.nodes.get? key = some node →
      (key = key' ∧ node = f node') ∨ execution.nodes.get? key = some node := by
    intro e key' node' f hnode' hnodes he
    rw [hnodes, Dict.get?_modify] at he
    by_cases hkey : key = key'
    · rw [if_pos hkey, hkey, hnode'] at he
      exact Or.inl ⟨hkey, (Option.some_injective _ he).symm⟩
    · rw [if_neg hkey] at he
      exact Or.inr he
  cases h with
  | start _ hcascade =>
    exact hkept (hcascade.token_unchanged
      ⟨hinv.started _, by simp [WorkflowExecution.started, touch], rfl⟩ hnode htoken)
  | @beginTask key' changedAt node' _ hnode' _ _ hready =>
    rcases hmodify (f := fun node => node.beginAttempt changedAt) hnode' rfl hnode with
      ⟨rfl, rfl⟩ | hsame
    · obtain ⟨definition, -, hnodeInv⟩ := hinv.node hnode'
      rw [show (node'.beginAttempt changedAt).leaseToken = node'.leaseToken from rfl,
        hnodeInv.leaseToken_none (by rw [hready]; simp)] at htoken
      cases htoken
    · exact hkept hsame
  | @claimTask key' workerId leaseSeconds leaseToken' changedAt node' _ hnode' =>
    rcases hmodify hnode' (execution.claimed_nodes key' workerId leaseToken' _ changedAt) hnode with
      ⟨rfl, rfl⟩ | hsame
    · obtain rfl : leaseToken' = leaseToken := Option.some_injective _ htoken
      exact Or.inr ⟨workerId, leaseSeconds, changedAt, rfl⟩
    · exact hkept hsame
  | @renewLease key' _ leaseSeconds changedAt node' hnode' =>
    rcases hmodify
      (f := fun node => node.renew (changedAt + WorkflowEngine.seconds leaseSeconds) changedAt)
      hnode' rfl hnode with ⟨rfl, rfl⟩ | hsame
    · exact Or.inl ⟨node', hnode', htoken, rfl, rfl⟩
    · exact hkept hsame
  | @completeTask key' outcome output _ changedAt node' _ _ hnode' hrunning _ _ hrouted =>
    cases hrouted with
    | stuck => exact (hlive rfl).elim
    | routed _ hcascade =>
      obtain ⟨hstarted, hlive'⟩ := hinv.live_of_active hnode' (by rw [hrunning]; rfl)
      have hmiddle := hcascade.token_unchanged
        ⟨hinv.completed hnode' hrunning outcome output changedAt, hstarted, hlive'⟩ hnode htoken
      rcases hmodify (f := fun node => node.complete outcome output changedAt) hnode' rfl hmiddle
        with ⟨rfl, rfl⟩ | hsame
      · cases htoken
      · exact hkept hsame
  | failTask hnode' _ hrunning _ hhandled =>
    cases hhandled with
    | retried =>
      rcases hmodify (f := fun node => node.retry _) hnode' rfl hnode with ⟨rfl, rfl⟩ | hsame
      · cases htoken
      · exact hkept hsame
    | givenUp => exact (hlive rfl).elim
  | expireTask hnode' _ hrunning _ _ hhandled =>
    cases hhandled with
    | retried =>
      rcases hmodify (f := fun node => node.retry _) hnode' rfl hnode with ⟨rfl, rfl⟩ | hsame
      · cases htoken
      · exact hkept hsame
    | givenUp => exact (hlive rfl).elim
  | @resolveApproval key' approved changedAt node' _ _ hnode' hawaiting hrouted =>
    cases hrouted with
    | stuck => exact (hlive rfl).elim
    | routed _ hcascade =>
      have hmiddle := hcascade.token_unchanged
        ⟨hinv.resolved hnode' hawaiting _ changedAt,
          by simp [WorkflowExecution.resolved, touch], rfl⟩ hnode htoken
      rcases hmodify (f := fun node => node.resolve (approvalOutcome approved) changedAt) hnode' rfl
        hmiddle with ⟨rfl, rfl⟩ | hsame
      · obtain ⟨definition, -, hnodeInv⟩ := hinv.node hnode'
        rw [show (node'.resolve (approvalOutcome approved) changedAt).leaseToken =
          node'.leaseToken from rfl, hnodeInv.leaseToken_none (by rw [hawaiting]; simp)] at htoken
        cases htoken
      · exact hkept hsame
  | cancel => exact (hlive rfl).elim

end

/-! ## 4. Runs -/

theorem step_token_from {execution : WorkflowExecution} (hinv : execution.Inv)
    {operation : Operation} {key : NodeKey} {node : NodeExecution} {leaseToken : UUID}
    (hnode : (engine.step execution operation).2.nodes.get? key = some node)
    (htoken : node.leaseToken = some leaseToken) :
    (∃ node', execution.nodes.get? key = some node' ∧ node'.leaseToken = some leaseToken ∧
      node'.visitCount = node.visitCount ∧ node'.attemptCount = node.attemptCount) ∨
    ∃ workerId leaseSeconds changedAt,
      operation = .claimTask key workerId leaseSeconds leaseToken changedAt := by
  rcases fire_cases hinv operation with ⟨-, hafter, -⟩ | ⟨-, heffect⟩
  · rw [show (engine.step execution operation).2 = execution from hafter] at hnode
    exact Or.inl ⟨node, hnode, htoken, rfl, rfl⟩
  · exact heffect.token_from hinv hnode htoken

/-- A token held after a run was held before it, in the same visit and attempt, or was drawn by a
claim of the run. -/
theorem run_token_from {execution : WorkflowExecution} (hinv : execution.Inv)
    {operations : List Operation} {key : NodeKey} {node : NodeExecution} {leaseToken : UUID}
    (hnode : (engine.run execution operations).nodes.get? key = some node)
    (htoken : node.leaseToken = some leaseToken) :
    (∃ node', execution.nodes.get? key = some node' ∧ node'.leaseToken = some leaseToken ∧
      node'.visitCount = node.visitCount ∧ node'.attemptCount = node.attemptCount) ∨
    ∃ workerId leaseSeconds changedAt,
      Operation.claimTask key workerId leaseSeconds leaseToken changedAt ∈ operations := by
  induction operations generalizing execution with
  | nil => exact Or.inl ⟨node, hnode, htoken, rfl, rfl⟩
  | cons operation operations ih =>
    rcases ih (step_inv execution operation hinv) hnode with
      ⟨node', hnode', htoken', hvisits, hattempts⟩ | ⟨workerId, leaseSeconds, changedAt, hmem⟩
    · rcases step_token_from hinv hnode' htoken' with
        ⟨node₀, hnode₀, htoken₀, hvisits₀, hattempts₀⟩ | ⟨workerId, leaseSeconds, changedAt, rfl⟩
      · exact Or.inl ⟨node₀, hnode₀, htoken₀, hvisits₀.trans hvisits, hattempts₀.trans hattempts⟩
      · exact Or.inr ⟨workerId, leaseSeconds, changedAt, List.mem_cons_self⟩
    · exact Or.inr ⟨workerId, leaseSeconds, changedAt, List.mem_cons_of_mem _ hmem⟩

/-- The claims of the operations draw pairwise distinct tokens. -/
def FreshTokens (operations : List Operation) : Prop :=
  (operations.filterMap Operation.claimToken).Nodup

/-- Two members of a list that a partial function maps to one value are equal, if it maps no two
positions to one value. -/
theorem eq_of_nodup_filterMap {α β : Type} {f : α → Option β} {l : List α}
    (h : (l.filterMap f).Nodup) {a b : α} (ha : a ∈ l) (hb : b ∈ l) {c : β} (hac : f a = some c)
    (hbc : f b = some c) : a = b := by
  induction l with
  | nil => cases ha
  | cons x l ih =>
    have hnot : ∀ y ∈ l, f x = some c → f y = some c → False := by
      intro y hy hx hyc
      rw [List.filterMap_cons_some hx, List.nodup_cons] at h
      exact h.1 (List.mem_filterMap.mpr ⟨y, hy, hyc⟩)
    have htail : (l.filterMap f).Nodup := h.sublist ((List.sublist_cons_self x l).filterMap f)
    rcases List.mem_cons.mp ha with rfl | ha' <;> rcases List.mem_cons.mp hb with rfl | hb'
    · rfl
    · exact (hnot b hb' hac hbc).elim
    · exact (hnot a ha' hbc hac).elim
    · exact ih htail ha' hb'

namespace AcceptedDefinition.Creates

variable {d : AcceptedDefinition} {start : WorkflowExecution} (hstart : d.Creates start)
include hstart

/-- A token held after a run was drawn by a claim of the run, for the node that holds it. -/
theorem claimed_of_holds {operations : List Operation} {key : NodeKey} {leaseToken : UUID}
    (h : (engine.run start operations).Holds key leaseToken) :
    ∃ workerId leaseSeconds changedAt,
      Operation.claimTask key workerId leaseSeconds leaseToken changedAt ∈ operations := by
  obtain ⟨node, hnode, htoken⟩ := h
  rcases run_token_from hstart.inv hnode htoken with ⟨node', hnode', htoken', -⟩ | hclaim
  · obtain ⟨-, -, -, -, hblank, -⟩ := hstart.node hnode'
    rw [hblank] at htoken'
    cases htoken'
  · exact hclaim

/-- Once the node of a claim no longer holds its token, no operation that presents the token
succeeds. -/
theorem fenced {before after : List Operation} (hfresh : FreshTokens (before ++ after))
    {key : NodeKey} {workerId : String} {leaseSeconds : ℕ} {leaseToken : UUID} {claimedAt : Instant}
    (hclaim : Operation.claimTask key workerId leaseSeconds leaseToken claimedAt ∈ before)
    (hgone : ¬(engine.run start before).Holds key leaseToken) {t : EngineStep}
    (ht : t ∈ engine.trace (engine.run start before) after) {key' : NodeKey} {changedAt : Instant}
    (hpresents : t.input.presents = some (key', leaseToken, changedAt)) :
    t.output.succeeded = false := by
  by_contra hsucceeded
  rw [Bool.not_eq_false] at hsucceeded
  obtain ⟨done, operation, rest, rfl, rfl⟩ := engine.mem_trace ht
  have hinv : (engine.run (engine.run start before) done).Inv := by
    rw [← engine.run_append]
    exact hstart.run_inv _
  have hholds : (engine.run (engine.run start before) done).Holds key' leaseToken := by
    rcases fire_cases hinv operation with ⟨hfailed, -⟩ | ⟨-, heffect⟩
    · rw [hsucceeded] at hfailed
      cases hfailed
    · obtain ⟨expiresAt, ⟨node, hnode, -, htoken, -⟩, -⟩ := heffect.presents hpresents
      exact ⟨node, hnode, htoken⟩
  have hsame : ∀ {key₁ workerId₁ leaseSeconds₁ claimedAt₁},
      Operation.claimTask key₁ workerId₁ leaseSeconds₁ leaseToken claimedAt₁ ∈
        before ++ (done ++ operation :: rest) → key₁ = key := by
    intro key₁ workerId₁ leaseSeconds₁ claimedAt₁ hmem
    have heq := eq_of_nodup_filterMap hfresh hmem (List.mem_append_left _ hclaim) rfl rfl
    injection heq
  obtain ⟨node, hnode, htoken⟩ := hholds
  rcases run_token_from (hstart.run_inv before) hnode htoken with
    ⟨node', hnode', htoken', -⟩ | ⟨workerId₁, leaseSeconds₁, claimedAt₁, hmem⟩
  · have hholds' : (engine.run start before).Holds key' leaseToken := ⟨node', hnode', htoken'⟩
    obtain ⟨workerId₁, leaseSeconds₁, claimedAt₁, hmem⟩ := hstart.claimed_of_holds hholds'
    obtain rfl := hsame (List.mem_append_left _ hmem)
    exact hgone hholds'
  · have hmem' : Operation.claimTask key' workerId₁ leaseSeconds₁ leaseToken claimedAt₁ ∈
        done ++ operation :: rest := List.mem_append_left _ hmem
    -- the claim after the cut would be a second one with the same token
    unfold FreshTokens at hfresh
    rw [List.filterMap_append, List.nodup_append] at hfresh
    exact hfresh.2.2 leaseToken (List.mem_filterMap.mpr ⟨_, hclaim, rfl⟩) leaseToken
      (List.mem_filterMap.mpr ⟨_, hmem', rfl⟩) rfl

/-- A token stays with the visit and the attempt that its claim began. -/
theorem token_visit {before after : List Operation} {key : NodeKey} {workerId : String}
    {leaseSeconds : ℕ} {leaseToken : UUID} {claimedAt : Instant}
    (hfresh : FreshTokens
      (before ++ .claimTask key workerId leaseSeconds leaseToken claimedAt :: after))
    {node : NodeExecution}
    (hnode : (engine.run start
      (before ++ .claimTask key workerId leaseSeconds leaseToken claimedAt :: after)).nodes.get? key =
        some node)
    (htoken : node.leaseToken = some leaseToken) :
    node.status = .running ∧ ∃ node', (engine.run start (before ++
        [.claimTask key workerId leaseSeconds leaseToken claimedAt])).nodes.get? key = some node' ∧
      node'.leaseToken = some leaseToken ∧ node'.visitCount = node.visitCount ∧
      node'.attemptCount = node.attemptCount := by
  constructor
  · obtain ⟨definition, -, hnodeInv⟩ := (hstart.run_inv _).node hnode
    exact hnodeInv.leased (by rw [htoken]; rfl)
  · rw [← List.singleton_append, ← List.append_assoc, engine.run_append] at hnode
    rcases run_token_from (hstart.run_inv _) hnode htoken with hkept | ⟨w, s, c, hmem⟩
    · exact hkept
    · unfold FreshTokens at hfresh
      rw [List.filterMap_append, List.filterMap_cons_some (by rfl), List.nodup_append] at hfresh
      exact absurd (List.mem_filterMap.mpr ⟨_, hmem, rfl⟩ :
        leaseToken ∈ after.filterMap Operation.claimToken) (List.nodup_cons.mp hfresh.2.1).1

end AcceptedDefinition.Creates

end JbOrchestrator.Workflows
