import JbOrchestrator.Application.Claiming

/-!
# Fencing — one artifact for each visit

A token is held only in the visit and the attempt of the claim that it was drawn for.  A completion
that presents the token of its claim therefore ends the visit of the claim, and the artifact it leaves
is the only one of this visit.
-/

open Lib

namespace JbOrchestrator.Application

open Domain Workflows Infrastructure Infrastructure.Database

/-! ## 1. Artifacts -/

section

variable {isolation : Isolation} {held : Set RowLock} {db db' : Database} {call : Call}
  {result : Result}

/-- A commit adds artifacts under new keys only. -/
theorem Commits.artifacts (h : Commits isolation held db db' call result) :
    ∃ new, db'.artifacts = db.artifacts ++ new ∧ (new.map TaskArtifact.key).Nodup ∧
      ∀ artifact ∈ new, ∀ other ∈ db.artifacts, other.key ≠ artifact.key := by
  have hnone : ∀ {executions run request events},
      Updates db db' executions run request [] events →
      ∃ new, db'.artifacts = db.artifacts ++ new ∧ (new.map TaskArtifact.key).Nodup ∧
        ∀ artifact ∈ new, ∀ other ∈ db.artifacts, other.key ≠ artifact.key :=
    fun hupdates => ⟨[], hupdates.artifacts, List.nodup_nil, fun _ h => by cases h⟩
  cases h with
  | idle _ hupdates => exact hnone hupdates
  | requested _ _ _ _ _ hupdates => exact hnone hupdates
  | started _ _ _ _ _ _ hupdates => exact hnone hupdates
  | cancelled _ _ _ _ _ _ _ _ hupdates => exact hnone hupdates
  | operated _ _ _ _ hperforms _ _ hunique hupdates =>
    refine ⟨_, hupdates.artifacts, ?_, hunique⟩
    cases hperforms <;> simp

theorem Commits.artifacts_nodup (h : Commits isolation held db db' call result)
    (hnodup : (db.artifacts.map TaskArtifact.key).Nodup) :
    (db'.artifacts.map TaskArtifact.key).Nodup := by
  obtain ⟨new, hnew, hkeys, hfresh⟩ := h.artifacts
  rw [hnew, List.map_append, List.nodup_append]
  refine ⟨hnodup, hkeys, fun key hkey key' hkey' => ?_⟩
  obtain ⟨other, hother, rfl⟩ := List.mem_map.mp hkey
  obtain ⟨artifact, hartifact, rfl⟩ := List.mem_map.mp hkey'
  exact hfresh artifact hartifact other hother

/-- `complete` leaves the artifact of its claim, whose token its node held. -/
theorem Commits.completed {claim : TaskClaim} {taskResult : TaskResult} {artifactId : UUID}
    {now : Instant} {execution : WorkflowExecution} (hdb : db.Consistent)
    (hfresh : isolation.freshNodes)
    (h : Commits isolation held db db' (.complete claim taskResult artifactId now)
      (.execution execution)) :
    (∃ artifact ∈ db'.artifacts,
      artifact.key = (claim.executionId, claim.nodeKey, claim.visitCount)) ∧
    ∃ stored node, db.executions.get? claim.executionId = some stored ∧
      stored.nodes.get? claim.nodeKey = some node ∧ node.status = .running ∧
      node.leaseToken = some claim.leaseToken := by
  cases h with
  | idle hresult => rcases hresult with h | h <;> cases h
  | operated hrow _ hloads hstep hperforms _ _ _ hupdates =>
    have hstored := hdb.stored _ _ hrow
    obtain rfl := hloads.eq hfresh hstored.keys
    have heffect := effect_of_step hstored.sound hstored.active hstep
    cases hperforms with
    | @complete _ _ _ _ outcome output artifact _ hid hartifact =>
      refine ⟨⟨artifact, ?_, hartifact⟩, ?_⟩
      · rw [hupdates.artifacts]
        exact List.mem_append_right _ (List.mem_singleton_self _)
      · obtain ⟨expiresAt, ⟨node, hnode, hrunning, htoken, -⟩, -⟩ := heffect.presents rfl
        exact ⟨_, node, hid ▸ hrow, hnode, hrunning, htoken⟩

end

/-! ## 2. Tokens -/

/-- The token that a call draws. -/
def Call.claimToken : Call → List UUID
  | .claimNext _ _ token _ => [token]
  | _ => []

/-- Every token that a node holds was drawn for a claim of its visit and attempt. -/
def TokensClaimed (world : World) : Prop :=
  ∀ id execution key node token, world.database.executions.get? id = some execution →
    execution.nodes.get? key = some node → node.leaseToken = some token →
    ∃ claim ∈ world.claims, claim.leaseToken = token ∧
      claim.attempt = (id, key, node.visitCount, node.attemptCount)

section

variable {isolation : Isolation} {held : Set RowLock} {world world' : World} {call : Call}
  {result : Result}

theorem TokensClaimed.commit (h : TokensClaimed world) (hdispatched : Dispatched world)
    (hcommits : WorldCommits isolation call result held world world')
    (hfresh : isolation.freshNodes) : TokensClaimed world' := by
  have hclaims := World.claims_append hcommits.1
  have hkept : ∀ {claim}, claim ∈ world.claims → claim ∈ world'.claims := fun hclaim => by
    rw [hclaims]
    exact List.mem_append_left _ hclaim
  have hold : ∀ {id execution key node token}, world.database.executions.get? id = some execution →
      execution.nodes.get? key = some node → node.leaseToken = some token →
      ∃ claim ∈ world'.claims, claim.leaseToken = token ∧
        claim.attempt = (id, key, node.visitCount, node.attemptCount) := by
    intro id execution key node token hrow hnode htoken
    obtain ⟨claim, hclaim, hsame⟩ := h id execution key node token hrow hnode htoken
    exact ⟨claim, hkept hclaim, hsame⟩
  intro id execution key node token hrow hnode htoken
  cases hcommits.2.evolves hdispatched.consistent hfresh with
  | same hexecutions => exact hold (hexecutions ▸ hrow) hnode htoken
  | started hcreates _ heffect hexecutions =>
    rw [hexecutions, Dict.get?_set] at hrow
    split at hrow
    · obtain rfl := Option.some.inj hrow
      -- an execution that was just started holds no token
      rcases heffect.token_from hcreates.inv hnode htoken with ⟨node', hnode', htoken', -⟩ | hclaim
      · obtain ⟨-, -, -, -, hblank, -⟩ := hcreates.node hnode'
        rw [hblank] at htoken'
        cases htoken'
      · obtain ⟨_, _, _, hclaim⟩ := hclaim
        cases hclaim
    · exact hold hrow hnode htoken
  | @operated _ stored after _ _ _ _ _ hstored _ heffect hperforms hexecutions =>
    rw [hexecutions, Dict.get?_set] at hrow
    split at hrow
    · rename_i hid
      obtain rfl := Option.some.inj hrow
      rcases heffect.token_from (hdispatched.inv _ _ hstored) hnode htoken with
        ⟨node', hnode', htoken', hvisits, hattempts⟩ | ⟨workerId, leaseSeconds, changedAt, rfl⟩
      · rw [← hvisits, ← hattempts, hid]
        exact hold hstored hnode' htoken'
      · -- the claim of this commit drew the token
        cases hperforms with
        | @claimNext _ _ _ _ _ _ node' claim hnode' hattempt htoken' =>
          obtain rfl := Option.some.inj (hnode.symm.trans hnode')
          refine ⟨claim, ?_, htoken', hid ▸ hattempt⟩
          rw [hclaims]
          exact List.mem_append_right _ (List.mem_singleton_self _)
    · exact hold hrow hnode htoken

/-- A claim carries the token of its call. -/
theorem claimTokens_sublist
    (hcommits : WorldCommits isolation call result held world world') :
    (world'.claims.map TaskClaim.leaseToken).Sublist
      (world.claims.map TaskClaim.leaseToken ++ call.claimToken) := by
  rw [World.claims_append hcommits.1, List.map_append]
  apply List.Sublist.append_left
  have hnone : result.claims = [] →
      (result.claims.map TaskClaim.leaseToken).Sublist call.claimToken := by
    intro h
    rw [h]
    exact List.nil_sublist _
  cases hcommits.2 with
  | idle hresult => rcases hresult with rfl | rfl <;> exact hnone rfl
  | operated _ _ _ _ hperforms =>
    cases hperforms with
    | claimNext _ _ htoken =>
      rw [← htoken]
      exact List.Sublist.refl _
    | _ => exact hnone rfl
  | _ => exact hnone rfl

end

/-! ## 3. Runs -/

/-- Fencing on one execution: a token succeeds only with its node and in time, a leased node is either
owned or expirable, a token that is gone has no effect any more, and a token stays with its visit. -/
structure Fences (start : WorkflowExecution) (operations : List Operation) : Prop where
  presented : ∀ t ∈ engine.trace start operations, ∀ key token changedAt,
    t.input.presents = some (key, token, changedAt) → t.output.succeeded = true →
    ∃ expiresAt, t.before.LeasedTo key token expiresAt ∧ changedAt < expiresAt
  expirable : ∀ key token expiresAt changedAt,
    (engine.run start operations).LeasedTo key token expiresAt →
    ((engine.step (engine.run start operations) (.expireTask key changedAt)).1.succeeded = true ↔
      expiresAt ≤ changedAt)
  renewable : ∀ key token expiresAt changedAt,
    (engine.run start operations).LeasedTo key token expiresAt → ∀ leaseSeconds, 1 ≤ leaseSeconds →
    ((engine.step (engine.run start operations)
      (.renewLease key token leaseSeconds changedAt)).1.succeeded = true ↔ changedAt < expiresAt)
  completable : ∀ key token expiresAt changedAt,
    (engine.run start operations).LeasedTo key token expiresAt → ∀ outcome output,
    outcome = .success ∨ outcome = .failure →
    ((engine.step (engine.run start operations)
      (.completeTask key outcome output (some token) changedAt)).1.succeeded = true ↔
      changedAt < expiresAt)
  failable : ∀ key token expiresAt changedAt,
    (engine.run start operations).LeasedTo key token expiresAt → ∀ reason,
    ((engine.step (engine.run start operations)
      (.failTask key reason (some token) changedAt)).1.succeeded = true ↔ changedAt < expiresAt)
  gone : ∀ before after, operations = before ++ after →
    ∀ key workerId leaseSeconds token claimedAt,
    .claimTask key workerId leaseSeconds token claimedAt ∈ before →
    ¬(engine.run start before).Holds key token → ∀ t ∈ engine.trace (engine.run start before) after,
    ∀ key' changedAt, t.input.presents = some (key', token, changedAt) → t.output.succeeded = false
  visit : ∀ before after key workerId leaseSeconds token claimedAt,
    operations = before ++ .claimTask key workerId leaseSeconds token claimedAt :: after →
    ∀ node, (engine.run start operations).nodes.get? key = some node →
    node.leaseToken = some token → node.status = .running ∧
      ∃ node', (engine.run start
        (before ++ [.claimTask key workerId leaseSeconds token claimedAt])).nodes.get? key =
          some node' ∧ node'.leaseToken = some token ∧
        node'.visitCount = node.visitCount ∧ node'.attemptCount = node.attemptCount

theorem fences_of_creates {d : AcceptedDefinition} {start : WorkflowExecution}
    (hstart : d.Creates start) {operations : List Operation} (hfresh : FreshTokens operations) :
    Fences start operations where
  presented t ht key token changedAt hpresents hsucceeded := by
    obtain ⟨-, -, hraised | htook⟩ := hstart.trace_cases ht
    · rw [hraised.1] at hsucceeded
      cases hsucceeded
    · exact htook.2.presents hpresents
  expirable _ _ _ changedAt hleased :=
    expireTask_succeeded_iff (hstart.run_inv operations) hleased changedAt
  renewable _ _ _ changedAt hleased _ hseconds :=
    renewLease_succeeded_iff (hstart.run_inv operations) hleased hseconds changedAt
  completable _ _ _ changedAt hleased _ output houtcome :=
    completeTask_succeeded_iff (hstart.run_inv operations) hleased houtcome output changedAt
  failable _ _ _ changedAt hleased reason :=
    failTask_succeeded_iff (hstart.run_inv operations) hleased reason changedAt
  gone := by
    rintro before after rfl key workerId leaseSeconds token claimedAt hclaim hgone t ht key'
      changedAt hpresents
    exact hstart.fenced hfresh hclaim hgone ht hpresents
  visit := by
    rintro before after key workerId leaseSeconds token claimedAt rfl node hnode htoken
    exact hstart.token_visit hfresh hnode htoken

section

variable (settings : Settings) {world : World} (hblank : Blank world.database)
  (hhistory : world.history = [])
include hblank

/-- No interleaving of sessions leaves two artifacts of one visit. -/
theorem artifacts_nodup (hartifacts : world.database.artifacts = [])
    (inputs : List (Store.Input Call)) :
    (((services settings).machine.run ((services settings).initial world)
      inputs).shared.database.artifacts.map TaskArtifact.key).Nodup := by
  have htrace : ∀ t ∈ (services settings).machine.trace ((services settings).initial world) inputs,
      t.before.shared.Consistent ∧ SessionStep ⟨False, False⟩ t :=
    (interleaved_spec settings ⟨False, False⟩ hblank.aligned.consistent (fun h => h.elim)
      (fun h => h.elim)).2
  refine ((services settings).machine.trace_keeps
    (Q := fun c => (c.shared.database.artifacts.map TaskArtifact.key).Nodup) ?_ ?_).1
  · show (world.database.artifacts.map TaskArtifact.key).Nodup
    rw [hartifacts]
    exact List.nodup_nil
  · intro t ht hbefore
    have hstep := (htrace t ht).2
    unfold SessionStep Store.Respects at hstep
    split at hstep
    · obtain ⟨held, hcommits⟩ := hstep
      exact hcommits.2.artifacts_nodup hbefore
    · rw [hstep.2]
      exact hbefore
    · rw [hstep]
      exact hbefore

theorem serial_artifacts_nodup (hartifacts : world.database.artifacts = []) (calls : List Call) :
    (((services settings).serial.run world calls).database.artifacts.map
      TaskArtifact.key).Nodup := by
  obtain ⟨-, htrace⟩ := serial_spec settings hblank.aligned.consistent calls
  refine ((services settings).serial.trace_keeps
    (Q := fun world => (world.database.artifacts.map TaskArtifact.key).Nodup) ?_ ?_).1
  · rw [hartifacts]
    exact List.nodup_nil
  · intro t ht hbefore
    have hstep := (htrace t ht).2
    unfold SerialStep Store.Serves at hstep
    split at hstep
    · obtain ⟨held, hcommits⟩ := hstep
      exact hcommits.2.artifacts_nodup hbefore
    · rw [hstep.2]
      exact hbefore

include hhistory

/-- What serial calls keep. -/
theorem serial_dispatched (calls : List Call) :
    ∀ t ∈ (services settings).serial.trace world calls,
      (Dispatched t.before ∧ TokensClaimed t.before) ∧ SerialStep t := by
  obtain ⟨-, htrace⟩ := serial_spec settings hblank.aligned.consistent calls
  have hkeeps : ∀ t ∈ (services settings).serial.trace world calls,
      Dispatched t.before ∧ TokensClaimed t.before → Dispatched t.after ∧ TokensClaimed t.after := by
    rintro t ht ⟨hdispatched, htokens⟩
    have hstep := (htrace t ht).2
    unfold SerialStep Store.Serves at hstep
    split at hstep
    · obtain ⟨held, hcommits⟩ := hstep
      exact ⟨hdispatched.commit hcommits trivial, htokens.commit hdispatched hcommits trivial⟩
    · rw [hstep.2]
      exact ⟨hdispatched, htokens⟩
  have hstart : Dispatched world ∧ TokensClaimed world := by
    refine ⟨hblank.dispatched hhistory, fun id execution key node token hrow => ?_⟩
    rw [hblank.executions] at hrow
    cases hrow
  obtain ⟨-, hall⟩ := (services settings).serial.trace_keeps
    (Q := fun world => Dispatched world ∧ TokensClaimed world) hstart hkeeps
  exact fun t ht => ⟨(hall t ht).1, (htrace t ht).2⟩

/-- With distinct tokens the claims handed out so far have distinct tokens. -/
theorem serial_claimTokens {calls : List Call} (hfresh : (calls.flatMap Call.claimToken).Nodup)
    {t : Transition World Call (Except ServiceError Result)}
    (ht : t ∈ (services settings).serial.trace world calls) :
    (t.before.claims.map TaskClaim.leaseToken).Nodup := by
  obtain ⟨before, call, after, rfl, rfl⟩ := (services settings).serial.mem_trace ht
  have hsublist : ((((services settings).serial.run world before).claims).map
      TaskClaim.leaseToken).Sublist
        (world.claims.map TaskClaim.leaseToken ++ before.flatMap Call.claimToken) := by
    refine (services settings).serial.trace_sublist (g := Call.claimToken)
      (f := fun world => world.claims.map TaskClaim.leaseToken) fun t ht => ?_
    obtain ⟨-, hstep⟩ := serial_dispatched settings hblank hhistory before t ht
    unfold SerialStep Store.Serves at hstep
    split at hstep
    · obtain ⟨held, hcommits⟩ := hstep
      exact claimTokens_sublist hcommits
    · rw [hstep.2]
      exact List.sublist_append_left _ _
  have hnone : world.claims = [] := by
    unfold World.claims
    rw [hhistory]
    rfl
  rw [hnone, List.map_nil, List.nil_append] at hsublist
  refine List.Nodup.sublist hsublist ?_
  rw [List.flatMap_append] at hfresh
  exact (List.nodup_append.mp hfresh).1

/-- `complete` with a claim that was handed out ends the visit of the claim and leaves the only
artifact of this visit. -/
theorem completed_once (hartifacts : world.database.artifacts = []) {calls : List Call}
    (hfresh : (calls.flatMap Call.claimToken).Nodup)
    {t : Transition World Call (Except ServiceError Result)}
    (ht : t ∈ (services settings).serial.trace world calls) {claim : TaskClaim}
    {taskResult : TaskResult} {artifactId : UUID} {now : Instant} {execution : WorkflowExecution}
    (hinput : t.input = .complete claim taskResult artifactId now)
    (houtput : t.output = .ok (.execution execution)) (hclaim : claim ∈ t.before.claims) :
    (∃ stored node, t.before.database.executions.get? claim.executionId = some stored ∧
      stored.nodes.get? claim.nodeKey = some node ∧ node.status = .running ∧
      node.visitCount = claim.visitCount) ∧
    ∃! artifact, artifact ∈ ((services settings).serial.run world calls).database.artifacts ∧
      artifact.key = (claim.executionId, claim.nodeKey, claim.visitCount) := by
  have hall := serial_dispatched settings hblank hhistory calls
  obtain ⟨⟨hdispatched, htokens⟩, hstep⟩ := hall t ht
  unfold SerialStep Store.Serves at hstep
  rw [hinput, houtput] at hstep
  obtain ⟨held, -, hcommits⟩ := hstep
  obtain ⟨⟨artifact, hartifact, hkey⟩, stored, node, hrow, hnode, hrunning, htoken⟩ :=
    hcommits.completed hdispatched.consistent trivial
  constructor
  · obtain ⟨claim', hclaim', htoken', hattempt⟩ := htokens _ _ _ _ _ hrow hnode htoken
    obtain rfl : claim' = claim := List.inj_on_of_nodup_map
      (serial_claimTokens settings hblank hhistory hfresh ht) hclaim' hclaim htoken'
    refine ⟨stored, node, hrow, hnode, hrunning, ?_⟩
    obtain ⟨-, hvisits, -⟩ : claim'.nodeKey = claim'.nodeKey ∧
        claim'.visitCount = node.visitCount ∧ claim'.attemptCount = node.attemptCount := by
      simpa [TaskClaim.attempt] using hattempt
    exact hvisits.symm
  · have hkept : artifact ∈ ((services settings).serial.run world calls).database.artifacts := by
      refine (services settings).serial.trace_kept
        (Q := fun world => artifact ∈ world.database.artifacts) ht hartifact ?_
      intro t ht hbefore
      obtain ⟨-, hstep⟩ := hall t ht
      unfold SerialStep Store.Serves at hstep
      split at hstep
      · obtain ⟨held, -, hcommits⟩ := hstep
        obtain ⟨new, hnew, -⟩ := hcommits.artifacts
        rw [hnew]
        exact List.mem_append_left _ hbefore
      · rw [hstep.2]
        exact hbefore
    refine ⟨artifact, ⟨hkept, hkey⟩, ?_⟩
    rintro other ⟨hother, hkey'⟩
    exact List.inj_on_of_nodup_map (serial_artifacts_nodup settings hblank hartifacts calls) hother
      hkept (hkey'.trans hkey.symm)

end

/-- Leases fence one execution; no interleaving of the services leaves two artifacts of a visit, and
serial calls leave exactly one of a visit that was completed. -/
theorem lease_fencing (settings : Settings) :
    (∀ (d : AcceptedDefinition) (start : WorkflowExecution), d.Creates start →
      ∀ operations, FreshTokens operations → Fences start operations) ∧
    ∀ world : World, Blank world.database → world.history = [] → world.database.artifacts = [] →
      (∀ inputs, (((services settings).machine.run ((services settings).initial world)
        inputs).shared.database.artifacts.map TaskArtifact.key).Nodup) ∧
      ∀ calls : List Call, (calls.flatMap Call.claimToken).Nodup →
        ∀ t ∈ (services settings).serial.trace world calls,
        ∀ claim taskResult artifactId now execution,
        t.input = .complete claim taskResult artifactId now → t.output = .ok (.execution execution) →
        claim ∈ t.before.claims →
        (∃ stored node, t.before.database.executions.get? claim.executionId = some stored ∧
          stored.nodes.get? claim.nodeKey = some node ∧ node.status = .running ∧
          node.visitCount = claim.visitCount) ∧
        ∃! artifact, artifact ∈ ((services settings).serial.run world calls).database.artifacts ∧
          artifact.key = (claim.executionId, claim.nodeKey, claim.visitCount) := by
  constructor
  · exact fun d start hstart operations hfresh => fences_of_creates hstart hfresh
  · intro world hblank hhistory hartifacts
    refine ⟨artifacts_nodup settings hblank hartifacts, ?_⟩
    intro calls hfresh t ht claim taskResult artifactId now execution hinput houtput hclaim
    exact completed_once settings hblank hhistory hartifacts hfresh ht hinput houtput hclaim

/-- The world in which the one task was claimed. -/
def oneClaim : World :=
  (services lenient).serial.run oneProject [requestTask, startTask, .claimNext "worker" none 77 2]

/-- The claim is completed and leaves one artifact. -/
theorem lease_fencing_oneClaim : ∃ claim ∈ oneClaim.claims,
    ∃! artifact, artifact ∈ ((services lenient).serial.run oneProject
        ([requestTask, startTask, .claimNext "worker" none 77 2] ++
          [.complete claim ⟨.success, [], .inl rfl⟩ 99 3])).database.artifacts ∧
      artifact.key = (claim.executionId, claim.nodeKey, claim.visitCount) := by
  have hcompletes : ∀ claim ∈ oneClaim.claims, ∃ execution,
      ((services lenient).serial.fire oneClaim
        (.complete claim ⟨.success, [], .inl rfl⟩ 99 3)).output = .ok (.execution execution) := by
    intro claim hclaim
    have hoks : ∀ claim ∈ oneClaim.claims,
        (match ((services lenient).serial.fire oneClaim
          (.complete claim ⟨.success, [], .inl rfl⟩ 99 3)).output with
        | .ok (.execution _) => true
        | _ => false) = true := by
      decide +kernel
    have hok := hoks claim hclaim
    split at hok
    · exact ⟨_, by assumption⟩
    · cases hok
  have hsome : oneClaim.claims ≠ [] := by decide +kernel
  obtain ⟨claim, hclaim⟩ := List.exists_mem_of_ne_nil _ hsome
  obtain ⟨execution, hexecution⟩ := hcompletes claim hclaim
  refine ⟨claim, hclaim, ?_⟩
  refine (((lease_fencing lenient).2 oneProject blank_oneProject rfl rfl).2 _ ?_
    ((services lenient).serial.fire oneClaim (.complete claim ⟨.success, [], .inl rfl⟩ 99 3)) ?_
    claim _ _ _ execution rfl hexecution hclaim).2
  · exact List.nodup_singleton 77
  · rw [Machine.trace_append]
    exact List.mem_append_right _ (List.mem_singleton_self _)

end JbOrchestrator.Application
