import JbOrchestrator.Application.Lifecycle
import JbOrchestrator.Workflows.Attempts

/-!
# Claiming — every attempt is handed to one worker

A claim begins the next attempt of the visit that its transaction has loaded.  As long as the node row
of every candidate is unchanged when its execution is locked, this is the next attempt of the committed
visit: no attempt is handed out twice, and only leases that are over are expired.
-/

open Lib

namespace JbOrchestrator.Application

open Domain Workflows Infrastructure Infrastructure.Database

/-! ## 1. Commits on fresh node rows -/

/-- What a commit does to the executions when the node rows it has loaded are the committed ones. -/
inductive Evolves (db db' : Database) : Call → Result → Prop where
  | same {call : Call} {result : Result} (hexecutions : db'.executions = db.executions)
    (hresult : ∀ claim, result ≠ .claim (some claim)) (hrecovered : result ≠ .recovered true) :
    Evolves db db' call result
  | started {call : Call} {definition : AcceptedDefinition} {created after : WorkflowExecution}
    {now : Instant} {calls : List ActivateCall} (hcreates : definition.Creates created)
    (hnew : db.executions.get? after.id = none)
    (heffect : Effect created (.start now) calls after)
    (hexecutions : db'.executions = db.executions.set after.id after) :
    Evolves db db' call (.execution after)
  | operated {call : Call} {result : Result} {stored after : WorkflowExecution}
    {operation : Operation} {synchronizes : Bool} {artifacts : List TaskArtifact}
    {event : DomainEvent} {calls : List ActivateCall}
    (hrow : db.executions.get? stored.id = some stored)
    (hstep : engine.step stored operation = (⟨.ok (), calls⟩, after))
    (heffect : Effect stored operation calls after)
    (hperforms : Performs stored after call result operation synchronizes artifacts event)
    (hexecutions : db'.executions = db.executions.set stored.id after) :
    Evolves db db' call result

section

variable {isolation : Isolation} {held : Set RowLock} {db db' : Database} {call : Call}
  {result : Result}

theorem Commits.evolves (hdb : db.Consistent) (h : Commits isolation held db db' call result)
    (hfresh : isolation.freshNodes) : Evolves db db' call result := by
  cases h with
  | idle hresult hupdates =>
    refine .same hupdates.executions (fun claim hclaim => ?_) fun hrecovered => ?_
    · rcases hresult with h | h <;> rw [h] at hclaim <;> cases hclaim
    · rcases hresult with h | h <;> rw [h] at hrecovered <;> cases hrecovered
  | requested _ _ _ _ _ hupdates =>
    exact .same hupdates.executions (fun _ h => by cases h) fun h => by cases h
  | cancelled _ _ _ _ _ _ _ _ hupdates =>
    exact .same hupdates.executions (fun _ h => by cases h) fun h => by cases h
  | started hcreates hcontext hstep hnew _ _ hupdates =>
    obtain ⟨-, -, hid, -⟩ := Stored.of_start hcreates hcontext hstep
    rw [← hid] at hnew
    have hexecutions := hupdates.executions
    rw [← hid] at hexecutions
    have hinv := hcreates.inv
    exact .started hcreates hnew (effect_of_step hinv.sound hinv.active hstep) hexecutions
  | operated hrow _ hloads hstep hperforms _ _ _ hupdates =>
    have hstored := hdb.stored _ _ hrow
    obtain rfl := hloads.eq hfresh hstored.keys
    have heffect := effect_of_step hstored.sound hstored.active hstep
    have hshape := heffect.sameShape
    have hexecutions := hupdates.executions
    rw [mergeExecution_self hshape.snapshot hshape.id] at hexecutions
    exact .operated hrow hstep heffect hperforms hexecutions

namespace Evolves

variable (h : Evolves db db' call result)
include h

/-- No execution loses an attempt. -/
theorem advances {id : UUID} {execution : WorkflowExecution}
    (hrow : db.executions.get? id = some execution) :
    ∃ after, db'.executions.get? id = some after ∧ execution.Advances after := by
  cases h with
  | same hexecutions => exact ⟨execution, hexecutions ▸ hrow, .of_nodes rfl⟩
  | started _ hnew _ hexecutions =>
    refine ⟨execution, ?_, .of_nodes rfl⟩
    rw [hexecutions, Dict.get?_set_of_ne _ _ ?_, hrow]
    rintro rfl
    rw [hrow] at hnew
    cases hnew
  | @operated _ stored after _ _ _ _ _ hstored _ heffect _ hexecutions =>
    by_cases hid : id = stored.id
    · subst hid
      obtain rfl := Option.some.inj (hrow.symm.trans hstored)
      exact ⟨after, by rw [hexecutions, Dict.get?_set_self], heffect.advances⟩
    · exact ⟨execution, by rw [hexecutions, Dict.get?_set_of_ne _ _ hid, hrow], .of_nodes rfl⟩

/-- The engine keeps its invariant. -/
theorem inv (hinv : ∀ id execution, db.executions.get? id = some execution → execution.Inv) :
    ∀ id execution, db'.executions.get? id = some execution → execution.Inv := by
  intro id execution hrow
  cases h with
  | same hexecutions => exact hinv id execution (hexecutions ▸ hrow)
  | @started _ _ after _ _ hcreates _ heffect hexecutions =>
    rw [hexecutions, Dict.get?_set] at hrow
    split at hrow
    · obtain rfl := Option.some.inj hrow
      exact heffect.inv hcreates.inv
    · exact hinv id execution hrow
  | @operated _ stored after _ _ _ _ _ hstored _ heffect _ hexecutions =>
    rw [hexecutions, Dict.get?_set] at hrow
    split at hrow
    · obtain rfl := Option.some.inj hrow
      exact heffect.inv (hinv _ _ hstored)
    · exact hinv id execution hrow

end Evolves

end

/-! ## 2. Claims -/

/-- The claim that a call handed out. -/
def Result.claims : Result → List TaskClaim
  | .claim value => value.toList
  | _ => []

theorem World.claims_append {world world' : World} {call : Call} {result : Result}
    (h : world'.history = world.history ++ [(call, result)]) :
    world'.claims = world.claims ++ result.claims := by
  unfold World.claims
  rw [h, List.filterMap_append]
  congr 1
  cases result with
  | claim value => cases value <;> rfl
  | _ => rfl

/-- The visit and the attempt of the claim are not ahead of those of its node. -/
def PastClaim (db : Database) (claim : TaskClaim) : Prop :=
  ∃ execution node, db.executions.get? claim.executionId = some execution ∧
    execution.nodes.get? claim.nodeKey = some node ∧
    (claim.visitCount < node.visitCount ∨
      claim.visitCount = node.visitCount ∧ claim.attemptCount ≤ node.attemptCount)

/-- The invariant of claiming. -/
structure Dispatched (world : World) : Prop where
  consistent : world.Consistent
  inv : ∀ id execution, world.database.executions.get? id = some execution → execution.Inv
  past : ∀ claim ∈ world.claims, PastClaim world.database claim
  unique : (world.claims.map TaskClaim.attempt).Nodup

theorem Blank.dispatched {world : World} (h : Blank world.database) (hhistory : world.history = []) :
    Dispatched world where
  consistent := h.aligned.consistent
  inv id execution hrow := by
    rw [h.executions] at hrow
    cases hrow
  past claim hclaim := by
    unfold World.claims at hclaim
    rw [hhistory] at hclaim
    cases hclaim
  unique := by
    unfold World.claims
    rw [hhistory]
    exact List.nodup_nil

section

variable {db db' : Database} {call : Call} {result : Result}

theorem PastClaim.evolve {claim : TaskClaim} (hpast : PastClaim db claim)
    (h : Evolves db db' call result) : PastClaim db' claim := by
  obtain ⟨execution, node, hrow, hnode, hle⟩ := hpast
  obtain ⟨after, hafter, hadvances⟩ := h.advances hrow
  obtain ⟨node', hnode', hle'⟩ := hadvances _ _ hnode
  refine ⟨after, node', hafter, hnode', ?_⟩
  unfold NodeExecution.NotBefore at hle'
  omega

/-- A new claim is ahead of the node as it was before. -/
theorem Evolves.new_claim (h : Evolves db db' call result) {claim : TaskClaim}
    (hclaim : claim ∈ result.claims) :
    PastClaim db' claim ∧ ∀ claim', PastClaim db claim' → claim'.attempt ≠ claim.attempt := by
  cases h with
  | same _ hresult =>
    cases result with
    | claim value =>
      cases value with
      | none => cases hclaim
      | some value => exact absurd rfl (hresult value)
    | _ => cases hclaim
  | started => cases hclaim
  | @operated _ stored after _ _ _ _ _ hrow _ heffect hperforms hexecutions =>
    cases hperforms with
    | @claimNext workerId _ token _ key leaseSeconds node claim₀ hnode hattempt htoken =>
      obtain rfl : claim = claim₀ := List.mem_singleton.mp hclaim
      obtain ⟨hid, hkey, hvisits, hattempts⟩ : claim.executionId = stored.id ∧
          claim.nodeKey = key ∧ claim.visitCount = node.visitCount ∧
          claim.attemptCount = node.attemptCount := by
        simpa [TaskClaim.attempt] using hattempt
      constructor
      · refine ⟨after, node, ?_, hkey ▸ hnode, .inr ⟨hvisits, hattempts.le⟩⟩
        rw [hexecutions, hid, Dict.get?_set_self]
      · rintro claim' ⟨execution, node', hrow', hnode', hle⟩ heq
        obtain ⟨hid', hkey', hvisits', hattempts'⟩ : claim'.executionId = claim.executionId ∧
            claim'.nodeKey = claim.nodeKey ∧ claim'.visitCount = claim.visitCount ∧
            claim'.attemptCount = claim.attemptCount := by
          simpa [TaskClaim.attempt] using heq
        obtain ⟨node₀, hnode₀, hvisits₀, hattempts₀⟩ := heffect.claim_attempt hnode
        rw [hid', hid, hrow] at hrow'
        obtain rfl := Option.some.inj hrow'
        rw [hkey', hkey, hnode₀] at hnode'
        obtain rfl := Option.some.inj hnode'
        omega
    | _ => cases hclaim

end

/-- A commit on fresh node rows hands out new attempts only. -/
theorem Dispatched.commit {isolation : Isolation} {call : Call} {result : Result}
    {held : Set RowLock} {world world' : World} (h : Dispatched world)
    (hcommits : WorldCommits isolation call result held world world')
    (hfresh : isolation.freshNodes) : Dispatched world' := by
  have hevolves := hcommits.2.evolves h.consistent hfresh
  have hclaims := World.claims_append hcommits.1
  refine ⟨(hcommits.2.spec h.consistent).1, hevolves.inv h.inv, fun claim hclaim => ?_, ?_⟩
  · rw [hclaims, List.mem_append] at hclaim
    rcases hclaim with hold | hnew
    · exact (h.past claim hold).evolve hevolves
    · exact (hevolves.new_claim hnew).1
  · rw [hclaims, List.map_append, List.nodup_append]
    refine ⟨h.unique, ?_, ?_⟩
    · cases result with
      | claim value => cases value <;> simp [Result.claims]
      | _ => exact List.nodup_nil
    · intro attempt hattempt attempt' hattempt'
      obtain ⟨claim, hclaim, rfl⟩ := List.mem_map.mp hattempt
      obtain ⟨claim', hclaim', rfl⟩ := List.mem_map.mp hattempt'
      exact (hevolves.new_claim hclaim').2 claim (h.past claim hclaim)

/-! ## 3. Recoveries -/

/-- One lease is expired, it is over, and in an execution that goes on no other node changes. -/
def RecoversExpired (db db' : Database) (now : Instant) : Prop :=
  ∃ stored key node expiresAt after calls, db.executions.get? stored.id = some stored ∧
    stored.nodes.get? key = some node ∧ node.status = .running ∧
    node.leaseExpiresAt = some expiresAt ∧ expiresAt ≤ now ∧
    engine.step stored (.expireTask key now) = (⟨.ok (), calls⟩, after) ∧
    db'.executions = db.executions.set stored.id after ∧
    (after.isTerminal = false → ∀ key', key' ≠ key →
      after.nodes.get? key' = stored.nodes.get? key')

theorem Evolves.recovers {db db' : Database} {now : Instant}
    (h : Evolves db db' (.recoverExpired now) (.recovered true)) : RecoversExpired db db' now := by
  cases h with
  | same _ _ hrecovered => exact absurd rfl hrecovered
  | @operated _ stored after _ _ _ _ calls hrow hstep heffect hperforms hexecutions =>
    cases hperforms with
    | @recoverExpired key =>
      refine ⟨stored, key, ?_⟩
      cases heffect with
      | @expireTask _ _ expiresAt node _ _ hnode _ hrunning hexpiresAt hexpired hhandled =>
        refine ⟨node, expiresAt, after, _, hrow, hnode, hrunning, hexpiresAt, hexpired, hstep,
          hexecutions, fun hlive key' hne => ?_⟩
        cases hhandled with
        | retried => exact Dict.get?_modify_of_ne _ _ hne
        | givenUp => cases hlive

/-! ## 4. Runs -/

/-- What interleaved sessions keep, as long as the node row of every candidate is unchanged when its
execution is locked. -/
theorem interleaved_dispatched (settings : Settings) {world : World} (hblank : Blank world.database)
    (hhistory : world.history = []) {inputs : List (Store.Input Call)}
    (hfresh : ∀ t ∈ (services settings).machine.trace ((services settings).initial world) inputs,
      (services settings).Guarded freshCandidate t) :
    Dispatched ((services settings).machine.run ((services settings).initial world) inputs).shared ∧
      ∀ t ∈ (services settings).machine.trace ((services settings).initial world) inputs,
        Dispatched t.before.shared ∧ SessionStep ⟨True, False⟩ t := by
  obtain ⟨-, htrace⟩ := interleaved_spec settings ⟨True, False⟩ hblank.aligned.consistent
    (fun _ => hfresh) (fun h => h.elim)
  have hkeeps : ∀ t ∈ (services settings).machine.trace ((services settings).initial world) inputs,
      Dispatched t.before.shared → Dispatched t.after.shared := by
    intro t ht hbefore
    have hstep := (htrace t ht).2
    unfold SessionStep Store.Respects at hstep
    split at hstep
    · obtain ⟨held, hcommits⟩ := hstep
      exact hbefore.commit hcommits trivial
    · rw [hstep.2]
      exact hbefore
    · rw [hstep]
      exact hbefore
  obtain ⟨hrun, hdispatched⟩ := (services settings).machine.trace_keeps
    (Q := fun c => Dispatched c.shared) (hblank.dispatched hhistory) hkeeps
  exact ⟨hrun, fun t ht => ⟨(hdispatched t ht).1, (htrace t ht).2⟩⟩

/-- Interleaved sessions on a blank database, as long as the node row of every candidate is unchanged
when its execution is locked. -/
theorem exclusive_claiming (settings : Settings) {world : World} (hblank : Blank world.database)
    (hhistory : world.history = []) {inputs : List (Store.Input Call)}
    (hfresh : ∀ t ∈ (services settings).machine.trace ((services settings).initial world) inputs,
      (services settings).Guarded freshCandidate t) :
    (((services settings).machine.run ((services settings).initial world)
      inputs).shared.claims.map TaskClaim.attempt).Nodup ∧
    ∀ t ∈ (services settings).machine.trace ((services settings).initial world) inputs, ∀ now,
      t.output = .committed (.recoverExpired now) (.recovered true) →
      RecoversExpired t.before.shared.database t.after.shared.database now := by
  obtain ⟨hrun, htrace⟩ := interleaved_dispatched settings hblank hhistory hfresh
  refine ⟨hrun.unique, fun t ht now hcommitted => ?_⟩
  obtain ⟨hdispatched, hstep⟩ := htrace t ht
  unfold SessionStep Store.Respects at hstep
  rw [hcommitted] at hstep
  obtain ⟨held, hcommits⟩ := hstep
  exact (hcommits.2.evolves hdispatched.consistent trivial).recovers

/-- Two workers claim the one task that is ready; `queryFirst` statements of the first come before the
second. -/
def claimAndClaim (queryFirst : ℕ) : List (Store.Input Call) :=
  .«open» 0 requestTask :: List.replicate 12 (.advance 0) ++
    .«open» 1 startTask :: List.replicate 20 (.advance 1) ++
    .«open» 2 (.claimNext "a" none 77 2) :: List.replicate queryFirst (.advance 2) ++
    .«open» 3 (.claimNext "b" none 78 2) :: List.replicate 12 (.advance 3) ++
    List.replicate 12 (.advance 2)

abbrev claimTrace (queryFirst : ℕ) :=
  (services lenient).machine.trace ((services lenient).initial oneProject)
    (claimAndClaim queryFirst)

/-- `freshCandidate` as a test. -/
def locksFresh (_ : Call) (world : World) (_ : UnitOfWork) (statement : Statement) : Bool :=
  match statement with
  | .lockCandidate candidate =>
    (world.database.executions.get? candidate.executionId).all fun stored =>
      stored.nodes.get? candidate.node.nodeKey = some candidate.node
  | _ => true

theorem freshCandidate_of_locks {call : Call} {world : World} {unitOfWork : UnitOfWork}
    {statement : Statement} (h : locksFresh call world unitOfWork statement = true) :
    freshCandidate call world unitOfWork statement := by
  rintro candidate stored rfl hrow
  simpa [locksFresh, hrow] using h

/-- The first worker claims the task before the second one asks. -/
theorem exclusive_claiming_claimAndClaim :
    ((services lenient).machine.run ((services lenient).initial oneProject)
      (claimAndClaim 12)).shared.claims.map TaskClaim.attempt = [(30, "work", 1, 1)] ∧
    (((services lenient).machine.run ((services lenient).initial oneProject)
      (claimAndClaim 12)).shared.claims.map TaskClaim.attempt).Nodup := by
  have hmeets : ∀ t ∈ claimTrace 12, (services lenient).meets locksFresh t = true := by
    decide +kernel
  refine ⟨by decide +kernel, ?_⟩
  exact (exclusive_claiming lenient blank_oneProject rfl fun t ht =>
    Store.guarded_of_meets (fun _ _ _ _ => freshCandidate_of_locks) (hmeets t ht)).1

/-- The first worker queries for a candidate, the second claims it, and the first claims it again. -/
theorem attempt_claimed_twice :
    ¬∀ (settings : Settings) (world : World), Blank world.database → world.history = [] →
      ∀ inputs, (((services settings).machine.run ((services settings).initial world)
        inputs).shared.claims.map TaskClaim.attempt).Nodup := by
  intro hclaim
  have htwice : ((services lenient).machine.run ((services lenient).initial oneProject)
      (claimAndClaim 1)).shared.claims.map TaskClaim.attempt =
        [(30, "work", 1, 1), (30, "work", 1, 1)] := by
    decide +kernel
  have hunique := hclaim lenient oneProject blank_oneProject rfl (claimAndClaim 1)
  rw [htwice] at hunique
  simp at hunique

end JbOrchestrator.Application
