import JbOrchestrator.Lib.Machine
import JbOrchestrator.Outbox.Tables

/-!
# Histories — ledgers and retries over whole runs

A machine `Serves` a policy when every input is a step of its table.  Then every run keeps the ledgers
and bounds the automatic retries; the two services only have to show that they serve.
-/

open Lib

namespace JbOrchestrator.Outbox

open Domain Workflows Application

variable {Code Info ι ο : Type} {policy : Policy Code}

/-! ## 1. Ledgers -/

/-- The ledger of a job: numbered attempts, of which only the latest may be open. -/
structure Ledgered (job : Job Code) (attempts : List (Attempt Code)) : Prop where
  numbered : Numbered Attempt.attemptNumber attempts job.attemptCount
  single : (attempts.filter fun attempt => attempt.status = .claimed).length ≤ 1
  latest : ∀ attempt ∈ attempts, attempt.status = .claimed →
    attempt.attemptNumber = job.attemptCount ∧ job.status = .claimed ∧
      job.leaseToken = some attempt.leaseToken
  current : job.status = .claimed → ∃ attempt ∈ attempts, attempt.status = .claimed
  finished : ∀ attempt ∈ attempts, attempt.attemptNumber < job.attemptCount →
    attempt.status ≠ .claimed ∧ attempt.finishedAt.isSome

theorem Sound.ledgered {job : Job Code} {attempts : List (Attempt Code)} (h : Sound job attempts)
    (hsettled : Settled job attempts) : Ledgered job attempts where
  numbered := h.numbered
  single := by
    have hlatest : ∀ attempt ∈ attempts, decide (attempt.status = .claimed) = true →
        job.attemptCount ≤ attempt.attemptNumber ∧ attempt.attemptNumber ≤ job.attemptCount := by
      intro attempt hattempt hopen
      have hnumber := (hsettled attempt hattempt (of_decide_eq_true hopen)).2
      omega
    have hcount := h.numbered.length_filter_le _ hlatest
    omega
  latest attempt hattempt hopen := by
    obtain ⟨hclaimed, hnumber⟩ := hsettled attempt hattempt hopen
    obtain ⟨current, hcurrent, hcurrentNumber, -, htoken⟩ := h.current hclaimed
    have hsame := h.numbered.inj hattempt hcurrent (hnumber.trans hcurrentNumber.symm)
    exact ⟨hnumber, hclaimed, hsame ▸ htoken⟩
  current hclaimed := by
    obtain ⟨attempt, hattempt, -, hopen, -⟩ := h.current hclaimed
    exact ⟨attempt, hattempt, hopen⟩
  finished attempt hattempt hnumber := by
    have hclosed : attempt.status ≠ .claimed := fun hopen =>
      absurd (hsettled attempt hattempt hopen).2 (by omega)
    exact ⟨hclosed, h.finished attempt hattempt hclosed⟩

theorem Ledgered.settled {job : Job Code} {attempts : List (Attempt Code)}
    (h : Ledgered job attempts) : Settled job attempts := by
  intro attempt hattempt hopen
  obtain ⟨hnumber, hclaimed, -⟩ := h.latest attempt hattempt hopen
  exact ⟨hclaimed, hnumber⟩

/-- Every job is settled. -/
def Table.Settled (table : Table Code Info) : Prop :=
  ∀ id entry, table.jobs.get? id = some entry → Outbox.Settled entry.job (table.ledger id)

theorem Table.Settled.empty : Table.Settled ({} : Table Code Info) := by
  intro id entry h
  simp at h

/-- No lease is taken over without closing its attempt. -/
def Table.Secures (policy : Policy Code) (scope : Scope) (table : Table Code Info) : Prop :=
  policy.closesExpired = none → ∀ id entry, table.jobs.get? id = some entry →
    entry.job.status = .claimed → ¬scope.claims id

theorem TableStep.settled {scope : Scope} {table table' : Table Code Info} (hvalid : table.Valid)
    (hsettled : table.Settled) (hsecures : table.Secures policy scope)
    (hstep : TableStep policy scope table table') : table'.Settled := by
  intro id entry hentry
  cases hstep id with
  | kept hjob hledger =>
    rw [hjob] at hentry
    rw [hledger]
    exact hsettled id entry hentry
  | added hnone _ _ _ hledger =>
    rw [hledger, hvalid.closed id hnone]
    exact List.forall_mem_nil _
  | @stepped before _ hbefore hafter _ hstep _ hcount =>
    obtain rfl := Option.some.inj (hafter.symm.trans hentry)
    exact hstep.settled (hsettled id before hbefore) fun hnone hclaimed =>
      hcount (hsecures hnone id before hbefore hclaimed)

/-- Every job keeps its ledger. -/
def Table.Ledgered (table : Table Code Info) : Prop :=
  ∀ id entry, table.jobs.get? id = some entry → Outbox.Ledgered entry.job (table.ledger id)

theorem Table.Valid.of_mem {table : Table Code Info} (h : table.Valid) {id : UUID}
    {attempt : Attempt Code} (hattempt : attempt ∈ table.ledger id) :
    ∃ entry, table.jobs.get? id = some entry ∧ Sound entry.job (table.ledger id) := by
  cases hentry : table.jobs.get? id with
  | none =>
    rw [h.closed id hentry] at hattempt
    cases hattempt
  | some entry => exact ⟨entry, rfl, (h.sound id entry hentry).2⟩

theorem Table.Valid.ledgered {table : Table Code Info} (h : table.Valid)
    (hsettled : table.Settled) : table.Ledgered :=
  fun id entry hentry => (h.sound id entry hentry).2.ledgered (hsettled id entry hentry)

theorem JobStep.count_le {job job' : Job Code} {attempts attempts' : List (Attempt Code)}
    (hstep : JobStep policy job attempts job' attempts') : job.attemptCount ≤ job'.attemptCount := by
  cases hstep with
  | claimed _ hclaim =>
    rw [(Job.claim_ok hclaim).count]
    exact Nat.le_succ _
  | succeeded hsucceed => exact (Job.succeed_ok hsucceed).2.2.1.ge
  | failed hfail => exact (Job.fail_ok hfail).2.2.1.ge
  | retried hretry => exact (Job.retry_ok hretry).2.2.1.ge
  | cancelled hcancel => exact (Job.cancelAutomaticRetry_ok hcancel).2.2.1.ge

/-- The latest attempt of a claimed job stays open as long as the job keeps this claim. -/
def Together (table' : Table Code Info) (id : UUID) (job : Job Code) : Prop :=
  ∃ entry', table'.jobs.get? id = some entry' ∧
    ∃ attempt ∈ table'.ledger id, attempt.attemptNumber = job.attemptCount ∧
      (attempt.status = .claimed ↔
        entry'.job.status = .claimed ∧ entry'.job.attemptCount = job.attemptCount)

theorem TableStep.together {scope : Scope} {table table' : Table Code Info} {id : UUID}
    {entry : Entry Code Info} (hvalid : table.Valid) (hledgered : table'.Ledgered)
    (hstep : TableStep policy scope table table') (hentry : table.jobs.get? id = some entry)
    (hclaimed : entry.job.status = .claimed) : Together table' id entry.job := by
  have hafter : ∃ entry', table'.jobs.get? id = some entry' ∧
      entry.job.attemptCount ≤ entry'.job.attemptCount := by
    cases hstep id with
    | kept hjob => exact ⟨entry, hjob.trans hentry, le_rfl⟩
    | added hnone =>
      rw [hentry] at hnone
      cases hnone
    | stepped hbefore hafter _ hstep _ _ =>
      obtain rfl := Option.some.inj (hentry.symm.trans hbefore)
      exact ⟨_, hafter, hstep.count_le⟩
  obtain ⟨entry', hentry', hcount⟩ := hafter
  have hledger := hledgered id entry' hentry'
  have hstarted := (hvalid.sound id entry hentry).2.started (by rw [hclaimed]; decide)
  obtain ⟨attempt, hattempt, hnumber⟩ := hledger.numbered.exists_mem hstarted hcount
  refine ⟨entry', hentry', attempt, hattempt, hnumber, fun hopen => ?_, fun ⟨hopen, hsame⟩ => ?_⟩
  · obtain ⟨hlatest, hstatus, -⟩ := hledger.latest attempt hattempt hopen
    exact ⟨hstatus, hlatest.symm.trans hnumber⟩
  · obtain ⟨current, hcurrent, hcurrentOpen⟩ := hledger.current hopen
    have hlatest := (hledger.latest current hcurrent hcurrentOpen).1
    rw [hledger.numbered.inj hattempt hcurrent (hnumber.trans (hsame.symm.trans hlatest.symm))]
    exact hcurrentOpen

/-- A lease that is taken over without closing its attempt breaks the ledger. -/
theorem claimNext_takeover {table : Table Code Info} {eligible : Info → Bool} {locked : UUID → Bool}
    {workerId : String} {leaseSeconds : ℤ} {token : UUID} {at_ : Instant} {entry : Entry Code Info}
    (hpolicy : policy.closesExpired = none) (hvalid : table.Valid)
    (hcandidate : table.candidate eligible locked at_ = some entry)
    (hclaimed : entry.job.status = .claimed) (hworker : Text.isBlank workerId = false)
    (hlease : 0 < leaseSeconds) :
    ∃ answer table', claimNext policy table eligible locked workerId leaseSeconds token at_ =
      .ok (some answer, table') ∧ answer.info = entry.info ∧ ¬table'.Ledgered := by
  obtain ⟨⟨id, hentry⟩, -, hclaimable⟩ := Table.candidate_some hcandidate
  obtain ⟨rfl, hsound⟩ := hvalid.sound id entry hentry
  have hsucceeds : ∃ answer table', claimEntry policy table entry workerId leaseSeconds token at_ =
      .ok (answer, table') := by
    apply claimEntry_succeeds _ hvalid hentry hclaimable hworker hlease
    intro code reason hclose
    rw [hpolicy] at hclose
    cases hclose
  obtain ⟨answer, table', hclaim⟩ := hsucceeds
  obtain ⟨job, trigger, recovered, attempt, hjob, rfl, hjobs, -, hledger, hrecovers, -⟩ :=
    claimEntry_ok hvalid hentry hclaim
  have hget := (hjobs entry.job.id).trans (if_pos rfl)
  refine ⟨{ entry with job }, table', ?_, rfl, fun hledgered => ?_⟩
  · unfold claimNext
    rw [hcandidate]
    simp only [hclaim, bind, Except.bind]
  · -- the attempt of the old lease is still open and no longer the latest
    have hfinished := (hledgered entry.job.id _ hget).finished
    rw [hledger] at hfinished
    obtain ⟨previous, hprevious, hnumber, hopen, -⟩ := hsound.current hclaimed
    cases hrecovers with
    | kept =>
      refine (hfinished previous (List.mem_append_left _ hprevious) ?_).1 hopen
      change previous.attemptNumber < job.attemptCount
      rw [(Job.claim_ok hjob).count]
      omega
    | closed hcloses => exact hcloses hpolicy

/-! ## 2. Runs -/

/-- Every input of the machine is a step of its table. -/
structure Serves (policy : Policy Code) (scope : Table Code Info → ι → Scope)
    (M : Machine (Table Code Info) ι ο) : Prop where
  step : ∀ table i, table.Valid → TableStep policy (scope table i) table (M.step table i).2

namespace Serves

variable {scope : Table Code Info → ι → Scope} {M : Machine (Table Code Info) ι ο}
  (h : Serves policy scope M)
include h

theorem valid_step (table : Table Code Info) (i : ι) (hvalid : table.Valid) :
    (M.step table i).2.Valid :=
  (h.step table i hvalid).valid hvalid

theorem valid_run (inputs : List ι) : (M.run {} inputs).Valid :=
  M.run_invariant h.valid_step .empty inputs

theorem trace_step {inputs : List ι} {t : Transition (Table Code Info) ι ο}
    (ht : t ∈ M.trace {} inputs) :
    t.before.Valid ∧ TableStep policy (scope t.before t.input) t.before t.after := by
  obtain ⟨hvalid, heq⟩ := M.trace_invariant h.valid_step .empty ht
  have hstep := h.step t.before t.input hvalid
  rw [← M.fire_after, ← heq] at hstep
  exact ⟨hvalid, hstep⟩

/-- A run that secures its leases keeps every ledger, at its end and around every step. -/
theorem ledgered_run {inputs : List ι} (hsecures : ∀ t ∈ M.trace {} inputs,
      t.before.Secures policy (scope t.before t.input)) :
    (M.run {} inputs).Ledgered ∧
      ∀ t ∈ M.trace {} inputs, t.before.Ledgered ∧ t.after.Ledgered := by
  have hsettled : (M.run {} inputs).Settled ∧
      ∀ t ∈ M.trace {} inputs, t.before.Settled ∧ t.after.Settled :=
    M.trace_keeps .empty fun t ht hbefore => by
      obtain ⟨hvalid, hstep⟩ := h.trace_step ht
      exact hstep.settled hvalid hbefore (hsecures t ht)
  refine ⟨(h.valid_run inputs).ledgered hsettled.1, fun t ht => ?_⟩
  obtain ⟨hvalid, hstep⟩ := h.trace_step ht
  exact ⟨hvalid.ledgered (hsettled.2 t ht).1, (hstep.valid hvalid).ledgered (hsettled.2 t ht).2⟩

end Serves

/-! ## 3. Automatic retries -/

section

variable {job job' : Job Code} {attempts attempts' : List (Attempt Code)} {attempt : Attempt Code}

/-- Attempts that a claim did not add were there before, under the same trigger. -/
theorem JobStep.old_attempt (hstep : JobStep policy job attempts job' attempts') (hattempt : attempt ∈ attempts')
    (hnumber : attempt.attemptNumber ≤ job.attemptCount) :
    ∃ old ∈ attempts, old.attemptNumber = attempt.attemptNumber ∧ old.trigger = attempt.trigger := by
  have hclosed {previous closed : Attempt Code} (hprevious : previous ∈ attempts)
      (hcloses : Closes previous closed) (hmem : attempt ∈ replace attempts closed) :
      ∃ old ∈ attempts, old.attemptNumber = attempt.attemptNumber ∧
        old.trigger = attempt.trigger := by
    rcases mem_replace hmem with rfl | ⟨hold, -⟩
    · exact ⟨previous, hprevious, hcloses.number.symm, hcloses.trigger.symm⟩
    · exact ⟨attempt, hold, rfl, rfl⟩
  cases hstep with
  | claimed _ hclaim hrecovers hopens =>
    rcases List.mem_append.mp hattempt with hrecovered | hnew
    · cases hrecovers with
      | kept => exact ⟨attempt, hrecovered, rfl, rfl⟩
      | closed _ hprevious _ hcloses => exact hclosed hprevious hcloses hrecovered
    · rw [List.mem_singleton.mp hnew, hopens.number, (Job.claim_ok hclaim).count] at hnumber
      omega
  | succeeded _ hprevious _ hcloses => exact hclosed hprevious hcloses hattempt
  | failed _ hprevious _ hcloses => exact hclosed hprevious hcloses hattempt
  | retried => exact ⟨attempt, hattempt, rfl, rfl⟩
  | cancelled => exact ⟨attempt, hattempt, rfl, rfl⟩

/-- A new automatic attempt comes from a schedule, within the limit that is stored with it. -/
theorem JobStep.new_automatic (h : Sound job attempts)
    (hstep : JobStep policy job attempts job' attempts') (hattempt : attempt ∈ attempts')
    (hnew : job.attemptCount < attempt.attemptNumber) (htrigger : attempt.trigger = .automatic) :
    job.nextAttemptAt ≠ none ∧ job'.automaticRetryLimit = job.automaticRetryLimit ∧
      (attempt.attemptNumber : ℤ) ≤ job.automaticRetryLimit + 1 := by
  have hbound := ((hstep.sound h).numbered.bounds hattempt).2
  cases hstep with
  | @claimed workerId leaseSeconds token at_ _ trigger recovered added hclaimable hclaim hrecovers
      hopens =>
    have hclaimed := Job.claim_ok hclaim
    rw [hclaimed.count] at hbound
    have hadded : attempt = added := by
      rcases List.mem_append.mp hattempt with hrecovered | hadded
      · have hold := ((hrecovers.spec h).1.bounds hrecovered).2
        omega
      · exact List.mem_singleton.mp hadded
    rw [hadded, hopens.trigger, hclaimed.trigger] at htrigger
    rcases Job.claimTrigger_cases hclaimable with hcase | ⟨-, -, hscheduled⟩ | hcase | hcase
    · rw [hcase.1] at htrigger
      cases htrigger
    · have hlimit := ((h.new_trigger hclaimable).2 htrigger).2
      refine ⟨fun hnone => ?_, hclaimed.limit, by omega⟩
      unfold Job.scheduledRetry at hscheduled
      rw [hnone] at hscheduled
      simp at hscheduled
    · rw [hcase.1] at htrigger
      cases htrigger
    · rw [hcase.1] at htrigger
      cases htrigger
  | succeeded hsucceed =>
    rw [(Job.succeed_ok hsucceed).2.2.1] at hbound
    omega
  | failed hfail =>
    rw [(Job.fail_ok hfail).2.2.1] at hbound
    omega
  | retried hretry =>
    rw [(Job.retry_ok hretry).2.2.1] at hbound
    omega
  | cancelled hcancel =>
    rw [(Job.cancelAutomaticRetry_ok hcancel).2.2.1] at hbound
    omega

end

/-- No attempt after the first `count` ones is automatic. -/
def NoAutomatic (table : Table Code Info) (id : UUID) (count : ℕ) : Prop :=
  ∀ attempt ∈ table.ledger id, attempt.trigger = .automatic → attempt.attemptNumber ≤ count

/-- Without a schedule and without a new failure, no automatic attempt starts. -/
theorem TableStep.noAutomatic {scope : Scope} {table table' : Table Code Info} {id : UUID} {count : ℕ}
    (hvalid : table.Valid) (hstep : TableStep policy scope table table')
    (hunscheduled : Unscheduled table id) (hnone : NoAutomatic table id count)
    (hfails : ¬scope.fails id) : Unscheduled table' id ∧ NoAutomatic table' id count := by
  obtain ⟨entry, hentry, hnext⟩ := hunscheduled
  cases hstep id with
  | kept hjob hledger =>
    unfold Unscheduled NoAutomatic
    rw [hjob, hledger]
    exact ⟨⟨entry, hentry, hnext⟩, hnone⟩
  | added habsent =>
    rw [hentry] at habsent
    cases habsent
  | @stepped before entry' hbefore hafter _ hstep hschedule _ =>
    obtain rfl := Option.some.inj (hentry.symm.trans hbefore)
    have hsound := (hvalid.sound id entry hentry).2
    refine ⟨⟨entry', hafter, ?_⟩, fun attempt hattempt htrigger => ?_⟩
    · rcases hschedule hfails with hnone | hsame
      · exact hnone
      · exact hsame.trans hnext
    · by_cases hnew : entry.job.attemptCount < attempt.attemptNumber
      · exact absurd hnext (hstep.new_automatic hsound hattempt hnew htrigger).1
      · obtain ⟨old, hold, hnumber, holdTrigger⟩ :=
          hstep.old_attempt hattempt (Nat.not_lt.mp hnew)
        rw [← hnumber]
        exact hnone old hold (holdTrigger.trans htrigger)

/-- The bounds on automatic retries, over all runs. -/
structure BoundedRetries (M : Machine (Table Code Info) ι ο) (fails resets : ι → UUID → Prop)
    (accepted : ο → Prop) : Prop where
  initial : ∀ inputs id, ∀ attempt ∈ (M.run {} inputs).ledger id,
    attempt.trigger = .initial ↔ attempt.attemptNumber = 1
  /-- An automatic attempt starts from a schedule, within the limit that is stored when it starts. -/
  automatic : ∀ inputs, ∀ t ∈ M.trace {} inputs, ∀ id entry entry',
    t.before.jobs.get? id = some entry → t.after.jobs.get? id = some entry' →
    ∀ attempt ∈ t.after.ledger id, entry.job.attemptCount < attempt.attemptNumber →
      attempt.trigger = .automatic → entry.job.nextAttemptAt ≠ none ∧
        entry'.job.automaticRetryLimit = entry.job.automaticRetryLimit ∧
        (attempt.attemptNumber : ℤ) ≤ entry'.job.automaticRetryLimit + 1 ∧
        entry'.job.automaticRetryLimit + 1 ≤ 11
  number : ∀ inputs id, ∀ attempt ∈ (M.run {} inputs).ledger id, attempt.trigger = .automatic →
    attempt.attemptNumber ≤ 11
  atMostTen : ∀ inputs id, (((M.run {} inputs).ledger id).filter fun attempt =>
    attempt.trigger = .automatic).length ≤ 10
  schedule : ∀ inputs id entry, (M.run {} inputs).jobs.get? id = some entry →
    entry.job.nextAttemptAt ≠ none → entry.job.status = .failed ∧
      entry.job.failureRetryable = some true ∧
      (entry.job.attemptCount : ℤ) ≤ entry.job.automaticRetryLimit
  /-- A manual retry and a cancel clear the schedule. -/
  cleared : ∀ inputs, ∀ t ∈ M.trace {} inputs, ∀ id, resets t.input id → accepted t.output →
    Unscheduled t.after id
  /-- After that no automatic attempt starts before the job fails again. -/
  afterwards : ∀ inputs later id, Unscheduled (M.run {} inputs) id → (∀ i ∈ later, ¬fails i id) →
    ∀ attempt ∈ (M.run {} (inputs ++ later)).ledger id, attempt.trigger = .automatic →
      ∃ entry, (M.run {} inputs).jobs.get? id = some entry ∧
        attempt.attemptNumber ≤ entry.job.attemptCount

theorem Serves.boundedRetries {scope : Table Code Info → ι → Scope}
    {M : Machine (Table Code Info) ι ο} (h : Serves policy scope M) {fails resets : ι → UUID → Prop}
    {accepted : ο → Prop} (hfails : ∀ table i id, ¬fails i id → ¬(scope table i).fails id)
    (hresets : ∀ table i id, table.Valid → resets i id → accepted (M.step table i).1 →
      Unscheduled (M.step table i).2 id) : BoundedRetries M fails resets accepted where
  initial inputs id attempt hattempt := by
    obtain ⟨entry, hsound⟩ := (h.valid_run inputs).of_mem hattempt
    exact hsound.2.initial attempt hattempt
  automatic inputs t ht id entry entry' hentry hentry' attempt hattempt hnew htrigger := by
    obtain ⟨hvalid, hstep⟩ := h.trace_step ht
    have hsound := (hvalid.sound id entry hentry).2
    cases hstep id with
    | kept hjob hledger =>
      rw [hledger] at hattempt
      have hbound := (hsound.numbered.bounds hattempt).2
      omega
    | added habsent =>
      rw [hentry] at habsent
      cases habsent
    | stepped hbefore hafter _ hstep _ _ =>
      obtain rfl := Option.some.inj (hentry.symm.trans hbefore)
      obtain rfl := Option.some.inj (hentry'.symm.trans hafter)
      obtain ⟨hnext, hlimit, hnumber⟩ := hstep.new_automatic hsound hattempt hnew htrigger
      have hmax := hsound.limit.2
      rw [hlimit]
      exact ⟨hnext, rfl, hnumber, by unfold maxAutomaticRetryLimit at hmax; omega⟩
  number inputs id attempt hattempt htrigger := by
    obtain ⟨entry, hsound⟩ := (h.valid_run inputs).of_mem hattempt
    have hnumber := (hsound.2.automatic attempt hattempt htrigger).2
    unfold maxAutomaticRetryLimit at hnumber
    omega
  atMostTen inputs id := by
    have hvalid := h.valid_run inputs
    cases hentry : (M.run {} inputs).jobs.get? id with
    | none => simp [hvalid.closed id hentry]
    | some entry =>
      have hsound := (hvalid.sound id entry hentry).2
      have hbounds : ∀ attempt ∈ (M.run {} inputs).ledger id,
          decide (attempt.trigger = .automatic) = true →
            2 ≤ attempt.attemptNumber ∧ attempt.attemptNumber ≤ 11 := by
        intro attempt hattempt htrigger
        have hnumber := hsound.automatic attempt hattempt (of_decide_eq_true htrigger)
        unfold maxAutomaticRetryLimit at hnumber
        omega
      exact hsound.numbered.length_filter_le _ hbounds
  schedule inputs id entry hentry hnext :=
    ((h.valid_run inputs).sound id entry hentry).2.schedule hnext
  cleared inputs t ht id hreset haccepted := by
    obtain ⟨hvalid, heq⟩ := M.trace_invariant h.valid_step .empty ht
    rw [heq] at haccepted ⊢
    exact hresets t.before t.input id hvalid hreset haccepted
  afterwards inputs later id hunscheduled hlater attempt hattempt htrigger := by
    obtain ⟨entry, hentry, hnext⟩ := hunscheduled
    have hsound := ((h.valid_run inputs).sound id entry hentry).2
    have hrun := M.run_among (Q := fun table => table.Valid ∧ Unscheduled table id ∧
        NoAutomatic table id entry.job.attemptCount)
      ⟨h.valid_run inputs, ⟨entry, hentry, hnext⟩,
        fun old hold _ => (hsound.numbered.bounds hold).2⟩
      fun table i hi ⟨hvalid, hunscheduled, hnone⟩ =>
        ⟨h.valid_step table i hvalid, (h.step table i hvalid).noAutomatic hvalid hunscheduled hnone
          (hfails table i id (hlater i hi))⟩
    rw [M.run_append] at hattempt
    exact ⟨entry, hentry, hrun.2.2 attempt hattempt htrigger⟩

end JbOrchestrator.Outbox
