import JbOrchestrator.Outbox.Jobs

/-!
# Ledgers — a job and its attempts

`JobStep` lists what the services do to a job and to its attempts; `Sound` and `Settled` are kept by
every such step.  `Settled` needs a policy that closes the attempt of an expired lease, or a run in
which no lease is taken over.
-/

open Lib

namespace JbOrchestrator.Outbox

open Domain Workflows Application

variable {Code Info : Type} {policy : Policy Code}

/-! ## 1. Steps -/

/-- The attempt under its number, with another record. -/
def replace (attempts : List (Attempt Code)) (attempt : Attempt Code) : List (Attempt Code) :=
  attempts.map fun other => if other.attemptNumber = attempt.attemptNumber then attempt else other

/-- `closed` is how the open attempt `previous` ended. -/
structure Closes (previous closed : Attempt Code) : Prop where
  jobId : closed.jobId = previous.jobId
  number : closed.attemptNumber = previous.attemptNumber
  trigger : closed.trigger = previous.trigger
  open_ : previous.status = .claimed
  status : closed.status ≠ .claimed
  finished : closed.finishedAt.isSome

/-- What a claim does to the attempts that are there. -/
inductive Recovers (policy : Policy Code) (trigger : AttemptTrigger) (number : ℕ)
    (attempts : List (Attempt Code)) : List (Attempt Code) → Prop where
  | kept (h : trigger = .leaseRecovery → policy.closesExpired = none ∨
      ∀ previous ∈ attempts, previous.attemptNumber = number → previous.status ≠ .claimed) :
    Recovers policy trigger number attempts attempts
  | closed {previous closed : Attempt Code} (hpolicy : policy.closesExpired ≠ none)
    (hprevious : previous ∈ attempts) (hnumber : previous.attemptNumber = number)
    (hcloses : Closes previous closed) :
    Recovers policy trigger number attempts (replace attempts closed)

/-- A new attempt of the job. -/
structure Opens (job : Job Code) (trigger : AttemptTrigger) (attempt : Attempt Code) : Prop where
  number : attempt.attemptNumber = job.attemptCount
  trigger : attempt.trigger = trigger
  status : attempt.status = .claimed
  token : job.leaseToken = some attempt.leaseToken

inductive JobStep (policy : Policy Code) (job : Job Code) (attempts : List (Attempt Code)) :
    Job Code → List (Attempt Code) → Prop where
  | claimed {workerId : String} {leaseSeconds : ℤ} {token : UUID} {at_ : Instant} {job' : Job Code}
    {trigger : AttemptTrigger} {recovered : List (Attempt Code)} {attempt : Attempt Code}
    (hclaimable : job.claimable at_ = true)
    (hclaim : job.claim policy workerId leaseSeconds token at_ = .ok (job', trigger))
    (hrecovers : Recovers policy trigger job.attemptCount attempts recovered)
    (hopens : Opens job' trigger attempt) :
    JobStep policy job attempts job' (recovered ++ [attempt])
  | succeeded {token : UUID} {result : JsonObject} {at_ : Instant} {job' : Job Code}
    {previous closed : Attempt Code} (hsucceed : job.succeed policy token result at_ = .ok job')
    (hprevious : previous ∈ attempts) (hnumber : previous.attemptNumber = job.attemptCount)
    (hcloses : Closes previous closed) :
    JobStep policy job attempts job' (replace attempts closed)
  | failed {token : UUID} {reason : String} {code : Code} {retryable : Bool}
    {automaticRetryLimit : ℤ} {nextAttemptAt : Option Instant} {at_ : Instant} {job' : Job Code}
    {previous closed : Attempt Code}
    (hfail : job.fail policy token reason code retryable automaticRetryLimit nextAttemptAt at_ =
      .ok job')
    (hprevious : previous ∈ attempts) (hnumber : previous.attemptNumber = job.attemptCount)
    (hcloses : Closes previous closed) :
    JobStep policy job attempts job' (replace attempts closed)
  | retried {at_ : Instant} {job' : Job Code} (hretry : job.retry policy at_ = .ok job') :
    JobStep policy job attempts job' attempts
  | cancelled {at_ : Instant} {job' : Job Code}
    (hcancel : job.cancelAutomaticRetry policy at_ = .ok (some job')) :
    JobStep policy job attempts job' attempts

/-! ## 2. What the methods of a job do -/

section

variable {job job' : Job Code} {at_ : Instant}

/-- The fields after a claim. -/
structure ClaimedFrom (job : Job Code) (workerId : String) (token : UUID) (at_ : Instant)
    (job' : Job Code) (trigger : AttemptTrigger) : Prop where
  status : job'.status = .claimed
  token : job'.leaseToken = some token
  count : job'.attemptCount = job.attemptCount + 1
  limit : job'.automaticRetryLimit = job.automaticRetryLimit
  schedule : job'.nextAttemptAt = none ∨
    job'.nextAttemptAt = job.nextAttemptAt ∧ job.scheduledRetry at_ = false
  trigger : trigger = job.claimTrigger at_
  id : job'.id = job.id
  worker : job'.workerId = some (Text.strip workerId)

theorem Job.claim_ok {workerId : String} {leaseSeconds : ℤ} {token : UUID}
    {trigger : AttemptTrigger}
    (h : job.claim policy workerId leaseSeconds token at_ = .ok (job', trigger)) :
    ClaimedFrom job workerId token at_ job' trigger := by
  unfold Job.claim at h
  split at h
  · cases h
  split at h
  · cases h
  obtain ⟨rfl, rfl⟩ := Prod.mk.inj (Except.ok.inj h)
  refine ⟨rfl, rfl, rfl, rfl, ?_, rfl, rfl, rfl⟩
  cases hscheduled : job.scheduledRetry at_ with
  | true => exact .inl (by simp)
  | false => exact .inr ⟨by simp, rfl⟩

theorem Job.claim_arguments {workerId : String} {leaseSeconds : ℤ} {token : UUID}
    {trigger : AttemptTrigger}
    (h : job.claim policy workerId leaseSeconds token at_ = .ok (job', trigger)) :
    Text.isBlank workerId = false ∧ 0 < leaseSeconds := by
  unfold Job.claim at h
  split at h
  · cases h
  split at h
  · cases h
  · rename_i hguard
    rw [not_or, Bool.not_eq_true, not_le] at hguard
    exact hguard

theorem Job.retry_ok (h : job.retry policy at_ = .ok job') :
    job.status = .failed ∧ job'.status = .pending ∧ job'.attemptCount = job.attemptCount ∧
      job'.automaticRetryLimit = 0 ∧ job'.nextAttemptAt = none ∧ job'.id = job.id := by
  unfold Job.retry at h
  split at h
  · cases h
  · rename_i hstatus
    obtain rfl := Except.ok.inj h
    exact ⟨not_not.mp hstatus, rfl, rfl, rfl, rfl, rfl⟩

theorem Job.cancelAutomaticRetry_ok (h : job.cancelAutomaticRetry policy at_ = .ok (some job')) :
    job.status = .failed ∧ job'.status = .failed ∧ job'.attemptCount = job.attemptCount ∧
      job'.automaticRetryLimit = 0 ∧ job'.nextAttemptAt = none ∧ job'.id = job.id := by
  unfold Job.cancelAutomaticRetry at h
  split at h
  · cases h
  split at h
  · cases h
  · rename_i hstatus _
    obtain rfl := Option.some.inj (Except.ok.inj h)
    exact ⟨not_not.mp hstatus, not_not.mp hstatus, rfl, rfl, rfl, rfl⟩

theorem Job.owned_iff {leaseToken : UUID} :
    job.owned leaseToken = true ↔ job.status = .claimed ∧ job.leaseToken = some leaseToken := by
  simp [Job.owned]

theorem Job.succeed_ok {leaseToken : UUID} {result : JsonObject}
    (h : job.succeed policy leaseToken result at_ = .ok job') :
    (job.status = .claimed ∧ job.leaseToken = some leaseToken) ∧ job'.status = .succeeded ∧
      job'.attemptCount = job.attemptCount ∧
      job'.automaticRetryLimit = job.automaticRetryLimit ∧
      (job'.nextAttemptAt = none ∨ job'.nextAttemptAt = job.nextAttemptAt) ∧ job'.id = job.id := by
  unfold Job.succeed at h
  split at h
  · cases h
  · rename_i howned
    obtain rfl := Except.ok.inj h
    refine ⟨Job.owned_iff.mp (by simpa using howned), rfl, rfl, rfl, ?_, rfl⟩
    cases policy.forgetsSchedule with
    | true => exact .inl rfl
    | false => exact .inr rfl

theorem Job.fail_ok {leaseToken : UUID} {reason : String} {code : Code} {retryable : Bool}
    {automaticRetryLimit : ℤ} {nextAttemptAt : Option Instant}
    (h : job.fail policy leaseToken reason code retryable automaticRetryLimit nextAttemptAt at_ =
      .ok job') :
    (job.status = .claimed ∧ job.leaseToken = some leaseToken) ∧ job'.status = .failed ∧
      job'.attemptCount = job.attemptCount ∧ job'.failureRetryable = some retryable ∧
      job'.automaticRetryLimit = automaticRetryLimit ∧ job'.nextAttemptAt = nextAttemptAt ∧
      (0 ≤ automaticRetryLimit ∧ automaticRetryLimit ≤ maxAutomaticRetryLimit) ∧
      (nextAttemptAt ≠ none → retryable = true ∧
        (job.attemptCount : ℤ) ≤ automaticRetryLimit) ∧ job'.id = job.id := by
  unfold Job.fail at h
  split at h
  · cases h
  split at h
  · cases h
  split at h
  · cases h
  split at h
  · cases h
  rename_i howned _ hlimit havailable
  obtain rfl := Except.ok.inj h
  refine ⟨Job.owned_iff.mp (by simpa using howned), rfl, rfl, rfl, rfl, rfl, not_not.mp hlimit,
    fun hnext => ?_, rfl⟩
  rw [not_and_or, not_or, Bool.not_eq_false, not_lt] at havailable
  rcases havailable with hnone | havailable
  · exact absurd hnext hnone
  · exact havailable

/-- A claim is initial, manual, automatic or a recovery by the state it finds. -/
theorem Job.claimTrigger_cases (hclaimable : job.claimable at_ = true) :
    (job.claimTrigger at_ = .leaseRecovery ∧ job.status = .claimed) ∨
    (job.claimTrigger at_ = .automatic ∧ job.status = .failed ∧ job.scheduledRetry at_ = true) ∨
    (job.claimTrigger at_ = .manual ∧ job.status = .pending ∧ 0 < job.attemptCount) ∨
    (job.claimTrigger at_ = .initial ∧ job.status = .pending ∧ job.attemptCount = 0) := by
  unfold Job.claimTrigger
  unfold Job.claimable at hclaimable
  by_cases hexpired : job.expired at_ = true
  · rw [if_pos hexpired]
    unfold Job.expired at hexpired
    exact .inl ⟨rfl, by simp_all⟩
  · rw [if_neg hexpired]
    by_cases hscheduled : job.scheduledRetry at_ = true
    · have hfailed : job.status = .failed := by
        unfold Job.scheduledRetry at hscheduled
        simp_all
      rw [if_pos hfailed]
      exact .inr (.inl ⟨rfl, hfailed, hscheduled⟩)
    · have hpending : job.status = .pending := by simp_all
      rw [if_neg (by rw [hpending]; decide)]
      by_cases hcount : 0 < job.attemptCount
      · rw [if_pos hcount]
        exact .inr (.inr (.inl ⟨rfl, hpending, hcount⟩))
      · rw [if_neg hcount]
        exact .inr (.inr (.inr ⟨rfl, hpending, by omega⟩))

end

/-! ## 3. Replacing an attempt -/

section

variable {attempts : List (Attempt Code)} {previous closed attempt : Attempt Code}

theorem mem_replace (h : attempt ∈ replace attempts closed) :
    attempt = closed ∨ attempt ∈ attempts ∧ attempt.attemptNumber ≠ closed.attemptNumber := by
  obtain ⟨other, hother, rfl⟩ := List.mem_map.mp h
  by_cases hnumber : other.attemptNumber = closed.attemptNumber
  · exact .inl (if_pos hnumber)
  · rw [if_neg hnumber]
    exact .inr ⟨hother, hnumber⟩

theorem Closes.mem_replace (hcloses : Closes previous closed) (hprevious : previous ∈ attempts) :
    closed ∈ replace attempts closed :=
  List.mem_map.mpr ⟨previous, hprevious, if_pos hcloses.number.symm⟩

theorem numbered_replace {n : ℕ} (h : Numbered Attempt.attemptNumber attempts n) :
    Numbered Attempt.attemptNumber (replace attempts closed) n := by
  refine h.map fun other _ => ?_
  split
  · rename_i hnumber
    exact hnumber.symm
  · rfl

/-- A property of all attempts that closing keeps. -/
theorem forall_replace {P : Attempt Code → Prop} (hcloses : Closes previous closed)
    (hprevious : previous ∈ attempts) (hclosed : P previous → P closed)
    (h : ∀ attempt ∈ attempts, P attempt) : ∀ attempt ∈ replace attempts closed, P attempt := by
  intro attempt hattempt
  rcases Outbox.mem_replace hattempt with rfl | ⟨hmem, -⟩
  · exact hclosed (h previous hprevious)
  · exact h attempt hmem

end

/-! ## 4. Invariants -/

/-- What holds of a job and its attempts after every run. -/
structure Sound (job : Job Code) (attempts : List (Attempt Code)) : Prop where
  numbered : Numbered Attempt.attemptNumber attempts job.attemptCount
  started : job.status ≠ .pending → 1 ≤ job.attemptCount
  current : job.status = .claimed → ∃ attempt ∈ attempts,
    attempt.attemptNumber = job.attemptCount ∧ attempt.status = .claimed ∧
      job.leaseToken = some attempt.leaseToken
  finished : ∀ attempt ∈ attempts, attempt.status ≠ .claimed → attempt.finishedAt.isSome
  limit : 0 ≤ job.automaticRetryLimit ∧ job.automaticRetryLimit ≤ maxAutomaticRetryLimit
  schedule : job.nextAttemptAt ≠ none → job.status = .failed ∧
    job.failureRetryable = some true ∧ (job.attemptCount : ℤ) ≤ job.automaticRetryLimit
  initial : ∀ attempt ∈ attempts, attempt.trigger = .initial ↔ attempt.attemptNumber = 1
  automatic : ∀ attempt ∈ attempts, attempt.trigger = .automatic →
    2 ≤ attempt.attemptNumber ∧ (attempt.attemptNumber : ℤ) ≤ maxAutomaticRetryLimit + 1

/-- Only the latest attempt is open, and only while the job is claimed. -/
def Settled (job : Job Code) (attempts : List (Attempt Code)) : Prop :=
  ∀ attempt ∈ attempts, attempt.status = .claimed →
    job.status = .claimed ∧ attempt.attemptNumber = job.attemptCount

theorem Sound.new {job : Job Code} (hstatus : job.status = .pending) (hcount : job.attemptCount = 0)
    (hlimit : job.automaticRetryLimit = 0) (hschedule : job.nextAttemptAt = none) :
    Sound job [] where
  numbered := hcount ▸ Numbered.nil
  started h := absurd hstatus h
  current h := by
    rw [hstatus] at h
    cases h
  finished := List.forall_mem_nil _
  limit := by simp [hlimit, maxAutomaticRetryLimit]
  schedule h := absurd hschedule h
  initial := List.forall_mem_nil _
  automatic := List.forall_mem_nil _

section

variable {job job' : Job Code} {attempts attempts' : List (Attempt Code)} (h : Sound job attempts)
include h

theorem Sound.unscheduled (hstatus : job.status ≠ .failed) : job.nextAttemptAt = none := by
  by_contra hnext
  exact hstatus (h.schedule hnext).1

theorem Recovers.spec {trigger : AttemptTrigger} {number : ℕ} {recovered : List (Attempt Code)}
    (hrecovers : Recovers policy trigger number attempts recovered) :
    Numbered Attempt.attemptNumber recovered job.attemptCount ∧
    (∀ attempt ∈ recovered, attempt.status ≠ .claimed → attempt.finishedAt.isSome) ∧
    (∀ attempt ∈ recovered, attempt.trigger = .initial ↔ attempt.attemptNumber = 1) ∧
    ∀ attempt ∈ recovered, attempt.trigger = .automatic →
      2 ≤ attempt.attemptNumber ∧ (attempt.attemptNumber : ℤ) ≤ maxAutomaticRetryLimit + 1 := by
  cases hrecovers with
  | kept => exact ⟨h.numbered, h.finished, h.initial, h.automatic⟩
  | closed _ hprevious _ hcloses =>
    refine ⟨numbered_replace h.numbered, ?_, ?_, ?_⟩
    · exact forall_replace hcloses hprevious (fun _ _ => hcloses.finished) h.finished
    · refine forall_replace hcloses hprevious ?_ h.initial
      rw [hcloses.trigger, hcloses.number]
      exact id
    · refine forall_replace hcloses hprevious ?_ h.automatic
      rw [hcloses.trigger, hcloses.number]
      exact id

/-- The attempts after the one that was open was closed. -/
theorem Sound.close {previous closed : Attempt Code} (hprevious : previous ∈ attempts)
    (hcloses : Closes previous closed) (hstatus : job'.status = .succeeded ∨ job'.status = .failed)
    (hstarted : job.status = .claimed) (hcount : job'.attemptCount = job.attemptCount)
    (hlimit : 0 ≤ job'.automaticRetryLimit ∧ job'.automaticRetryLimit ≤ maxAutomaticRetryLimit)
    (hschedule : job'.nextAttemptAt ≠ none → job'.status = .failed ∧
      job'.failureRetryable = some true ∧ (job'.attemptCount : ℤ) ≤ job'.automaticRetryLimit) :
    Sound job' (replace attempts closed) where
  numbered := by
    rw [hcount]
    exact numbered_replace h.numbered
  started _ := by
    rw [hcount]
    exact h.started (by rw [hstarted]; decide)
  current hclaimed := by
    rcases hstatus with hstatus | hstatus <;> rw [hstatus] at hclaimed <;> cases hclaimed
  finished := forall_replace hcloses hprevious (fun _ _ => hcloses.finished) h.finished
  limit := hlimit
  schedule := hschedule
  initial := by
    refine forall_replace hcloses hprevious ?_ h.initial
    rw [hcloses.trigger, hcloses.number]
    exact id
  automatic := by
    refine forall_replace hcloses hprevious ?_ h.automatic
    rw [hcloses.trigger, hcloses.number]
    exact id

/-- An update of the job alone. -/
theorem Sound.reset (hstatus : job'.status ≠ .claimed)
    (hstarted : job.status = .failed) (hcount : job'.attemptCount = job.attemptCount)
    (hlimit : job'.automaticRetryLimit = 0) (hschedule : job'.nextAttemptAt = none) :
    Sound job' attempts where
  numbered := hcount ▸ h.numbered
  started _ := by
    rw [hcount]
    exact h.started (by rw [hstarted]; decide)
  current hclaimed := absurd hclaimed hstatus
  finished := h.finished
  limit := by simp [hlimit, maxAutomaticRetryLimit]
  schedule hnext := absurd hschedule hnext
  initial := h.initial
  automatic := h.automatic

/-- The trigger of a new attempt. -/
theorem Sound.new_trigger {at_ : Instant} (hclaimable : job.claimable at_ = true) :
    (job.claimTrigger at_ = .initial ↔ job.attemptCount = 0) ∧
    (job.claimTrigger at_ = .automatic → 1 ≤ job.attemptCount ∧
      (job.attemptCount : ℤ) ≤ job.automaticRetryLimit) := by
  rcases Job.claimTrigger_cases hclaimable with
    ⟨htrigger, hstatus⟩ | ⟨htrigger, hstatus, hscheduled⟩ | ⟨htrigger, -, hcount⟩ |
      ⟨htrigger, -, hcount⟩ <;> rw [htrigger]
  · have hcount := h.started (by rw [hstatus]; decide)
    refine ⟨iff_of_false (by decide) (by omega), fun h => by cases h⟩
  · have hcount := h.started (by rw [hstatus]; decide)
    unfold Job.scheduledRetry at hscheduled
    refine ⟨iff_of_false (by decide) (by omega), fun _ => ⟨hcount, ?_⟩⟩
    simp_all
  · exact ⟨iff_of_false (by decide) (by omega), fun h => by cases h⟩
  · exact ⟨iff_of_true rfl hcount, fun h => by cases h⟩

/-- Every step keeps the invariant. -/
theorem JobStep.sound (hstep : JobStep policy job attempts job' attempts') :
    Sound job' attempts' := by
  cases hstep with
  | @claimed workerId leaseSeconds token at_ _ trigger recovered attempt hclaimable hclaim hrecovers
      hopens =>
    have hclaimed := Job.claim_ok hclaim
    obtain ⟨hnumbered, hfinished, hinitial, hautomatic⟩ := hrecovers.spec h
    obtain ⟨htriggerInitial, htriggerAutomatic⟩ := h.new_trigger hclaimable
    have hnumber : attempt.attemptNumber = job.attemptCount + 1 :=
      hopens.number.trans hclaimed.count
    have htrigger : attempt.trigger = job.claimTrigger at_ := hopens.trigger.trans hclaimed.trigger
    refine ⟨?_, fun _ => ?_, fun _ => ⟨attempt, by simp, hopens.number, hopens.status, hopens.token⟩,
      ?_, ?_, fun hnext => ?_, ?_, ?_⟩
    · rw [hclaimed.count]
      exact hnumbered.append hnumber
    · rw [hclaimed.count]
      omega
    · intro other hother
      rcases List.mem_append.mp hother with hother | hother
      · exact hfinished other hother
      · rw [List.mem_singleton.mp hother]
        exact fun hstatus => absurd hopens.status hstatus
    · rw [hclaimed.limit]
      exact h.limit
    · -- a claim leaves no schedule: it clears the one that was due, and there is no other
      rcases hclaimed.schedule with hnone | ⟨hsame, hunscheduled⟩
      · exact absurd hnone hnext
      · rw [hsame] at hnext
        obtain ⟨hstatus, -⟩ := h.schedule hnext
        rcases Job.claimTrigger_cases hclaimable with hcase | hcase | hcase | hcase
        · rw [hcase.2] at hstatus
          cases hstatus
        · rw [hunscheduled] at hcase
          cases hcase.2.2
        · rw [hcase.2.1] at hstatus
          cases hstatus
        · rw [hcase.2.1] at hstatus
          cases hstatus
    · intro other hother
      rcases List.mem_append.mp hother with hother | hother
      · exact hinitial other hother
      · rw [List.mem_singleton.mp hother, htrigger, hnumber, htriggerInitial]
        omega
    · intro other hother hother'
      rcases List.mem_append.mp hother with hother | hother
      · exact hautomatic other hother hother'
      · rw [List.mem_singleton.mp hother, htrigger] at hother'
        rw [List.mem_singleton.mp hother, hnumber]
        have hlimit := htriggerAutomatic hother'
        have hmax := h.limit
        push_cast
        omega
  | succeeded hsucceed hprevious hnumber hcloses =>
    obtain ⟨howned, hstatus, hcount, hlimit, hnext, -⟩ := Job.succeed_ok hsucceed
    refine h.close hprevious hcloses (.inl hstatus) howned.1 hcount (hlimit ▸ h.limit) ?_
    intro hsome
    rw [h.unscheduled (by rw [howned.1]; decide), or_self] at hnext
    exact absurd hnext hsome
  | failed hfail hprevious hnumber hcloses =>
    obtain ⟨howned, hstatus, hcount, hretryable, hlimit, hnext, hrange, havailable, -⟩ :=
      Job.fail_ok hfail
    refine h.close hprevious hcloses (.inr hstatus) howned.1 hcount (hlimit ▸ hrange) ?_
    intro hsome
    rw [hnext] at hsome
    obtain ⟨rfl, hle⟩ := havailable hsome
    exact ⟨hstatus, hretryable, by rw [hcount, hlimit]; exact hle⟩
  | retried hretry =>
    obtain ⟨hfailed, hstatus, hcount, hlimit, hnext, -⟩ := Job.retry_ok hretry
    exact h.reset (by rw [hstatus]; decide) hfailed hcount hlimit hnext
  | cancelled hcancel =>
    obtain ⟨hfailed, hstatus, hcount, hlimit, hnext, -⟩ := Job.cancelAutomaticRetry_ok hcancel
    exact h.reset (by rw [hstatus]; decide) hfailed hcount hlimit hnext

/-- No lease is taken over without closing its attempt. -/
def Secures (policy : Policy Code) (job : Job Code) (job' : Job Code) : Prop :=
  policy.closesExpired = none → job.status = .claimed → job'.attemptCount = job.attemptCount

omit h in
/-- Closing the attempt that is open settles the ledger. -/
theorem Settled.close (hsettled : Settled job attempts) {previous closed : Attempt Code}
    (hnumber : previous.attemptNumber = job.attemptCount) (hcloses : Closes previous closed) :
    ∀ attempt ∈ replace attempts closed, attempt.status ≠ .claimed := by
  intro attempt hattempt hopen
  rcases mem_replace hattempt with rfl | ⟨hmem, hne⟩
  · exact hcloses.status hopen
  · exact hne ((hsettled attempt hmem hopen).2.trans (hnumber.symm.trans hcloses.number.symm))

omit h in
/-- Every step that secures leases keeps the ledger settled. -/
theorem JobStep.settled (hstep : JobStep policy job attempts job' attempts')
    (hsettled : Settled job attempts) (hsecures : Secures policy job job') :
    Settled job' attempts' := by
  cases hstep with
  | @claimed workerId leaseSeconds token at_ _ trigger recovered attempt hclaimable hclaim hrecovers
      hopens =>
    have hclaimed := Job.claim_ok hclaim
    have hclosed : ∀ other ∈ recovered, other.status ≠ .claimed := by
      cases hrecovers with
      | kept hkept =>
        intro other hother hopen
        obtain ⟨hstatus, hnumber⟩ := hsettled other hother hopen
        have htrigger : trigger = .leaseRecovery := by
          rw [hclaimed.trigger]
          rcases Job.claimTrigger_cases hclaimable with hcase | hcase | hcase | hcase
          · exact hcase.1
          all_goals
            rw [hcase.2.1] at hstatus
            cases hstatus
        rcases hkept htrigger with hnone | hnotOpen
        · have hcount := hsecures hnone hstatus
          rw [hclaimed.count] at hcount
          omega
        · exact hnotOpen other hother hnumber hopen
      | closed _ _ hnumber hcloses => exact hsettled.close hnumber hcloses
    intro other hother hopen
    rcases List.mem_append.mp hother with hother | hother
    · exact absurd hopen (hclosed other hother)
    · rw [List.mem_singleton.mp hother]
      exact ⟨hclaimed.status, hopens.number⟩
  | succeeded _ _ hnumber hcloses =>
    exact fun attempt hattempt hopen => absurd hopen (hsettled.close hnumber hcloses attempt hattempt)
  | failed _ _ hnumber hcloses =>
    exact fun attempt hattempt hopen => absurd hopen (hsettled.close hnumber hcloses attempt hattempt)
  | retried hretry =>
    obtain ⟨hfailed, -⟩ := Job.retry_ok hretry
    intro attempt hattempt hopen
    rw [(hsettled attempt hattempt hopen).1] at hfailed
    cases hfailed
  | cancelled hcancel =>
    obtain ⟨hfailed, -⟩ := Job.cancelAutomaticRetry_ok hcancel
    intro attempt hattempt hopen
    rw [(hsettled attempt hattempt hopen).1] at hfailed
    cases hfailed

end

end JbOrchestrator.Outbox
