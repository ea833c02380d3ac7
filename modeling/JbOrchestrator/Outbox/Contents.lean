import JbOrchestrator.Lib.Indexes
import JbOrchestrator.Outbox.Tables

/-!
# Contents — a job keeps what it is about

Claims, retries and completions save a job again under its id, with the info that it had.  So a column of
the info stays unique, and what a job is about never changes.
-/

open Lib

namespace JbOrchestrator.Outbox

open Domain Workflows Application

variable {Code Info γ : Type} {policy : Policy Code} {table table' : Table Code Info}
  {entry : Entry Code Info} {at_ : Instant}

/-- The jobs are as before, or one of them is saved again with what it is about. -/
inductive Resaves (table table' : Table Code Info) : Prop where
  | same (hjobs : table'.jobs = table.jobs)
  | saved {entry : Entry Code Info} {job : Job Code}
    (hentry : table.jobs.get? entry.job.id = some entry) (hid : job.id = entry.job.id)
    (hjobs : table'.jobs = table.jobs.set entry.job.id { entry with job })

theorem Resaves.get? (h : Resaves table table') {id : UUID} (hentry : table.jobs.get? id = some entry) :
    ∃ entry', table'.jobs.get? id = some entry' ∧ entry'.info = entry.info ∧
      entry'.job.id = entry.job.id := by
  cases h with
  | same hjobs => exact ⟨entry, by rw [hjobs]; exact hentry, rfl, rfl⟩
  | saved hsaved hid hjobs =>
    rw [hjobs, Dict.get?_set]
    split
    · rename_i hsame
      subst hsame
      obtain rfl := Option.some.inj (hsaved.symm.trans hentry)
      exact ⟨_, rfl, rfl, hid⟩
    · exact ⟨entry, hentry, rfl, rfl⟩

theorem Resaves.info (h : Resaves table table') {id : UUID} (hentry : table'.jobs.get? id = some entry) :
    ∃ entry', table.jobs.get? id = some entry' ∧ entry'.info = entry.info := by
  cases h with
  | same hjobs => exact ⟨entry, by rw [← hjobs]; exact hentry, rfl⟩
  | saved hsaved hid hjobs =>
    rw [hjobs, Dict.get?_set] at hentry
    split at hentry
    · rename_i hsame
      obtain rfl := Option.some.inj hentry
      rw [hsame]
      exact ⟨_, hsaved, rfl⟩
    · exact ⟨entry, hentry, rfl⟩

/-- A column of the info stays unique. -/
theorem Resaves.indexed (column : Info → γ) (h : Resaves table table')
    (hindexed : table.jobs.Indexed fun entry => column entry.info) :
    table'.jobs.Indexed fun entry => column entry.info := by
  cases h with
  | same hjobs =>
    rw [hjobs]
    exact hindexed
  | saved hsaved hid hjobs =>
    rw [hjobs]
    exact hindexed.replace hsaved rfl

theorem retry_resaves {answer : Entry Code Info × Bool}
    (hentry : table.jobs.get? entry.job.id = some entry)
    (h : retry policy table entry at_ = .ok (answer, table')) : Resaves table table' := by
  unfold retry at h
  split at h
  · obtain ⟨-, rfl⟩ := Prod.mk.inj (Except.ok.inj h)
    exact .same rfl
  · obtain ⟨-, rfl⟩ := Prod.mk.inj (Except.ok.inj h)
    exact .same rfl
  · cases h
  · obtain ⟨job, hretry, h⟩ := bind_ok h
    obtain ⟨-, rfl⟩ := Prod.mk.inj (Except.ok.inj h)
    obtain ⟨-, -, -, -, -, hid⟩ := Job.retry_ok (raiseDomain_ok hretry)
    exact .saved hentry hid (by rw [← hid]; rfl)

theorem cancelAutomaticRetry_resaves {answer : Entry Code Info × Bool}
    (hentry : table.jobs.get? entry.job.id = some entry)
    (h : cancelAutomaticRetry policy table entry at_ = .ok (answer, table')) :
    Resaves table table' := by
  unfold cancelAutomaticRetry at h
  split at h
  · cases h
  · cases h
  · cases h
  · obtain ⟨cancelled, hcancel, h⟩ := bind_ok h
    cases cancelled with
    | none =>
      obtain ⟨-, rfl⟩ := Prod.mk.inj (Except.ok.inj h)
      exact .same rfl
    | some job =>
      obtain ⟨-, rfl⟩ := Prod.mk.inj (Except.ok.inj h)
      obtain ⟨-, -, -, -, -, hid⟩ := Job.cancelAutomaticRetry_ok (raiseDomain_ok hcancel)
      exact .saved hentry hid (by rw [← hid]; rfl)

theorem closeExpired_jobs {job : Job Code} (h : closeExpired policy table job = .ok table') :
    table'.jobs = table.jobs := by
  unfold closeExpired at h
  split at h
  · obtain rfl := Except.ok.inj h
    rfl
  split at h
  · obtain rfl := Except.ok.inj h
    rfl
  split at h
  · obtain ⟨closed, -, h⟩ := bind_ok h
    obtain rfl := Except.ok.inj h
    rfl
  · obtain rfl := Except.ok.inj h
    rfl

theorem claimNext_resaves {eligible : Info → Bool} {locked : UUID → Bool} {workerId : String}
    {leaseSeconds : ℤ} {token : UUID} {answer : Option (Entry Code Info)} (hvalid : table.Valid)
    (h : claimNext policy table eligible locked workerId leaseSeconds token at_ =
      .ok (answer, table')) : Resaves table table' := by
  unfold claimNext at h
  split at h
  · obtain ⟨-, rfl⟩ := Prod.mk.inj (Except.ok.inj h)
    exact .same rfl
  rename_i entry hcandidate
  obtain ⟨⟨claimed, claimedTable⟩, hclaim, h⟩ := bind_ok h
  obtain ⟨-, rfl⟩ := Prod.mk.inj (Except.ok.inj h)
  obtain ⟨⟨id, hentry⟩, -⟩ := Table.candidate_some hcandidate
  obtain ⟨rfl, -⟩ := hvalid.sound id entry hentry
  unfold claimEntry at hclaim
  obtain ⟨⟨job, trigger⟩, hjob, hclaim⟩ := bind_ok hclaim
  have hclaimed := Job.claim_ok (raiseDomain_ok hjob)
  simp only [hclaimed.token] at hclaim
  obtain ⟨closed, hclosed, hclaim⟩ := bind_ok hclaim
  obtain ⟨attempt, -, hclaim⟩ := bind_ok hclaim
  obtain ⟨added, hadded, hclaim⟩ := bind_ok hclaim
  obtain ⟨-, rfl⟩ := Prod.mk.inj (Except.ok.inj hclaim)
  have hjobs : closed.jobs = (table.saveJob { entry with job }).jobs := by
    split at hclosed
    · exact closeExpired_jobs hclosed
    · obtain rfl := Except.ok.inj hclosed
      rfl
  refine .saved hentry hclaimed.id ?_
  rw [(Table.addAttempt_ok hadded).1, hjobs, ← hclaimed.id]
  rfl

theorem currentAttempt_jobs {job : Job Code} {leaseToken : UUID} {attempt : Attempt Code}
    (h : currentAttempt policy table job leaseToken = .ok (attempt, table')) :
    table'.jobs = table.jobs := by
  unfold currentAttempt at h
  split at h
  · obtain ⟨-, rfl⟩ := Prod.mk.inj (Except.ok.inj h)
    rfl
  split at h
  · cases h
  · obtain ⟨created, -, h⟩ := bind_ok h
    obtain ⟨added, hadded, h⟩ := bind_ok h
    obtain ⟨-, rfl⟩ := Prod.mk.inj (Except.ok.inj h)
    exact (Table.addAttempt_ok hadded).1

theorem finish_resaves {leaseToken : UUID} {completion : Completion Code} {answer : Entry Code Info}
    (hentry : table.jobs.get? entry.job.id = some entry)
    (h : finish policy table entry leaseToken completion at_ = .ok (answer, table')) :
    Resaves table table' := by
  obtain ⟨⟨attempt, current⟩, hcurrent, h⟩ := bind_ok h
  have hjobs := currentAttempt_jobs hcurrent
  cases completion with
  | success result =>
    obtain ⟨job, hjob, h⟩ := bind_ok h
    obtain ⟨closed, -, h⟩ := bind_ok h
    obtain ⟨-, rfl⟩ := Prod.mk.inj (Except.ok.inj h)
    obtain ⟨-, -, -, -, -, hid⟩ := Job.succeed_ok (raiseDomain_ok hjob)
    exact .saved hentry hid (by rw [← hjobs, ← hid]; rfl)
  | failure reason code retryable automaticRetryLimit nextAttemptAt =>
    obtain ⟨job, hjob, h⟩ := bind_ok h
    obtain ⟨closed, -, h⟩ := bind_ok h
    obtain ⟨-, rfl⟩ := Prod.mk.inj (Except.ok.inj h)
    obtain ⟨-, -, -, -, -, -, -, -, hid⟩ := Job.fail_ok (raiseDomain_ok hjob)
    exact .saved hentry hid (by rw [← hjobs, ← hid]; rfl)

end JbOrchestrator.Outbox
