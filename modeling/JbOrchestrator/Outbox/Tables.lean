import JbOrchestrator.Outbox.Ledgers

/-!
# Tables — what a service does to the jobs and to the attempts

Every service leaves the table as it is, adds new jobs or makes one `JobStep`.  A machine all of whose
inputs do so keeps the table valid in every run; the facts about ledgers are read off the table.
-/

open Lib

namespace JbOrchestrator.Outbox

open Domain Workflows Application

variable {Code Info : Type} {policy : Policy Code} {table table' : Table Code Info}

/-! ## 1. Reading a table after a write -/

namespace Table

theorem mem_ledger {id : UUID} {attempt : Attempt Code} :
    attempt ∈ table.ledger id ↔ attempt ∈ table.attempts ∧ attempt.jobId = id := by
  simp [ledger]

@[simp] theorem ledger_saveJob (entry : Entry Code Info) (id : UUID) :
    (table.saveJob entry).ledger id = table.ledger id := rfl

@[simp] theorem jobs_saveAttempt (attempt : Attempt Code) :
    (table.saveAttempt attempt).jobs = table.jobs := rfl

theorem get?_saveJob (entry : Entry Code Info) (id : UUID) :
    (table.saveJob entry).jobs.get? id =
      if id = entry.job.id then some entry else table.jobs.get? id :=
  Dict.get?_set ..

theorem attempt_some {id : UUID} {number : ℕ} {attempt : Attempt Code}
    (h : table.attempt id number = some attempt) :
    attempt ∈ table.ledger id ∧ attempt.jobId = id ∧ attempt.attemptNumber = number := by
  have hkey := List.find?_some h
  simp only [decide_eq_true_eq] at hkey
  exact ⟨mem_ledger.mpr ⟨List.mem_of_find?_eq_some h, hkey.1⟩, hkey⟩

theorem attempt_none {id : UUID} {number : ℕ} (h : table.attempt id number = none) :
    ∀ attempt ∈ table.ledger id, attempt.attemptNumber ≠ number := by
  intro attempt hattempt hnumber
  obtain ⟨hmem, hjob⟩ := mem_ledger.mp hattempt
  have hnot := List.find?_eq_none.mp h attempt hmem
  simp [hjob, hnumber] at hnot

/-- `save` of an attempt replaces it in the ledger of its job and touches no other ledger. -/
theorem ledger_saveAttempt (attempt : Attempt Code) (id : UUID) :
    (table.saveAttempt attempt).ledger id =
      if id = attempt.jobId then replace (table.ledger id) attempt else table.ledger id := by
  unfold ledger saveAttempt replace
  rw [List.filter_map]
  have hjob : (fun other : Attempt Code => decide (other.jobId = id)) ∘ (fun other =>
      if other.jobId = attempt.jobId ∧ other.attemptNumber = attempt.attemptNumber then attempt
      else other) = fun other => decide (other.jobId = id) := by
    funext other
    by_cases hkey : other.jobId = attempt.jobId ∧ other.attemptNumber = attempt.attemptNumber
    · simp [hkey]
    · simp [hkey]
  rw [hjob]
  split
  · rename_i hid
    refine List.map_congr_left fun other hother => ?_
    have hother := of_decide_eq_true (List.mem_filter.mp hother).2
    simp [hother, hid]
  · rename_i hid
    refine (List.map_congr_left fun other hother => ?_).trans (List.map_id _)
    have hother := of_decide_eq_true (List.mem_filter.mp hother).2
    rw [if_neg fun hkey => hid (hother.symm.trans hkey.1), id_eq]

theorem addAttempt_ok {attempt : Attempt Code} (h : table.addAttempt attempt = .ok table') :
    table'.jobs = table.jobs ∧ ∀ id, table'.ledger id =
      if id = attempt.jobId then table.ledger id ++ [attempt] else table.ledger id := by
  unfold addAttempt at h
  split at h
  · cases h
  · obtain rfl := Except.ok.inj h
    refine ⟨rfl, fun id => ?_⟩
    unfold ledger
    rw [List.filter_append]
    by_cases hid : id = attempt.jobId
    · simp [hid]
    · simp [hid, Ne.symm hid]

theorem candidate_some {eligible : Info → Bool} {locked : UUID → Bool} {at_ : Instant}
    {entry : Entry Code Info} (h : table.candidate eligible locked at_ = some entry) :
    (∃ id, table.jobs.get? id = some entry) ∧ eligible entry.info = true ∧
      entry.job.claimable at_ = true := by
  have hmem := List.mem_of_mem_head? h
  rw [List.mem_insertionSort, List.mem_filter, List.mem_filterMap] at hmem
  obtain ⟨⟨id, -, hget⟩, hfilter⟩ := hmem
  simp only [Bool.and_eq_true] at hfilter
  exact ⟨⟨id, hget⟩, hfilter.1⟩

end Table

/-! ## 2. Steps of a table -/

/-- A job nobody has claimed. -/
structure Fresh (job : Job Code) : Prop where
  status : job.status = .pending
  count : job.attemptCount = 0
  limit : job.automaticRetryLimit = 0
  schedule : job.nextAttemptAt = none

/-- The jobs whose failure a step may report and those that it may claim. -/
structure Scope where
  fails : UUID → Prop
  claims : UUID → Prop

/-- What a step does to the job under an id and to its attempts: only a failure sets a schedule, and
only a claim raises the number of attempts. -/
inductive Moved (policy : Policy Code) (scope : Scope) (table table' : Table Code Info)
    (id : UUID) : Prop where
  | kept (hjob : table'.jobs.get? id = table.jobs.get? id)
    (hledger : table'.ledger id = table.ledger id)
  | added {entry : Entry Code Info} (hnone : table.jobs.get? id = none)
    (hentry : table'.jobs.get? id = some entry) (hid : entry.job.id = id) (hfresh : Fresh entry.job)
    (hledger : table'.ledger id = table.ledger id)
  | stepped {entry entry' : Entry Code Info} (hentry : table.jobs.get? id = some entry)
    (hentry' : table'.jobs.get? id = some entry') (hid : entry'.job.id = entry.job.id)
    (hstep : JobStep policy entry.job (table.ledger id) entry'.job (table'.ledger id))
    (hschedule : ¬scope.fails id → entry'.job.nextAttemptAt = none ∨
      entry'.job.nextAttemptAt = entry.job.nextAttemptAt)
    (hcount : ¬scope.claims id → entry'.job.attemptCount = entry.job.attemptCount)

def TableStep (policy : Policy Code) (scope : Scope) (table table' : Table Code Info) : Prop :=
  ∀ id, Moved policy scope table table' id

theorem TableStep.refl {scope : Scope} (table : Table Code Info) :
    TableStep policy scope table table :=
  fun _ => .kept rfl rfl

/-- Every job is under its own id and sound, and only jobs have attempts. -/
structure Table.Valid (table : Table Code Info) : Prop where
  sound : ∀ id entry, table.jobs.get? id = some entry →
    entry.job.id = id ∧ Sound entry.job (table.ledger id)
  closed : ∀ id, table.jobs.get? id = none → table.ledger id = []

theorem Table.Valid.empty : Table.Valid ({} : Table Code Info) where
  sound id entry h := by simp at h
  closed _ _ := rfl

/-- Every step keeps a table valid. -/
theorem TableStep.valid {scope : Scope} (hvalid : table.Valid)
    (hstep : TableStep policy scope table table') : table'.Valid where
  sound id entry hentry := by
    cases hstep id with
    | kept hjob hledger =>
      rw [hjob] at hentry
      rw [hledger]
      exact hvalid.sound id entry hentry
    | added hnone hadded hid hfresh hledger =>
      obtain rfl := Option.some.inj (hadded.symm.trans hentry)
      rw [hledger, hvalid.closed id hnone]
      exact ⟨hid, Sound.new hfresh.status hfresh.count hfresh.limit hfresh.schedule⟩
    | stepped hbefore hafter hid hstep _ _ =>
      obtain rfl := Option.some.inj (hafter.symm.trans hentry)
      obtain ⟨hbeforeId, hsound⟩ := hvalid.sound id _ hbefore
      exact ⟨hid.trans hbeforeId, hstep.sound hsound⟩
  closed id hnone := by
    cases hstep id with
    | kept hjob hledger => exact hledger.trans (hvalid.closed id (hjob.symm.trans hnone))
    | added _ hadded _ _ _ =>
      rw [hadded] at hnone
      cases hnone
    | stepped _ hafter _ _ _ _ =>
      rw [hafter] at hnone
      cases hnone

/-- A step of one job, which leaves the others and their ledgers alone. -/
theorem TableStep.of_job {scope : Scope} {entry : Entry Code Info} {job : Job Code}
    (hentry : table.jobs.get? entry.job.id = some entry) (hid : job.id = entry.job.id)
    (hjobs : ∀ id, table'.jobs.get? id =
      if id = entry.job.id then some { entry with job } else table.jobs.get? id)
    (hothers : ∀ id, id ≠ entry.job.id → table'.ledger id = table.ledger id)
    (hstep : JobStep policy entry.job (table.ledger entry.job.id) job
      (table'.ledger entry.job.id))
    (hschedule : ¬scope.fails entry.job.id → job.nextAttemptAt = none ∨
      job.nextAttemptAt = entry.job.nextAttemptAt)
    (hcount : ¬scope.claims entry.job.id → job.attemptCount = entry.job.attemptCount) :
    TableStep policy scope table table' := by
  intro id
  by_cases h : id = entry.job.id
  · subst h
    exact .stepped hentry ((hjobs _).trans (if_pos rfl)) hid hstep hschedule hcount
  · exact .kept ((hjobs id).trans (if_neg h)) (hothers id h)

/-! ## 3. The services -/

theorem raiseDomain_ok {α : Type} {value : α} {result : Except DomainError α}
    (h : raiseDomain result = .ok value) : result = .ok value := by
  cases result with
  | error => cases h
  | ok => exact congrArg _ (Except.ok.inj h)

section

variable {scope : Scope} {entry : Entry Code Info} {at_ : Instant}

/-- New jobs alone. -/
def Grows (table table' : Table Code Info) : Prop :=
  ∀ id, table'.ledger id = table.ledger id ∧ (table'.jobs.get? id = table.jobs.get? id ∨
    table.jobs.get? id = none ∧ ∃ entry, table'.jobs.get? id = some entry ∧ entry.job.id = id ∧
      Fresh entry.job)

theorem Grows.refl (table : Table Code Info) : Grows table table := fun _ => ⟨rfl, .inl rfl⟩

theorem Grows.trans {table₁ table₂ table₃ : Table Code Info} (h : Grows table₁ table₂)
    (h' : Grows table₂ table₃) : Grows table₁ table₃ := by
  intro id
  obtain ⟨hledger, hjobs⟩ := h id
  obtain ⟨hledger', hjobs'⟩ := h' id
  refine ⟨hledger'.trans hledger, ?_⟩
  rcases hjobs' with hsame' | ⟨hnone', hadded'⟩
  · rw [hsame']
    exact hjobs
  · rcases hjobs with hsame | ⟨-, entry, hentry, -⟩
    · exact .inr ⟨hsame.symm.trans hnone', hadded'⟩
    · rw [hentry] at hnone'
      cases hnone'

theorem Grows.tableStep (h : Grows table table') : TableStep policy scope table table' := by
  intro id
  obtain ⟨hledger, hsame | ⟨hnone, entry, hentry, hid, hfresh⟩⟩ := h id
  · exact .kept hsame hledger
  · exact .added hnone hentry hid hfresh hledger

/-- `try_add` of a fresh job. -/
theorem tryAdd_grows {same : Info → Bool} {added : Bool} (hfresh : Fresh entry.job)
    (h : table.tryAdd same entry = .ok (added, table')) : Grows table table' := by
  unfold Table.tryAdd at h
  split at h
  · obtain ⟨-, rfl⟩ := Prod.mk.inj (Except.ok.inj h)
    exact .refl _
  split at h
  · cases h
  · rename_i _ hnone
    obtain ⟨-, rfl⟩ := Prod.mk.inj (Except.ok.inj h)
    refine fun id => ⟨rfl, ?_⟩
    rw [Table.get?_saveJob]
    split
    · rename_i hid
      rw [hid]
      exact .inr ⟨by simpa using hnone, entry, rfl, rfl, hfresh⟩
    · exact .inl rfl

/-- No automatic retry of the job is scheduled. -/
def Unscheduled (table : Table Code Info) (id : UUID) : Prop :=
  ∃ entry, table.jobs.get? id = some entry ∧ entry.job.nextAttemptAt = none

/-- A step that only resets the job. -/
theorem TableStep.reset {job : Job Code} (hentry : table.jobs.get? entry.job.id = some entry)
    (hid : job.id = entry.job.id) (hcount : job.attemptCount = entry.job.attemptCount)
    (hnext : job.nextAttemptAt = none)
    (hstep : JobStep policy entry.job (table.ledger entry.job.id) job
      (table.ledger entry.job.id)) :
    TableStep policy scope table (table.saveJob { entry with job }) ∧
      Unscheduled (table.saveJob { entry with job }) entry.job.id := by
  have hjobs (id : UUID) : (table.saveJob { entry with job }).jobs.get? id =
      if id = entry.job.id then some { entry with job } else table.jobs.get? id := by
    rw [Table.get?_saveJob, hid]
  exact ⟨.of_job hentry hid hjobs (fun _ _ => rfl) hstep (fun _ => .inl hnext)
    fun _ => hcount, _, (hjobs _).trans (if_pos rfl), hnext⟩

theorem retry_spec {answer : Entry Code Info × Bool} (hvalid : table.Valid)
    (hentry : table.jobs.get? entry.job.id = some entry)
    (h : retry policy table entry at_ = .ok (answer, table')) :
    TableStep policy scope table table' ∧ Unscheduled table' entry.job.id := by
  have hsound := (hvalid.sound _ _ hentry).2
  unfold retry at h
  split at h
  · rename_i hstatus
    obtain ⟨-, rfl⟩ := Prod.mk.inj (Except.ok.inj h)
    exact ⟨.refl _, _, hentry, hsound.unscheduled (by rw [hstatus]; decide)⟩
  · rename_i hstatus
    obtain ⟨-, rfl⟩ := Prod.mk.inj (Except.ok.inj h)
    exact ⟨.refl _, _, hentry, hsound.unscheduled (by rw [hstatus]; decide)⟩
  · cases h
  · obtain ⟨job, hretry, h⟩ := bind_ok h
    have hretry := raiseDomain_ok hretry
    obtain ⟨-, rfl⟩ := Prod.mk.inj (Except.ok.inj h)
    obtain ⟨-, -, hcount, -, hnext, hid⟩ := Job.retry_ok hretry
    exact TableStep.reset hentry hid hcount hnext (.retried hretry)

theorem cancelAutomaticRetry_spec {answer : Entry Code Info × Bool}
    (hentry : table.jobs.get? entry.job.id = some entry)
    (h : cancelAutomaticRetry policy table entry at_ = .ok (answer, table')) :
    TableStep policy scope table table' ∧ Unscheduled table' entry.job.id := by
  unfold cancelAutomaticRetry at h
  split at h
  · cases h
  · cases h
  · cases h
  · rename_i hstatus
    obtain ⟨cancelled, hcancel, h⟩ := bind_ok h
    have hcancel := raiseDomain_ok hcancel
    cases cancelled with
    | none =>
      obtain ⟨-, rfl⟩ := Prod.mk.inj (Except.ok.inj h)
      refine ⟨.refl _, _, hentry, ?_⟩
      unfold Job.cancelAutomaticRetry at hcancel
      rw [if_neg (not_not.mpr hstatus)] at hcancel
      split at hcancel
      · assumption
      · cases hcancel
    | some job =>
      obtain ⟨-, rfl⟩ := Prod.mk.inj (Except.ok.inj h)
      obtain ⟨-, -, hcount, -, hnext, hid⟩ := Job.cancelAutomaticRetry_ok hcancel
      exact TableStep.reset hentry hid hcount hnext (.cancelled hcancel)

/-! ### Claims -/

theorem Attempt.create_ok {jobId leaseToken : UUID} {number : ℕ} {trigger : AttemptTrigger}
    {workerId : String} {attempt : Attempt Code}
    (h : Attempt.create policy jobId number trigger workerId leaseToken at_ = .ok attempt) :
    attempt.jobId = jobId ∧ attempt.attemptNumber = number ∧ attempt.trigger = trigger ∧
      attempt.status = .claimed ∧ attempt.leaseToken = leaseToken := by
  unfold Attempt.create at h
  split at h
  · cases h
  split at h
  · cases h
  · obtain rfl := Except.ok.inj h
    exact ⟨rfl, rfl, rfl, rfl, rfl⟩

theorem Attempt.owned_iff {attempt : Attempt Code} {leaseToken : UUID} :
    attempt.owned leaseToken = true ↔
      attempt.status = .claimed ∧ attempt.leaseToken = leaseToken := by
  simp [Attempt.owned]

theorem Attempt.succeed_ok {attempt closed : Attempt Code} {leaseToken : UUID} {result : JsonObject}
    (h : attempt.succeed policy leaseToken result at_ = .ok closed) :
    Closes attempt closed ∧ attempt.leaseToken = leaseToken := by
  unfold Attempt.succeed at h
  split at h
  · cases h
  · rename_i howned
    obtain rfl := Except.ok.inj h
    obtain ⟨hstatus, htoken⟩ := Attempt.owned_iff.mp (by simpa using howned)
    exact ⟨⟨rfl, rfl, rfl, hstatus, by simp, rfl⟩, htoken⟩

theorem Attempt.fail_ok {attempt closed : Attempt Code} {leaseToken : UUID} {reason : String}
    {code : Code} {retryable : Bool}
    (h : attempt.fail policy leaseToken reason code retryable at_ = .ok closed) :
    Closes attempt closed ∧ attempt.leaseToken = leaseToken := by
  unfold Attempt.fail at h
  split at h
  · cases h
  split at h
  · cases h
  · rename_i howned _
    obtain rfl := Except.ok.inj h
    obtain ⟨hstatus, htoken⟩ := Attempt.owned_iff.mp (by simpa using howned)
    exact ⟨⟨rfl, rfl, rfl, hstatus, by simp, rfl⟩, htoken⟩

/-- Closing an attempt in the table closes it in the ledger of its job. -/
theorem Table.ledger_close {previous closed : Attempt Code} (hcloses : Closes previous closed)
    (id : UUID) : (table.saveAttempt closed).ledger id =
      if id = previous.jobId then replace (table.ledger id) closed else table.ledger id := by
  rw [Table.ledger_saveAttempt, hcloses.jobId]

/-- What recovering a lease does to the ledger of its job. -/
theorem closeExpired_spec {job : Job Code} {number : ℕ} (hcount : job.attemptCount = number + 1)
    (hnumbered : Numbered Attempt.attemptNumber (table.ledger job.id) number)
    (h : closeExpired policy table job = .ok table') :
    table'.jobs = table.jobs ∧ (∀ id, id ≠ job.id → table'.ledger id = table.ledger id) ∧
      Recovers policy .leaseRecovery number (table.ledger job.id) (table'.ledger job.id) := by
  unfold closeExpired at h
  split at h
  · rename_i hpolicy
    obtain rfl := Except.ok.inj h
    exact ⟨rfl, fun _ _ => rfl, .kept fun _ => .inl hpolicy⟩
  rw [hcount, Nat.add_sub_cancel] at h
  split at h
  · rename_i hnone
    obtain rfl := Except.ok.inj h
    refine ⟨rfl, fun _ _ => rfl, .kept fun _ => .inr fun previous hprevious hnumber => ?_⟩
    exact absurd hnumber (Table.attempt_none hnone previous hprevious)
  rename_i hpolicy _ previous hprevious
  obtain ⟨hmem, hjob, hnumber⟩ := Table.attempt_some hprevious
  split at h
  · obtain ⟨closed, hfail, h⟩ := bind_ok h
    obtain rfl := Except.ok.inj h
    obtain ⟨hcloses, -⟩ := Attempt.fail_ok (raiseDomain_ok hfail)
    refine ⟨rfl, fun id hid => ?_, ?_⟩
    · rw [Table.ledger_close hcloses, hjob, if_neg hid]
    · rw [Table.ledger_close hcloses, hjob, if_pos rfl]
      exact .closed (by simp [hpolicy]) hmem hnumber hcloses
  · rename_i hstatus
    obtain rfl := Except.ok.inj h
    refine ⟨rfl, fun _ _ => rfl, .kept fun _ => .inr fun other hother hotherNumber => ?_⟩
    rwa [hnumbered.inj hother hmem (hotherNumber.trans hnumber.symm)]

/-- What a claim that succeeds did to its job and to the ledger. -/
theorem claimEntry_ok {workerId : String} {leaseSeconds : ℤ} {token : UUID}
    {answer : Entry Code Info} (hvalid : table.Valid)
    (hentry : table.jobs.get? entry.job.id = some entry)
    (h : claimEntry policy table entry workerId leaseSeconds token at_ = .ok (answer, table')) :
    ∃ job trigger recovered attempt,
      entry.job.claim policy workerId leaseSeconds token at_ = .ok (job, trigger) ∧
      answer = { entry with job } ∧
      (∀ id, table'.jobs.get? id =
        if id = entry.job.id then some { entry with job } else table.jobs.get? id) ∧
      (∀ id, id ≠ entry.job.id → table'.ledger id = table.ledger id) ∧
      table'.ledger entry.job.id = recovered ++ [attempt] ∧
      Recovers policy trigger entry.job.attemptCount (table.ledger entry.job.id) recovered ∧
      Opens job trigger attempt := by
  unfold claimEntry at h
  obtain ⟨⟨job, trigger⟩, hclaim, h⟩ := bind_ok h
  have hclaim := raiseDomain_ok hclaim
  have hclaimed := Job.claim_ok hclaim
  simp only [hclaimed.token] at h
  obtain ⟨closed, hclosed, h⟩ := bind_ok h
  obtain ⟨attempt, hcreate, h⟩ := bind_ok h
  obtain ⟨added, hadded, h⟩ := bind_ok h
  obtain ⟨rfl, rfl⟩ := Prod.mk.inj (Except.ok.inj h)
  obtain ⟨hjobId, hnumber, htrigger, hstatus, htoken⟩ := Attempt.create_ok (raiseDomain_ok hcreate)
  obtain ⟨haddedJobs, haddedLedger⟩ := Table.addAttempt_ok hadded
  have hnumbered := (hvalid.sound _ _ hentry).2.numbered
  -- the table after the recovery of an expired lease
  have hrecovered : closed.jobs = (table.saveJob { entry with job }).jobs ∧
      (∀ id, id ≠ entry.job.id → closed.ledger id = table.ledger id) ∧
      Recovers policy trigger entry.job.attemptCount (table.ledger entry.job.id)
        (closed.ledger entry.job.id) := by
    split at hclosed
    · rename_i hrecovery
      have hspec := closeExpired_spec hclaimed.count
        (by rw [hclaimed.id]; exact hnumbered) hclosed
      rw [hclaimed.id, ← hrecovery] at hspec
      exact hspec
    · rename_i hrecovery
      obtain rfl := Except.ok.inj hclosed
      exact ⟨rfl, fun _ _ => rfl, .kept fun htrigger => absurd htrigger hrecovery⟩
  obtain ⟨hjobs, hothers, hrecovers⟩ := hrecovered
  rw [hjobId, hclaimed.id] at haddedLedger
  refine ⟨job, trigger, closed.ledger entry.job.id, attempt, hclaim, rfl, fun id => ?_,
    fun id hid => ?_, ?_, hrecovers, hnumber, htrigger, hstatus, by rw [hclaimed.token, htoken]⟩
  · rw [haddedJobs, hjobs, Table.get?_saveJob, hclaimed.id]
  · rw [haddedLedger, if_neg hid, hothers id hid]
  · rw [haddedLedger, if_pos rfl]

theorem claimEntry_spec {workerId : String} {leaseSeconds : ℤ} {token : UUID}
    {answer : Entry Code Info} (hvalid : table.Valid)
    (hentry : table.jobs.get? entry.job.id = some entry)
    (hclaimable : entry.job.claimable at_ = true) (hclaims : scope.claims entry.job.id)
    (h : claimEntry policy table entry workerId leaseSeconds token at_ = .ok (answer, table')) :
    TableStep policy scope table table' := by
  obtain ⟨job, trigger, recovered, attempt, hclaim, -, hjobs, hothers, hledger, hrecovers,
    hopens⟩ := claimEntry_ok hvalid hentry h
  have hclaimed := Job.claim_ok hclaim
  refine .of_job hentry hclaimed.id hjobs hothers ?_ (fun _ => ?_) fun hnot => absurd hclaims hnot
  · rw [hledger]
    exact .claimed hclaimable hclaim hrecovers hopens
  · exact hclaimed.schedule.imp_right And.left

theorem claimNext_spec {eligible : Info → Bool} {locked : UUID → Bool} {workerId : String}
    {leaseSeconds : ℤ} {token : UUID} {answer : Option (Entry Code Info)} (hvalid : table.Valid)
    (hclaims : ∀ entry, table.candidate eligible locked at_ = some entry →
      scope.claims entry.job.id)
    (h : claimNext policy table eligible locked workerId leaseSeconds token at_ =
      .ok (answer, table')) : TableStep policy scope table table' := by
  unfold claimNext at h
  split at h
  · obtain ⟨-, rfl⟩ := Prod.mk.inj (Except.ok.inj h)
    exact .refl _
  · rename_i entry hcandidate
    obtain ⟨⟨answer, claimed⟩, hclaim, h⟩ := bind_ok h
    obtain ⟨-, rfl⟩ := Prod.mk.inj (Except.ok.inj h)
    obtain ⟨⟨id, hentry⟩, -, hclaimable⟩ := Table.candidate_some hcandidate
    obtain ⟨rfl, -⟩ := hvalid.sound id entry hentry
    exact claimEntry_spec hvalid hentry hclaimable (hclaims entry hcandidate) hclaim

theorem claimNext_ok {eligible : Info → Bool} {locked : UUID → Bool} {workerId : String}
    {leaseSeconds : ℤ} {token : UUID} {answer : Option (Entry Code Info)} {entry : Entry Code Info}
    (hvalid : table.Valid) (hcandidate : table.candidate eligible locked at_ = some entry)
    (h : claimNext policy table eligible locked workerId leaseSeconds token at_ =
      .ok (answer, table')) :
    ∃ claimed, answer = some claimed ∧ claimed.info = entry.info ∧
      Text.isBlank workerId = false ∧ 0 < leaseSeconds := by
  unfold claimNext at h
  rw [hcandidate] at h
  obtain ⟨⟨claimed, claimedTable⟩, hclaim, h⟩ := bind_ok h
  obtain ⟨rfl, rfl⟩ := Prod.mk.inj (Except.ok.inj h)
  obtain ⟨⟨id, hentry⟩, -⟩ := Table.candidate_some hcandidate
  obtain ⟨rfl, -⟩ := hvalid.sound id entry hentry
  obtain ⟨job, trigger, recovered, attempt, hjob, rfl, -⟩ := claimEntry_ok hvalid hentry hclaim
  exact ⟨_, rfl, rfl, Job.claim_arguments hjob⟩

/-- Closing the attempt of an expired lease does not fail for want of a reason. -/
def Policy.Closes (policy : Policy Code) : Prop :=
  ∀ code reason, policy.closesExpired = some (code, reason) → Text.isBlank reason = false

theorem closeExpired_succeeds {job : Job Code} (hpolicy : policy.Closes) :
    ∃ closed, closeExpired policy table job = .ok closed := by
  unfold closeExpired
  split
  · exact ⟨table, rfl⟩
  rename_i code reason hclose
  split
  · exact ⟨table, rfl⟩
  rename_i previous _
  by_cases hopen : previous.status = .claimed
  · have howned : previous.owned previous.leaseToken = true := Attempt.owned_iff.mpr ⟨hopen, rfl⟩
    rw [if_pos hopen]
    unfold Attempt.fail
    rw [if_neg (by simp [howned]), if_neg (by simp [hpolicy code reason hclose])]
    exact ⟨_, rfl⟩
  · rw [if_neg hopen]
    exact ⟨table, rfl⟩

/-- A claim with a worker and a lease succeeds. -/
theorem claimEntry_succeeds {workerId : String} {leaseSeconds : ℤ} {token : UUID}
    (hpolicy : policy.Closes) (hvalid : table.Valid)
    (hentry : table.jobs.get? entry.job.id = some entry)
    (hclaimable : entry.job.claimable at_ = true) (hworker : Text.isBlank workerId = false)
    (hlease : 0 < leaseSeconds) :
    ∃ answer table', claimEntry policy table entry workerId leaseSeconds token at_ =
      .ok (answer, table') := by
  obtain ⟨job, trigger, hclaim⟩ : ∃ job trigger,
      entry.job.claim policy workerId leaseSeconds token at_ = .ok (job, trigger) := by
    unfold Job.claim
    rw [if_neg (not_not.mpr (.inl hclaimable)), if_neg (by simp [hworker, hlease])]
    exact ⟨_, _, rfl⟩
  have hclaimed := Job.claim_ok hclaim
  have hsound := (hvalid.sound _ _ hentry).2
  obtain ⟨attempt, hcreate⟩ : ∃ attempt, Attempt.create policy job.id job.attemptCount trigger
      (job.workerId.getD workerId) token job.updatedAt = .ok attempt := by
    unfold Attempt.create
    rw [hclaimed.worker, Option.getD_some, hclaimed.count, if_neg (by simp [Text.isBlank_strip, hworker]),
      if_neg (by omega)]
    exact ⟨_, rfl⟩
  obtain ⟨hjobId, hnumber, -⟩ := Attempt.create_ok hcreate
  obtain ⟨closed, hclosed, hledger⟩ : ∃ closed, (if trigger = .leaseRecovery then
      closeExpired policy (table.saveJob { entry with job }) job
      else .ok (table.saveJob { entry with job })) = .ok closed ∧
      Numbered Attempt.attemptNumber (closed.ledger job.id) entry.job.attemptCount := by
    rw [hclaimed.id]
    split
    · obtain ⟨closed, hclosed⟩ : ∃ closed,
          closeExpired policy (table.saveJob { entry with job }) job = .ok closed :=
        closeExpired_succeeds hpolicy
      have hnumbered : Numbered Attempt.attemptNumber
          ((table.saveJob { entry with job }).ledger job.id) entry.job.attemptCount := by
        rw [Table.ledger_saveJob, hclaimed.id]
        exact hsound.numbered
      obtain ⟨-, -, hrecovers⟩ := closeExpired_spec hclaimed.count hnumbered hclosed
      rw [Table.ledger_saveJob, hclaimed.id] at hrecovers
      exact ⟨closed, hclosed, (hrecovers.spec hsound).1⟩
    · exact ⟨_, rfl, hsound.numbered⟩
  -- the numbers of the attempts end before the new one
  have hfree : closed.attempt attempt.jobId attempt.attemptNumber = none := by
    cases hfound : closed.attempt attempt.jobId attempt.attemptNumber with
    | none => rfl
    | some other =>
      obtain ⟨hmem, -, hother⟩ := Table.attempt_some hfound
      rw [hjobId] at hmem
      have hbound := (hledger.bounds hmem).2
      rw [hother, hnumber, hclaimed.count] at hbound
      omega
  unfold claimEntry
  simp only [hclaim, raiseDomain, bind, Except.bind, hclaimed.token, hclosed, hcreate,
    Table.addAttempt, hfree]
  exact ⟨_, _, rfl⟩

/-! ### Completions -/

/-- A claimed job of a valid table has the attempt that a completion closes. -/
theorem currentAttempt_spec {leaseToken : UUID} {attempt : Attempt Code} (hvalid : table.Valid)
    (hentry : table.jobs.get? entry.job.id = some entry) (hclaimed : entry.job.status = .claimed)
    (h : currentAttempt policy table entry.job leaseToken = .ok (attempt, table')) :
    table' = table ∧ attempt ∈ table.ledger entry.job.id ∧ attempt.jobId = entry.job.id ∧
      attempt.attemptNumber = entry.job.attemptCount := by
  unfold currentAttempt at h
  split at h
  · rename_i found hfound
    obtain ⟨rfl, rfl⟩ := Prod.mk.inj (Except.ok.inj h)
    exact ⟨rfl, Table.attempt_some hfound⟩
  · rename_i hnone
    obtain ⟨current, hcurrent, hnumber, -⟩ := (hvalid.sound _ _ hentry).2.current hclaimed
    exact absurd hnumber (Table.attempt_none hnone current hcurrent)

/-- The job and its current attempt end in one step. -/
theorem TableStep.finish {job : Job Code} {previous closed : Attempt Code}
    (hentry : table.jobs.get? entry.job.id = some entry) (hid : job.id = entry.job.id)
    (hcount : job.attemptCount = entry.job.attemptCount)
    (hprevious : previous.jobId = entry.job.id) (hcloses : Closes previous closed)
    (hstep : JobStep policy entry.job (table.ledger entry.job.id) job
      (replace (table.ledger entry.job.id) closed))
    (hschedule : ¬scope.fails entry.job.id → job.nextAttemptAt = none ∨
      job.nextAttemptAt = entry.job.nextAttemptAt) :
    TableStep policy scope table ((table.saveJob { entry with job }).saveAttempt closed) := by
  refine .of_job hentry hid (fun id => ?_) (fun id h => ?_) ?_ hschedule
    fun _ => hcount
  · rw [Table.jobs_saveAttempt, Table.get?_saveJob, hid]
  · rw [Table.ledger_close hcloses, hprevious, if_neg h, Table.ledger_saveJob]
  · rw [Table.ledger_close hcloses, hprevious, if_pos rfl, Table.ledger_saveJob]
    exact hstep

/-- The completion reports a failure. -/
def Completion.isFailure : Completion Code → Bool
  | .success _ => false
  | .failure .. => true

theorem finish_spec {leaseToken : UUID} {completion : Completion Code} {answer : Entry Code Info}
    (hvalid : table.Valid) (hentry : table.jobs.get? entry.job.id = some entry)
    (hfails : completion.isFailure = true → scope.fails entry.job.id)
    (h : finish policy table entry leaseToken completion at_ = .ok (answer, table')) :
    TableStep policy scope table table' := by
  unfold finish at h
  obtain ⟨⟨attempt, current⟩, hcurrent, h⟩ := bind_ok h
  cases completion with
  | success result =>
    obtain ⟨job, hsucceed, h⟩ := bind_ok h
    obtain ⟨closed, hclose, h⟩ := bind_ok h
    obtain ⟨-, rfl⟩ := Prod.mk.inj (Except.ok.inj h)
    have hsucceed := raiseDomain_ok hsucceed
    obtain ⟨howned, -, hcount, -, hnext, hid⟩ := Job.succeed_ok hsucceed
    obtain ⟨rfl, hmem, hjob, hnumber⟩ := currentAttempt_spec hvalid hentry howned.1 hcurrent
    obtain ⟨hcloses, -⟩ := Attempt.succeed_ok (raiseDomain_ok hclose)
    exact .finish hentry hid hcount hjob hcloses (.succeeded hsucceed hmem hnumber hcloses)
      fun _ => hnext
  | failure reason code retryable automaticRetryLimit nextAttemptAt =>
    obtain ⟨job, hfail, h⟩ := bind_ok h
    obtain ⟨closed, hclose, h⟩ := bind_ok h
    obtain ⟨-, rfl⟩ := Prod.mk.inj (Except.ok.inj h)
    have hfail := raiseDomain_ok hfail
    obtain ⟨howned, -, hcount, -, -, -, -, -, hid⟩ := Job.fail_ok hfail
    obtain ⟨rfl, hmem, hjob, hnumber⟩ := currentAttempt_spec hvalid hentry howned.1 hcurrent
    obtain ⟨hcloses, -⟩ := Attempt.fail_ok (raiseDomain_ok hclose)
    exact .finish hentry hid hcount hjob hcloses (.failed hfail hmem hnumber hcloses)
      fun hnot => absurd (hfails rfl) hnot

end

end JbOrchestrator.Outbox
