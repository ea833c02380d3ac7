import JbOrchestrator.Lib.Rounding
import JbOrchestrator.Outbox.Tables
import Mathlib.Data.Nat.Log

/-!
# Runtimes — how a worker reports that a provider has failed

Both delivery workers turn an exception into a reason, a code and a schedule and hand them to their
service.  The service records them for every reason that is not blank.
-/

open Lib

namespace JbOrchestrator.Outbox

open Domain Workflows Application

/-! ## 1. Exceptions and schedules -/

/-- An exception: what the runtime asks of its class, `str(exc)` and `type(exc).__name__`. -/
structure Raised (Kind : Type) where
  kind : Kind
  text : String
  typeName : String
  /-- The name of a class is an identifier. -/
  named : Text.isBlank typeName = false

/-- `str(exc) or type(exc).__name__`. -/
def Raised.reason {Kind : Type} (exc : Raised Kind) : String :=
  if exc.text = "" then exc.typeName else exc.text

/-- The message is there and consists of blanks. -/
def Raised.Blank {Kind : Type} (exc : Raised Kind) : Prop :=
  exc.text ≠ "" ∧ Text.isBlank exc.text = true

theorem Raised.isBlank_reason {Kind : Type} (exc : Raised Kind) :
    Text.isBlank exc.reason = false ↔ ¬exc.Blank := by
  unfold Raised.reason Raised.Blank
  by_cases htext : exc.text = ""
  · simp [htext, exc.named]
  · simp [htext]

/-- The arguments of a runtime about automatic retries, as its constructor admits them. -/
structure RetrySettings where
  limit : ℤ
  baseDelaySeconds : ℚ
  maxDelaySeconds : ℚ
  limit_range : 0 ≤ limit ∧ limit ≤ maxAutomaticRetryLimit
  base_pos : 0 < baseDelaySeconds
  base_le : baseDelaySeconds ≤ maxDelaySeconds

namespace RetrySettings

variable (settings : RetrySettings)

/-- `ceil(log2(max_delay / base_delay))`. -/
def stepsToCap : ℕ := Nat.clog 2 ⌈settings.maxDelaySeconds / settings.baseDelaySeconds⌉₊

def delaySeconds (attemptCount : ℕ) : ℚ :=
  min (settings.baseDelaySeconds * 2 ^ min (attemptCount - 1) settings.stepsToCap)
    settings.maxDelaySeconds

/-- `_next_attempt_at`; `timedelta` rounds to a microsecond. -/
def nextAttemptAt (attemptCount : ℕ) (now : Instant) : Option Instant :=
  if settings.limit = 0 then none
  else if settings.limit < attemptCount then none
  else some (now + roundHalfEven (1000000 * settings.delaySeconds attemptCount))

/-- The schedule that a runtime passes to `fail`. -/
def schedule (attemptCount : ℕ) (retryable : Bool) (now : Instant) : Option Instant :=
  if retryable then settings.nextAttemptAt attemptCount now else none

/-- A schedule always comes with an attempt that is left. -/
theorem schedule_available {attemptCount : ℕ} {retryable : Bool} {now : Instant}
    (h : settings.schedule attemptCount retryable now ≠ none) :
    retryable = true ∧ (attemptCount : ℤ) ≤ settings.limit := by
  unfold schedule nextAttemptAt at h
  cases retryable with
  | false => exact absurd rfl h
  | true =>
    rw [if_pos rfl] at h
    split at h
    · exact absurd rfl h
    split at h
    · exact absurd rfl h
    · rename_i hleft
      exact ⟨rfl, not_lt.mp hleft⟩

end RetrySettings

/-! ## 2. Claiming -/

variable {Code Info : Type} {policy : Policy Code} {table table' : Table Code Info}
  {entry : Entry Code Info} {leaseToken : UUID} {at_ : Instant}

/-- What a claim draws and finds locked, and its time. -/
structure Draw where
  token : UUID
  locked : UUID → Bool
  at_ : Instant

/-- The row of the claim is as the claim left it. -/
def Leased (table : Table Code Info) (claimed : Entry Code Info) : Prop :=
  table.jobs.get? claimed.job.id = some claimed

theorem claimNext_leased {eligible : Info → Bool} {locked : UUID → Bool} {workerId : String}
    {leaseSeconds : ℤ} {token : UUID} {answer : Option (Entry Code Info)} (hvalid : table.Valid)
    (h : claimNext policy table eligible locked workerId leaseSeconds token at_ =
      .ok (answer, table')) :
    table'.Valid ∧ ∀ claimed, answer = some claimed → Leased table' claimed ∧
      claimed.job.owned token = true ∧ claimed.job.leaseToken = some token := by
  have hstep : TableStep policy ⟨fun _ => False, fun _ => True⟩ table table' :=
    claimNext_spec hvalid (fun _ _ => trivial) h
  refine ⟨hstep.valid hvalid, ?_⟩
  unfold claimNext at h
  split at h
  · obtain ⟨rfl, -⟩ := Prod.mk.inj (Except.ok.inj h)
    intro claimed hclaimed
    cases hclaimed
  · rename_i entry hcandidate
    obtain ⟨⟨claimed, claimedTable⟩, hclaim, h⟩ := bind_ok h
    obtain ⟨rfl, rfl⟩ := Prod.mk.inj (Except.ok.inj h)
    obtain ⟨⟨id, hentry⟩, -⟩ := Table.candidate_some hcandidate
    obtain ⟨rfl, -⟩ := hvalid.sound id entry hentry
    obtain ⟨job, trigger, recovered, attempt, hjob, rfl, hjobs, -⟩ := claimEntry_ok hvalid hentry hclaim
    have hfrom := Job.claim_ok hjob
    intro answered hsame
    obtain rfl := Option.some.inj hsame
    refine ⟨?_, Job.owned_iff.mpr ⟨hfrom.status, hfrom.token⟩, hfrom.token⟩
    show claimedTable.jobs.get? job.id = some { entry with job }
    rw [hjobs, if_pos hfrom.id]

/-! ## 3. Recording a failure -/

/-- The job is failed with a reason, and the attempt of its claim is finished. -/
structure Recorded (table' : Table Code Info) (entry : Entry Code Info) : Prop where
  job : ∃ entry', table'.jobs.get? entry.job.id = some entry' ∧ entry'.job.status = .failed ∧
    ∃ reason, entry'.job.failureReason = some reason ∧ Text.isBlank reason = false
  attempt : ∃ attempt ∈ table'.ledger entry.job.id,
    attempt.attemptNumber = entry.job.attemptCount ∧ attempt.status = .failed ∧
      attempt.finishedAt.isSome

/-- A claimed job has its attempt in the table. -/
theorem currentAttempt_claimed (policy : Policy Code) (hvalid : table.Valid)
    (hentry : table.jobs.get? entry.job.id = some entry)
    (howned : entry.job.owned leaseToken = true) :
    ∃ attempt ∈ table.ledger entry.job.id, attempt.jobId = entry.job.id ∧
      attempt.attemptNumber = entry.job.attemptCount ∧ attempt.owned leaseToken = true ∧
        currentAttempt policy table entry.job leaseToken = .ok (attempt, table) := by
  obtain ⟨hclaimed, htoken⟩ := Job.owned_iff.mp howned
  have hsound := (hvalid.sound _ _ hentry).2
  obtain ⟨current, hmem, hnumber, hopen, hcurrentToken⟩ := hsound.current hclaimed
  have hsame : current.leaseToken = leaseToken :=
    Option.some.inj (hcurrentToken.symm.trans htoken)
  refine ⟨current, hmem, (Table.mem_ledger.mp hmem).2, hnumber,
    Attempt.owned_iff.mpr ⟨hopen, hsame⟩, ?_⟩
  unfold currentAttempt
  cases hfound : table.attempt entry.job.id entry.job.attemptCount with
  | none => exact absurd hnumber (Table.attempt_none hfound current hmem)
  | some found =>
    obtain ⟨hfoundMem, -, hfoundNumber⟩ := Table.attempt_some hfound
    rw [hsound.numbered.inj hfoundMem hmem (hfoundNumber.trans hnumber.symm)]

theorem finish_info {completion : Completion Code} {answer : Entry Code Info}
    (h : finish policy table entry leaseToken completion at_ = .ok (answer, table')) :
    answer.info = entry.info := by
  unfold finish at h
  obtain ⟨⟨attempt, current⟩, -, h⟩ := bind_ok h
  cases completion with
  | success =>
    obtain ⟨job, -, h⟩ := bind_ok h
    obtain ⟨closed, -, h⟩ := bind_ok h
    obtain ⟨rfl, -⟩ := Prod.mk.inj (Except.ok.inj h)
    rfl
  | failure =>
    obtain ⟨job, -, h⟩ := bind_ok h
    obtain ⟨closed, -, h⟩ := bind_ok h
    obtain ⟨rfl, -⟩ := Prod.mk.inj (Except.ok.inj h)
    rfl

/-- The owner of a lease reports a failure: it is recorded unless the reason is blank. -/
theorem finish_failure_iff {reason : String} {code : Code} {retryable : Bool}
    {settings : RetrySettings} {now : Instant} (hvalid : table.Valid)
    (hentry : table.jobs.get? entry.job.id = some entry)
    (howned : entry.job.owned leaseToken = true) :
    (∃ answer table', finish policy table entry leaseToken
        (.failure reason code retryable settings.limit
          (settings.schedule entry.job.attemptCount retryable now)) at_ = .ok (answer, table') ∧
      Recorded table' entry) ↔ Text.isBlank reason = false := by
  obtain ⟨attempt, hmem, hjob, hnumber, hattempt, hcurrent⟩ :=
    currentAttempt_claimed policy hvalid hentry howned
  unfold finish
  simp only [hcurrent, bind, Except.bind]
  by_cases hblank : Text.isBlank reason = true
  · -- the aggregate refuses the reason
    have hrefused : entry.job.fail policy leaseToken reason code retryable settings.limit
        (settings.schedule entry.job.attemptCount retryable now) at_ =
        .error (.domainValidationError policy.texts.emptyReason) := by
      unfold Job.fail
      rw [if_neg (by simp [howned]), if_pos hblank]
    simp [hrefused, raiseDomain, hblank]
  · have hreason : Text.isBlank reason = false := by simpa using hblank
    have hschedule : ¬(settings.schedule entry.job.attemptCount retryable now ≠ none ∧
        (retryable = false ∨ settings.limit < entry.job.attemptCount)) := by
      rintro ⟨hsome, hunavailable⟩
      obtain ⟨hretryable, hle⟩ := settings.schedule_available hsome
      rcases hunavailable with hnot | hlt
      · rw [hretryable] at hnot
        cases hnot
      · omega
    obtain ⟨job, hfail⟩ : ∃ job, entry.job.fail policy leaseToken reason code retryable
        settings.limit (settings.schedule entry.job.attemptCount retryable now) at_ = .ok job := by
      unfold Job.fail
      rw [if_neg (by simp [howned]), if_neg hblank, if_neg (not_not.mpr settings.limit_range),
        if_neg hschedule]
      exact ⟨_, rfl⟩
    have hstored : job.id = entry.job.id ∧ job.status = .failed ∧
        job.failureReason = some (Text.strip reason) := by
      unfold Job.fail at hfail
      rw [if_neg (by simp [howned]), if_neg hblank, if_neg (not_not.mpr settings.limit_range),
        if_neg hschedule] at hfail
      obtain rfl := Except.ok.inj hfail
      exact ⟨rfl, rfl, rfl⟩
    obtain ⟨closed, hclose, hclosed⟩ : ∃ closed,
        attempt.fail policy leaseToken reason code retryable at_ = .ok closed ∧
          closed.status = .failed := by
      unfold Attempt.fail
      rw [if_neg (by simp [hattempt]), if_neg hblank]
      exact ⟨_, rfl, rfl⟩
    obtain ⟨hcloses, -⟩ := Attempt.fail_ok hclose
    simp only [hfail, hclose, raiseDomain]
    refine iff_of_true ⟨_, _, rfl, ⟨?_, ?_⟩⟩ hreason
    · refine ⟨{ entry with job }, ?_, hstored.2.1, _, hstored.2.2, by rw [Text.isBlank_strip, hreason]⟩
      rw [Table.jobs_saveAttempt, Table.get?_saveJob, if_pos hstored.1.symm]
    · refine ⟨closed, ?_, hcloses.number.trans hnumber, hclosed, hcloses.finished⟩
      rw [Table.ledger_close hcloses, if_pos hjob.symm, Table.ledger_saveJob]
      exact hcloses.mem_replace hmem

end JbOrchestrator.Outbox
