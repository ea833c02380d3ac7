import JbOrchestrator.Lib.Sql
import JbOrchestrator.Outbox.Tables

/-!
# Eligibility — the query of `claim_next` and the aggregate's `claim`

Who may claim a job when is written twice: as a condition on nullable columns and as branches over
optional fields.  Here the condition is translated as it stands and compared with the branches.
-/

open Lib

namespace JbOrchestrator.Outbox

open Domain Workflows Application

variable {Code Info : Type} {policy : Policy Code} {job : Job Code} {at_ : Instant}

/-! ## 1. The query -/

/-- The `or_` of the repository's `claim_next`. -/
def Job.claimCondition (job : Job Code) (now : Instant) : Sql.Truth :=
  Sql.disj
    (Sql.disj (Sql.eq (some job.status) (some .pending))
      (Sql.conj (Sql.eq (some job.status) (some .claimed)) (Sql.le job.leaseExpiresAt (some now))))
    (Sql.conj
      (Sql.conj
        (Sql.conj
          (Sql.conj (Sql.eq (some job.status) (some .failed)) (Sql.isTrue job.failureRetryable))
          (Sql.isNotNull job.nextAttemptAt))
        (Sql.le job.nextAttemptAt (some now)))
      (Sql.le (some (job.attemptCount : ℤ)) (some job.automaticRetryLimit)))

/-- The first row in the order of creation that the condition selects and nobody has locked. -/
def Table.claimQuery (table : Table Code Info) (condition : Info → Sql.Truth)
    (locked : UUID → Bool) (now : Instant) : Option (Entry Code Info) :=
  (((table.jobs.keys.filterMap table.jobs.get?).filter fun entry =>
    Sql.selects (Sql.conj (condition entry.info) (entry.job.claimCondition now)) &&
      !locked entry.job.id).insertionSort
        fun a b => a.job.createdAt < b.job.createdAt ∨
          a.job.createdAt = b.job.createdAt ∧ a.job.id ≤ b.job.id).head?

/-- NULL columns and missing values are decided alike. -/
theorem Job.selects_claimCondition (job : Job Code) (now : Instant) :
    Sql.selects (job.claimCondition now) = job.claimable now := by
  unfold Job.claimCondition Job.claimable Job.expired Job.scheduledRetry
  simp only [Sql.selects_disj, Sql.selects_conj, Sql.selects_eq, Sql.selects_le,
    Sql.selects_isTrue, Sql.selects_isNotNull, Option.any_some]
  cases job.nextAttemptAt with
  | none => simp
  | some next => simp

theorem Table.claimQuery_eq (table : Table Code Info) (condition : Info → Sql.Truth)
    (locked : UUID → Bool) (now : Instant) :
    table.claimQuery condition locked now =
      table.candidate (fun info => Sql.selects (condition info)) locked now := by
  unfold Table.claimQuery Table.candidate
  simp only [Sql.selects_conj, Job.selects_claimCondition]

/-! ## 2. The aggregate -/

theorem Job.claim_ok_iff {workerId : String} {leaseSeconds : ℤ} {token : UUID} :
    (∃ claimed, job.claim policy workerId leaseSeconds token at_ = .ok claimed) ↔
      (job.claimable at_ = true ∨ policy.claimsLeased = true ∧ job.status = .claimed) ∧
        Text.isBlank workerId = false ∧ 0 < leaseSeconds := by
  unfold Job.claim
  by_cases hguard : job.claimable at_ = true ∨ policy.claimsLeased = true ∧ job.status = .claimed
  · rw [if_neg (not_not.mpr hguard)]
    by_cases hargs : Text.isBlank workerId = true ∨ leaseSeconds ≤ 0
    · rw [if_pos hargs]
      constructor
      · rintro ⟨claimed, hclaimed⟩
        cases hclaimed
      · rintro ⟨-, hworker, hlease⟩
        rcases hargs with hblank | hnone
        · rw [hworker] at hblank
          cases hblank
        · omega
    · rw [if_neg hargs]
      rw [not_or, Bool.not_eq_true, not_le] at hargs
      exact ⟨fun _ => ⟨hguard, hargs⟩, fun _ => ⟨_, rfl⟩⟩
  · rw [if_pos hguard]
    constructor
    · rintro ⟨claimed, hclaimed⟩
      cases hclaimed
    · rintro ⟨h, -⟩
      exact absurd h hguard

theorem Job.expired_iff :
    job.expired at_ = true ↔ job.status = .claimed ∧
      ∃ expiresAt, job.leaseExpiresAt = some expiresAt ∧ expiresAt ≤ at_ := by
  unfold Job.expired
  rw [Bool.and_eq_true, decide_eq_true_eq, Option.any_eq_true]
  simp only [decide_eq_true_eq]

theorem Job.scheduledRetry_iff :
    job.scheduledRetry at_ = true ↔ job.status = .failed ∧ job.failureRetryable = some true ∧
      (∃ next, job.nextAttemptAt = some next ∧ next ≤ at_) ∧
      (job.attemptCount : ℤ) ≤ job.automaticRetryLimit := by
  unfold Job.scheduledRetry
  rw [Bool.and_eq_true, Bool.and_eq_true, Bool.and_eq_true, Option.any_eq_true]
  simp only [decide_eq_true_eq, and_assoc]

/-- A claimable job that is leased or failed is due. -/
theorem Job.due_of_claimable (h : job.claimable at_ = true) :
    (job.status = .claimed → ∃ expiresAt, job.leaseExpiresAt = some expiresAt ∧
      expiresAt ≤ at_) ∧
    (job.status = .failed → job.failureRetryable = some true ∧
      (∃ next, job.nextAttemptAt = some next ∧ next ≤ at_) ∧
      (job.attemptCount : ℤ) ≤ job.automaticRetryLimit) ∧
    job.status ≠ .succeeded := by
  unfold Job.claimable at h
  rw [Bool.or_eq_true, Bool.or_eq_true, decide_eq_true_eq, Job.expired_iff,
    Job.scheduledRetry_iff] at h
  rcases h with (hpending | ⟨hclaimed, hexpired⟩) | ⟨hfailed, hdue⟩
  · simp [hpending]
  · simpa [hclaimed] using hexpired
  · simpa [hfailed] using hdue

/-! ## 3. The service -/

/-- Claiming what the query selects never fails, and answers the selected job with a new lease. -/
theorem claimNext_succeeds {table : Table Code Info} {workerId : String} {leaseSeconds : ℤ}
    (eligible : Info → Bool) (locked : UUID → Bool) (token : UUID) (at_ : Instant)
    (hpolicy : policy.Closes) (hvalid : table.Valid) (hworker : Text.isBlank workerId = false)
    (hlease : 0 < leaseSeconds) :
    ∃ answer table', claimNext policy table eligible locked workerId leaseSeconds token at_ =
        .ok (answer, table') ∧
      (answer = none ↔ table.candidate eligible locked at_ = none) ∧
      ∀ claimed, answer = some claimed → ∃ before,
        table.candidate eligible locked at_ = some before ∧
          table.jobs.get? claimed.job.id = some before ∧ before.job.claimable at_ = true ∧
          claimed.job.leaseToken = some token := by
  unfold claimNext
  split
  · rename_i hnone
    refine ⟨none, table, rfl, by simp [hnone], ?_⟩
    intro claimed hclaimed
    cases hclaimed
  · rename_i entry hcandidate
    obtain ⟨⟨id, hentry⟩, -, hclaimable⟩ := Table.candidate_some hcandidate
    obtain ⟨rfl, -⟩ := hvalid.sound id entry hentry
    obtain ⟨answer, table', hclaim⟩ : ∃ answer table',
        claimEntry policy table entry workerId leaseSeconds token at_ = .ok (answer, table') :=
      claimEntry_succeeds hpolicy hvalid hentry hclaimable hworker hlease
    obtain ⟨job, trigger, recovered, attempt, hjob, rfl, -⟩ := claimEntry_ok hvalid hentry hclaim
    have hclaimed := Job.claim_ok hjob
    refine ⟨some { entry with job }, table', ?_, by simp [hcandidate], ?_⟩
    · simp only [hclaim, bind, Except.bind]
    · intro claimed hsame
      obtain rfl := Option.some.inj hsame
      refine ⟨entry, hcandidate, ?_, hclaimable, hclaimed.token⟩
      show table.jobs.get? job.id = some entry
      rw [hclaimed.id]
      exact hentry

end JbOrchestrator.Outbox
