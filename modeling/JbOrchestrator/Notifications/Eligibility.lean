import JbOrchestrator.Notifications.Deliveries
import JbOrchestrator.Outbox.Eligibility

/-!
# Eligibility — which notification deliveries may be claimed

`NotificationDelivery.claim` accepts exactly what the repository's query selects, so that the service
never fails on the delivery it has selected.
-/

open Lib

namespace JbOrchestrator.Notifications

open Domain Workflows Application Outbox

/-- The delivery that the query of `claim_next` locks. -/
def claimQuery (table : DeliveryTable) (providerKey : String) (locked : UUID → Bool)
    (now : Instant) : Option NotificationDelivery :=
  table.claimQuery (fun info => Sql.eq (some info.providerKey) (some providerKey)) locked now

theorem claimQuery_eq (table : DeliveryTable) (providerKey : String) (locked : UUID → Bool)
    (now : Instant) :
    claimQuery table providerKey locked now =
      table.candidate (fun info => info.providerKey = providerKey) locked now := by
  unfold claimQuery
  rw [Table.claimQuery_eq]
  simp only [Sql.selects_eq]

theorem policy_closes : policy.Closes := by
  intro code reason hclose
  obtain ⟨-, rfl⟩ := Prod.mk.inj (Option.some.inj hclose)
  decide

/-- The aggregate and the query decide alike; in every run a claim of the service succeeds, takes over
expired leases only and starts due retries only. -/
theorem claim_eligibility :
    (∀ (job : Job NotificationFailureCode) (workerId : String) (leaseSeconds : ℤ) (token : UUID)
      (at_ : Instant),
      (∃ claimed, job.claim policy workerId leaseSeconds token at_ = .ok claimed) ↔
        Sql.selects (job.claimCondition at_) = true ∧ Text.isBlank workerId = false ∧
          0 < leaseSeconds) ∧
    ∀ (calls : List Call) (workerId providerKey : String) (leaseSeconds : ℤ) (token : UUID)
      (locked : UUID → Bool) (at_ : Instant), Text.isBlank workerId = false → 0 < leaseSeconds →
      ∃ answer table',
        claimNext (notifications.run {} calls) workerId providerKey leaseSeconds token locked at_ =
          .ok (answer, table') ∧
        (answer = none ↔ claimQuery (notifications.run {} calls) providerKey locked at_ = none) ∧
        ∀ claimed, answer = some claimed → ∃ before,
          claimQuery (notifications.run {} calls) providerKey locked at_ = some before ∧
          (notifications.run {} calls).jobs.get? claimed.job.id = some before ∧
          (before.job.status = .claimed → ∃ expiresAt,
            before.job.leaseExpiresAt = some expiresAt ∧ expiresAt ≤ at_) ∧
          (before.job.status = .failed → before.job.failureRetryable = some true ∧
            (∃ next, before.job.nextAttemptAt = some next ∧ next ≤ at_) ∧
            (before.job.attemptCount : ℤ) ≤ before.job.automaticRetryLimit) ∧
          before.job.status ≠ .succeeded := by
  apply And.intro
  · intro job workerId leaseSeconds token at_
    rw [Job.claim_ok_iff, Job.selects_claimCondition]
    -- this policy does not take over leases that still run
    have hleased : policy.claimsLeased = false := rfl
    simp [hleased]
  · intro calls workerId providerKey leaseSeconds token locked at_ hworker hlease
    have hvalid : (notifications.run {} calls).Valid := notifications_serves.valid_run calls
    obtain ⟨answer, table', hclaim, hnone, hsome⟩ :=
      claimNext_succeeds (fun info : DeliveryInfo => info.providerKey = providerKey) locked token at_
        policy_closes hvalid hworker hlease
    rw [claimQuery_eq]
    refine ⟨answer, table', hclaim, hnone, ?_⟩
    intro claimed hclaimed
    obtain ⟨before, hcandidate, hbefore, hclaimable, -⟩ := hsome claimed hclaimed
    exact ⟨before, hcandidate, hbefore, Job.due_of_claimable hclaimable⟩

def sampleSubscription : NotificationSubscription where
  id := 1
  providerKey := "webhook"
  destinationRef := "ops"
  eventTypes := [.workerReadinessAlerted]

/-- One delivery, claimed for a minute. -/
def sampleClaims : List Call :=
  [.enqueue ⟨5, 2, "worker.readiness_alerted", some 3⟩ [(sampleSubscription, 4)] 0,
    .claimNext "first" "webhook" 60 6 (fun _ => false) 1000000]

/-- When the minute is over another worker takes the lease. -/
theorem claim_eligibility_sample :
    ∃ claimed table' before, claimNext (notifications.run {} sampleClaims) "second" "webhook" 60 7
        (fun _ => false) 61000000 = .ok (some claimed, table') ∧
      (notifications.run {} sampleClaims).jobs.get? claimed.job.id = some before ∧
      before.job.status ≠ .succeeded := by
  obtain ⟨answer, table', hclaim, hnone, hsome⟩ := claim_eligibility.2 sampleClaims "second"
    "webhook" 60 7 (fun _ => false) 61000000 (by decide) (by decide)
  have hselected : (claimQuery (notifications.run {} sampleClaims) "webhook" (fun _ => false)
      61000000).isSome = true := by decide +kernel
  cases answer with
  | none =>
    rw [hnone.mp rfl] at hselected
    cases hselected
  | some claimed =>
    obtain ⟨before, -, hbefore, -, -, hstatus⟩ := hsome claimed rfl
    exact ⟨claimed, table', before, hclaim, hbefore, hstatus⟩

end JbOrchestrator.Notifications
