import JbOrchestrator.Notifications.Deliveries
import JbOrchestrator.Outbox.Runtimes

/-!
# Runtime — the worker that delivers notifications

`NotificationRuntime.run_once`: it claims a delivery, calls the provider and records what came of it.
What other transactions do while the provider runs is an argument.
-/

open Lib

namespace JbOrchestrator.Notifications

open Domain Workflows Application Outbox

/-! ## 1. The runtime -/

/-- What `_failure_code` asks of an exception. -/
inductive NotificationExceptionKind where
  /-- `NotificationProviderFailure`. -/
  | providerFailure (code : NotificationFailureCode)
  /-- `TimeoutError`, also that of `asyncio.wait_for`. -/
  | timeout
  | other

abbrev NotificationException := Raised NotificationExceptionKind

/-- The arguments of the constructor that it admits. -/
structure NotificationRuntime where
  workerId : String
  supportedKeys : List String
  leaseSeconds : ℤ
  retries : RetrySettings
  worker_named : Text.isBlank workerId = false
  keys_nonempty : supportedKeys ≠ []
  lease_pos : 0 < leaseSeconds

namespace NotificationRuntime

variable (runtime : NotificationRuntime)

/-- `_failure_code`. -/
def failureCode (exc : NotificationException) : NotificationFailureCode :=
  match exc.kind with
  | .providerFailure code => code
  | .timeout => .timeout
  | .other => .unexpected

/-- The codes that are tried again. -/
def retryable (code : NotificationFailureCode) : Bool :=
  code = .providerUnavailable || code = .timeout

/-- The loop of `_claim_next` over the providers that are left. -/
def claimFirst (draws : String → Draw) :
    List String → DeliveryTable → Except ServiceError (Option NotificationDelivery × DeliveryTable)
  | [], table => .ok (none, table)
  | providerKey :: keys, table => do
    let draw := draws providerKey
    match ← Notifications.claimNext table (Text.strip runtime.workerId) providerKey
        runtime.leaseSeconds draw.token draw.locked draw.at_ with
    | (some delivery, table) => .ok (some delivery, table)
    | (none, table) => claimFirst draws keys table

/-- `_claim_next`. -/
def claimNext (draws : String → Draw) (table : DeliveryTable) :
    Except ServiceError (Option NotificationDelivery × DeliveryTable) :=
  runtime.claimFirst draws (runtime.supportedKeys.insertionSort (· ≤ ·)) table

/-- The rest of `run_once`, from what the provider answered or raised. -/
def report (table : DeliveryTable) (delivery : NotificationDelivery)
    (outcome : Except NotificationException JsonObject) (now at_ : Instant) :
    Except ServiceError (Bool × DeliveryTable) :=
  match delivery.job.leaseToken with
  | none => .error (.runtimeError "claimed notification delivery has no lease token")
  | some leaseToken =>
    match outcome with
    | .error exc => do
      let code := failureCode exc
      let (_, table) ← finish table delivery.job.id leaseToken (.failure exc.reason code
        (retryable code) runtime.retries.limit
        (runtime.retries.schedule delivery.job.attemptCount (retryable code) now)) at_
      .ok (true, table)
    | .ok result => do
      let (_, table) ← finish table delivery.job.id leaseToken (.success result) at_
      .ok (true, table)

/-- `run_once`; `meanwhile` is what the other transactions do while the provider runs. -/
def runOnce (draws : String → Draw) (deliver : NotificationDelivery →
    Except NotificationException JsonObject) (meanwhile : DeliveryTable → DeliveryTable)
    (now at_ : Instant) (table : DeliveryTable) : Except ServiceError (Bool × DeliveryTable) := do
  match ← runtime.claimNext draws table with
  | (none, table) => .ok (false, table)
  | (some delivery, table) =>
    runtime.report (meanwhile table) delivery (deliver delivery) now at_

end NotificationRuntime

/-! ## 2. What it records -/

section

variable {runtime : NotificationRuntime} {draws : String → Draw} {table table' : DeliveryTable}
  {delivery : NotificationDelivery} {now at_ : Instant}

/-- The claimed delivery is in the table with a lease of its own. -/
theorem NotificationRuntime.claimFirst_leased {keys : List String}
    {answer : Option NotificationDelivery} (hvalid : table.Valid)
    (h : runtime.claimFirst draws keys table = .ok (answer, table')) :
    table'.Valid ∧ ∀ claimed, answer = some claimed → Leased table' claimed ∧
      ∃ token, claimed.job.owned token = true ∧ claimed.job.leaseToken = some token := by
  induction keys generalizing table with
  | nil =>
    obtain ⟨rfl, rfl⟩ := Prod.mk.inj (Except.ok.inj h)
    refine ⟨hvalid, ?_⟩
    intro claimed hclaimed
    cases hclaimed
  | cons providerKey keys ih =>
    obtain ⟨⟨found, grown⟩, hclaim, h⟩ := bind_ok h
    obtain ⟨hgrown, hfound⟩ := claimNext_leased hvalid hclaim
    cases found with
    | none => exact ih hgrown h
    | some first =>
      obtain ⟨rfl, rfl⟩ := Prod.mk.inj (Except.ok.inj h)
      refine ⟨hgrown, ?_⟩
      intro claimed hclaimed
      obtain ⟨hleased, howned⟩ := hfound claimed hclaimed
      exact ⟨hleased, _, howned⟩

/-- An exception of the provider is recorded, unless its message consists of blanks. -/
theorem NotificationRuntime.report_failure_iff {exc : NotificationException} {token : UUID}
    (hvalid : table.Valid) (hleased : Leased table delivery)
    (howned : delivery.job.owned token = true) (htoken : delivery.job.leaseToken = some token) :
    (∃ table', runtime.report table delivery (.error exc) now at_ = .ok (true, table') ∧
      Recorded table' delivery) ↔ ¬exc.Blank := by
  have hreport : ∀ table', runtime.report table delivery (.error exc) now at_ = .ok (true, table') ↔
      ∃ answer, Outbox.finish policy table delivery token (.failure exc.reason (failureCode exc)
        (retryable (failureCode exc)) runtime.retries.limit (runtime.retries.schedule
          delivery.job.attemptCount (retryable (failureCode exc)) now)) at_ =
            .ok (answer, table') := by
    intro table'
    have hfound : table.jobs.get? delivery.job.id = some delivery := hleased
    unfold report
    simp only [htoken, Notifications.finish, hfound, bind, Except.bind]
    cases Outbox.finish policy table delivery token (.failure exc.reason (failureCode exc)
        (retryable (failureCode exc)) runtime.retries.limit (runtime.retries.schedule
          delivery.job.attemptCount (retryable (failureCode exc)) now)) at_ with
    | error error => simp
    | ok finished => simp [Prod.ext_iff]
  rw [← exc.isBlank_reason, ← finish_failure_iff hvalid hleased howned]
  constructor
  · rintro ⟨table', hok, hrecorded⟩
    obtain ⟨answer, hfinish⟩ := (hreport table').mp hok
    exact ⟨answer, table', hfinish, hrecorded⟩
  · rintro ⟨answer, table', hfinish, hrecorded⟩
    exact ⟨table', (hreport table').mpr ⟨answer, hfinish⟩, hrecorded⟩

/-- `run_once` with a provider that raises, on a claim that nobody touches before it is reported. -/
theorem NotificationRuntime.runOnce_failure_iff {exc : NotificationException}
    {deliver : NotificationDelivery → Except NotificationException JsonObject} {later : List Call}
    (hvalid : table.Valid) (hclaim : runtime.claimNext draws table = .ok (some delivery, table'))
    (hleased : Leased (notifications.run table' later) delivery)
    (hraises : deliver delivery = .error exc) :
    (∃ after, runtime.runOnce draws deliver (notifications.run · later) now at_ table =
        .ok (true, after) ∧ Recorded after delivery) ↔ ¬exc.Blank := by
  obtain ⟨hclaimed, hfound⟩ := claimFirst_leased hvalid hclaim
  obtain ⟨-, token, howned, htoken⟩ := hfound delivery rfl
  have hlater : (notifications.run table' later).Valid :=
    notifications.run_invariant notifications_serves.valid_step hclaimed later
  unfold runOnce
  rw [hclaim]
  show (∃ after, runtime.report (notifications.run table' later) delivery (deliver delivery) now at_ =
    .ok (true, after) ∧ Recorded after delivery) ↔ _
  rw [hraises]
  exact report_failure_iff hlater hleased howned htoken

end

end JbOrchestrator.Notifications
