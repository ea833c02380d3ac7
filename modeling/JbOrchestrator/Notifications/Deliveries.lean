import JbOrchestrator.Outbox.Histories

/-!
# Deliveries — notification deliveries and their attempts

`NotificationService` as calls on a table of deliveries.  A recovered lease closes its attempt, so the
ledger of every delivery is right in every run.
-/

open Lib

namespace JbOrchestrator.Notifications

open Domain Workflows Application Outbox

/-! ## 1. Records -/

inductive NotificationEventType where
  | workerReadinessAlerted | workerReadinessCritical | workerReadinessResolved
  deriving DecidableEq, Repr

/-- `NotificationEventType(value)`. -/
def NotificationEventType.ofValue : String → Option NotificationEventType
  | "worker.readiness_alerted" => some .workerReadinessAlerted
  | "worker.readiness_critical" => some .workerReadinessCritical
  | "worker.readiness_resolved" => some .workerReadinessResolved
  | _ => none

inductive NotificationFailureCode where
  | providerRejected | providerUnavailable | timeout | leaseExpired | unexpected
  deriving DecidableEq, Repr

structure NotificationSubscription where
  id : UUID
  providerKey : String
  destinationRef : String
  eventTypes : List NotificationEventType
  enabled : Bool := true

def NotificationSubscription.accepts (subscription : NotificationSubscription)
    (eventType : NotificationEventType) : Bool :=
  subscription.enabled && decide (eventType ∈ subscription.eventTypes)

/-- What a delivery is about. -/
structure DeliveryInfo where
  subscriptionId : UUID
  projectId : UUID
  eventId : UUID
  alertId : UUID
  eventType : NotificationEventType
  providerKey : String
  destinationRef : String
  deriving DecidableEq

abbrev NotificationDelivery := Entry NotificationFailureCode DeliveryInfo

abbrev NotificationDeliveryAttempt := Attempt NotificationFailureCode

abbrev DeliveryTable := Table NotificationFailureCode DeliveryInfo

/-- `PROVIDER_KEY_PATTERN.fullmatch`. -/
def matchesProviderKey (key : String) : Bool :=
  match key.toList with
  | [] => false
  | first :: rest => first.isLower && decide (rest.length ≤ 63) && rest.all fun c =>
      c.isLower || c.isDigit || c = '.' || c = '_' || c = '-'

/-- The constructor with `__post_init__`. -/
def NotificationDelivery.create (id : UUID) (info : DeliveryInfo) (createdAt : Instant) :
    Except DomainError NotificationDelivery :=
  if matchesProviderKey info.providerKey = false then
    .error (.domainValidationError "notification provider key is invalid")
  else if info.destinationRef.isEmpty ∨ 255 < info.destinationRef.length then
    .error (.domainValidationError "notification delivery destination reference is invalid")
  else .ok ⟨{ id, createdAt, updatedAt := createdAt }, info⟩

def policy : Policy NotificationFailureCode where
  texts := {
    notClaimable := "notification delivery cannot be claimed"
    claimArguments := "notification delivery claim requires worker and lease"
    notRetryable := "only failed notification delivery can be retried"
    notCancellable := "automatic retry can only be cancelled for failed notification delivery"
    notOwned := "notification delivery lease is not owned"
    emptyReason := "notification delivery failure reason must not be empty"
    retryUnavailable := "scheduled notification retry requires an available retry attempt"
    attemptWorker := "notification attempt requires number and worker"
    attemptNumber := "notification attempt requires number and worker"
    attemptNotOwned := "notification attempt lease is not owned"
    attemptEmptyReason := "notification attempt failure reason must not be empty"
    retrySucceeded := "succeeded notification delivery cannot be retried"
    cancelActive := "active notification delivery has no automatic retry to cancel"
    cancelSucceeded := "succeeded notification delivery has no automatic retry to cancel"
    noWorker := "claimed notification delivery has no worker"
    noToken := "claimed notification delivery has no lease token" }
  claimsLeased := false
  forgetsSchedule := false
  forgetsResult := true
  closesExpired := some (.leaseExpired, "notification delivery lease expired before completion")

/-! ## 2. Services -/

/-- The domain event that `enqueue_notification_deliveries` looks at. -/
structure SourceEvent where
  id : UUID
  aggregateId : UUID
  eventType : String
  /-- `alert_id` of the payload. -/
  alertId : Option UUID

/-- The loop over the enabled subscriptions; each comes with the id that `uuid4` draws. -/
def enqueueEach (event : SourceEvent) (eventType : NotificationEventType) (alertId : UUID)
    (at_ : Instant) : List (NotificationSubscription × UUID) → ℕ → DeliveryTable →
    Except ServiceError (ℕ × DeliveryTable)
  | [], created, table => .ok (created, table)
  | (subscription, id) :: subscriptions, created, table =>
    if subscription.accepts eventType = false then
      enqueueEach event eventType alertId at_ subscriptions created table
    else do
      let delivery ← raiseDomain (NotificationDelivery.create id
        { subscriptionId := subscription.id, projectId := event.aggregateId, eventId := event.id,
          alertId, eventType, providerKey := subscription.providerKey,
          destinationRef := subscription.destinationRef } at_)
      let (added, table) ← table.tryAdd (fun info =>
        info.subscriptionId = subscription.id && info.eventId = event.id) delivery
      enqueueEach event eventType alertId at_ subscriptions (if added then created + 1 else created)
        table

def enqueueNotificationDeliveries (table : DeliveryTable) (event : SourceEvent)
    (subscriptions : List (NotificationSubscription × UUID)) (at_ : Instant) :
    Except ServiceError (ℕ × DeliveryTable) :=
  match NotificationEventType.ofValue event.eventType with
  | none => .ok (0, table)
  | some eventType =>
    match event.alertId with
    | none => .error (.runtimeError "notification source event requires an alert_id")
    | some alertId => enqueueEach event eventType alertId at_ subscriptions 0 table

/-- `_project_delivery`. -/
def projectDelivery (table : DeliveryTable) (projects : UUID → Bool) (projectId deliveryId : UUID) :
    Except ServiceError NotificationDelivery :=
  if projects projectId = false then .error (notFound "project" projectId)
  else match table.jobs.get? deliveryId with
    | none => .error (notFound "notification delivery" deliveryId)
    | some delivery =>
      if delivery.info.projectId ≠ projectId then
        .error (notFound "notification delivery" deliveryId)
      else .ok delivery

def retry (table : DeliveryTable) (projects : UUID → Bool) (projectId deliveryId : UUID)
    (at_ : Instant) : Except ServiceError ((NotificationDelivery × Bool) × DeliveryTable) := do
  let delivery ← projectDelivery table projects projectId deliveryId
  Outbox.retry policy table delivery at_

def cancelAutomaticRetry (table : DeliveryTable) (projects : UUID → Bool)
    (projectId deliveryId : UUID) (at_ : Instant) :
    Except ServiceError ((NotificationDelivery × Bool) × DeliveryTable) := do
  let delivery ← projectDelivery table projects projectId deliveryId
  Outbox.cancelAutomaticRetry policy table delivery at_

def claimNext (table : DeliveryTable) (workerId providerKey : String) (leaseSeconds : ℤ)
    (token : UUID) (locked : UUID → Bool) (at_ : Instant) :
    Except ServiceError (Option NotificationDelivery × DeliveryTable) :=
  Outbox.claimNext policy table (fun info => info.providerKey = providerKey) locked workerId
    leaseSeconds token at_

/-- `_finish`. -/
def finish (table : DeliveryTable) (deliveryId leaseToken : UUID)
    (completion : Completion NotificationFailureCode) (at_ : Instant) :
    Except ServiceError (NotificationDelivery × DeliveryTable) :=
  match table.jobs.get? deliveryId with
  | none => .error (notFound "notification delivery" deliveryId)
  | some delivery => Outbox.finish policy table delivery leaseToken completion at_

/-! ## 3. Calls -/

/-- A call, with what its transaction reads elsewhere, draws and finds locked. -/
inductive Call where
  | enqueue (event : SourceEvent) (subscriptions : List (NotificationSubscription × UUID))
      (at_ : Instant)
  | retry (projects : UUID → Bool) (projectId deliveryId : UUID) (at_ : Instant)
  | cancelAutomaticRetry (projects : UUID → Bool) (projectId deliveryId : UUID) (at_ : Instant)
  | claimNext (workerId providerKey : String) (leaseSeconds : ℤ) (token : UUID)
      (locked : UUID → Bool) (at_ : Instant)
  | succeed (deliveryId leaseToken : UUID) (result : JsonObject) (at_ : Instant)
  | fail (deliveryId leaseToken : UUID) (reason : String) (code : NotificationFailureCode)
      (retryable : Bool) (automaticRetryLimit : ℤ) (nextAttemptAt : Option Instant) (at_ : Instant)

inductive Answer where
  | enqueued (created : ℕ)
  | delivery (delivery : NotificationDelivery)
  | replay (delivery : NotificationDelivery) (unchanged : Bool)
  | claim (delivery : Option NotificationDelivery)

def Call.perform (table : DeliveryTable) : Call → Except ServiceError (Answer × DeliveryTable)
  | .enqueue event subscriptions at_ => do
    let (created, table) ← enqueueNotificationDeliveries table event subscriptions at_
    .ok (.enqueued created, table)
  | .retry projects projectId deliveryId at_ => do
    let ((delivery, unchanged), table) ←
      Notifications.retry table projects projectId deliveryId at_
    .ok (.replay delivery unchanged, table)
  | .cancelAutomaticRetry projects projectId deliveryId at_ => do
    let ((delivery, unchanged), table) ←
      Notifications.cancelAutomaticRetry table projects projectId deliveryId at_
    .ok (.replay delivery unchanged, table)
  | .claimNext workerId providerKey leaseSeconds token locked at_ => do
    let (delivery, table) ←
      Notifications.claimNext table workerId providerKey leaseSeconds token locked at_
    .ok (.claim delivery, table)
  | .succeed deliveryId leaseToken result at_ => do
    let (delivery, table) ← finish table deliveryId leaseToken (.success result) at_
    .ok (.delivery delivery, table)
  | .fail deliveryId leaseToken reason code retryable automaticRetryLimit nextAttemptAt at_ => do
    let (delivery, table) ← finish table deliveryId leaseToken
      (.failure reason code retryable automaticRetryLimit nextAttemptAt) at_
    .ok (.delivery delivery, table)

/-- A call that raises is rolled back. -/
def Call.step (table : DeliveryTable) (call : Call) : Except ServiceError Answer × DeliveryTable :=
  match call.perform table with
  | .ok (answer, table') => (.ok answer, table')
  | .error error => (.error error, table)

def notifications : Machine DeliveryTable Call (Except ServiceError Answer) := ⟨Call.step⟩

/-- The call reports a failure of the delivery. -/
def Call.fails (id : UUID) : Call → Prop
  | .fail deliveryId .. => deliveryId = id
  | _ => False

/-- The call is a manual retry or a cancel for the delivery. -/
def Call.resets (id : UUID) : Call → Prop
  | .retry _ _ deliveryId _ | .cancelAutomaticRetry _ _ deliveryId _ => deliveryId = id
  | _ => False

def Call.scope (call : Call) : Scope where
  fails id := call.fails id
  claims _ := True

/-! ## 4. What a call does -/

theorem NotificationDelivery.create_fresh {id : UUID} {info : DeliveryInfo} {createdAt : Instant}
    {delivery : NotificationDelivery} (h : NotificationDelivery.create id info createdAt = .ok delivery) :
    Fresh delivery.job := by
  unfold NotificationDelivery.create at h
  split at h
  · cases h
  split at h
  · cases h
  · obtain rfl := Except.ok.inj h
    exact ⟨rfl, rfl, rfl, rfl⟩

theorem enqueueEach_grows {event : SourceEvent} {eventType : NotificationEventType} {alertId : UUID}
    {at_ : Instant} {subscriptions : List (NotificationSubscription × UUID)} {created created' : ℕ}
    {table table' : DeliveryTable}
    (h : enqueueEach event eventType alertId at_ subscriptions created table =
      .ok (created', table')) : Grows table table' := by
  induction subscriptions generalizing created table with
  | nil =>
    obtain ⟨-, rfl⟩ := Prod.mk.inj (Except.ok.inj h)
    exact .refl _
  | cons head subscriptions ih =>
    obtain ⟨subscription, id⟩ := head
    unfold enqueueEach at h
    split at h
    · exact ih h
    · obtain ⟨delivery, hcreate, h⟩ := bind_ok h
      obtain ⟨⟨added, grown⟩, hadd, h⟩ := bind_ok h
      have hfresh := NotificationDelivery.create_fresh (raiseDomain_ok hcreate)
      exact (tryAdd_grows hfresh hadd).trans (ih h)

theorem enqueue_grows {event : SourceEvent} {at_ : Instant}
    {subscriptions : List (NotificationSubscription × UUID)} {created : ℕ}
    {table table' : DeliveryTable}
    (h : enqueueNotificationDeliveries table event subscriptions at_ = .ok (created, table')) :
    Grows table table' := by
  unfold enqueueNotificationDeliveries at h
  split at h
  · obtain ⟨-, rfl⟩ := Prod.mk.inj (Except.ok.inj h)
    exact .refl _
  split at h
  · cases h
  · exact enqueueEach_grows h

theorem projectDelivery_ok {table : DeliveryTable} {projects : UUID → Bool}
    {projectId deliveryId : UUID} {delivery : NotificationDelivery} (hvalid : table.Valid)
    (h : projectDelivery table projects projectId deliveryId = .ok delivery) :
    delivery.job.id = deliveryId ∧ table.jobs.get? delivery.job.id = some delivery := by
  unfold projectDelivery at h
  split at h
  · cases h
  split at h
  · cases h
  rename_i found hfound
  split at h
  · cases h
  · obtain rfl := Except.ok.inj h
    obtain ⟨hid, -⟩ := hvalid.sound deliveryId found hfound
    exact ⟨hid, hid ▸ hfound⟩

theorem finish_tableStep {table table' : DeliveryTable} {deliveryId leaseToken : UUID}
    {completion : Completion NotificationFailureCode} {at_ : Instant}
    {delivery : NotificationDelivery} {scope : Scope} (hvalid : table.Valid)
    (hfails : completion.isFailure = true → scope.fails deliveryId)
    (h : finish table deliveryId leaseToken completion at_ = .ok (delivery, table')) :
    TableStep policy scope table table' := by
  unfold finish at h
  split at h
  · cases h
  · rename_i found hfound
    obtain ⟨rfl, -⟩ := hvalid.sound deliveryId found hfound
    exact finish_spec hvalid hfound hfails h

/-- What a call that succeeds does to the table. -/
theorem Call.perform_spec {table table' : DeliveryTable} {call : Call} {answer : Answer}
    (hvalid : table.Valid) (h : call.perform table = .ok (answer, table')) :
    TableStep policy call.scope table table' ∧ ∀ id, call.resets id → Unscheduled table' id := by
  cases call with
  | enqueue =>
    obtain ⟨⟨created, grown⟩, henqueue, h⟩ := bind_ok h
    obtain ⟨-, rfl⟩ := Prod.mk.inj (Except.ok.inj h)
    exact ⟨(enqueue_grows henqueue).tableStep, fun _ hresets => hresets.elim⟩
  | retry =>
    obtain ⟨⟨⟨answered, unchanged⟩, retried⟩, hretry, h⟩ := bind_ok h
    obtain ⟨-, rfl⟩ := Prod.mk.inj (Except.ok.inj h)
    obtain ⟨delivery, hdelivery, hretried⟩ := bind_ok hretry
    obtain ⟨rfl, hentry⟩ := projectDelivery_ok hvalid hdelivery
    obtain ⟨hstep, hunscheduled⟩ := retry_spec hvalid hentry hretried
    exact ⟨hstep, fun _ hid => hid ▸ hunscheduled⟩
  | cancelAutomaticRetry =>
    obtain ⟨⟨⟨answered, unchanged⟩, cancelled⟩, hcancel, h⟩ := bind_ok h
    obtain ⟨-, rfl⟩ := Prod.mk.inj (Except.ok.inj h)
    obtain ⟨delivery, hdelivery, hcancelled⟩ := bind_ok hcancel
    obtain ⟨rfl, hentry⟩ := projectDelivery_ok hvalid hdelivery
    obtain ⟨hstep, hunscheduled⟩ := cancelAutomaticRetry_spec hentry hcancelled
    exact ⟨hstep, fun _ hid => hid ▸ hunscheduled⟩
  | claimNext =>
    obtain ⟨⟨delivery, claimed⟩, hclaim, h⟩ := bind_ok h
    obtain ⟨-, rfl⟩ := Prod.mk.inj (Except.ok.inj h)
    exact ⟨claimNext_spec hvalid (fun _ _ => trivial) hclaim, fun _ hresets => hresets.elim⟩
  | succeed =>
    obtain ⟨⟨delivery, finished⟩, hfinish, h⟩ := bind_ok h
    obtain ⟨-, rfl⟩ := Prod.mk.inj (Except.ok.inj h)
    exact ⟨finish_tableStep hvalid (fun hfailure => by cases hfailure) hfinish,
      fun _ hresets => hresets.elim⟩
  | fail =>
    obtain ⟨⟨delivery, finished⟩, hfinish, h⟩ := bind_ok h
    obtain ⟨-, rfl⟩ := Prod.mk.inj (Except.ok.inj h)
    exact ⟨finish_tableStep hvalid (fun _ => rfl) hfinish, fun _ hresets => hresets.elim⟩

theorem Call.step_spec {table : DeliveryTable} (hvalid : table.Valid) (call : Call) :
    TableStep policy call.scope table (notifications.step table call).2 ∧
      ((∃ answer, (notifications.step table call).1 = .ok answer) →
        ∀ id, call.resets id → Unscheduled (notifications.step table call).2 id) := by
  change TableStep policy call.scope table (call.step table).2 ∧
    ((∃ answer, (call.step table).1 = .ok answer) →
      ∀ id, call.resets id → Unscheduled (call.step table).2 id)
  unfold Call.step
  cases hperform : call.perform table with
  | error error => exact ⟨.refl _, fun ⟨_, hanswer⟩ => by cases hanswer⟩
  | ok result =>
    obtain ⟨hstep, hunscheduled⟩ := Call.perform_spec hvalid hperform
    exact ⟨hstep, fun _ => hunscheduled⟩

theorem notifications_serves : Serves policy (fun _ call => Call.scope call) notifications :=
  ⟨fun _ call hvalid => (Call.step_spec hvalid call).1⟩

/-! ## 5. The attempt ledger -/

theorem notifications_secures (table : DeliveryTable) (scope : Scope) :
    table.Secures policy scope := by
  intro hnone
  cases hnone

/-- In every run the ledger of a delivery is numbered from one, its one open attempt is the latest and
holds the delivery's lease; a delivery and its latest attempt leave the claimed state in one
operation. -/
theorem attempt_ledger (calls : List Call) :
    (∀ id delivery, (notifications.run {} calls).jobs.get? id = some delivery →
      Ledgered delivery.job ((notifications.run {} calls).ledger id)) ∧
    ∀ t ∈ notifications.trace {} calls, ∀ id delivery, t.before.jobs.get? id = some delivery →
      delivery.job.status = .claimed → Together t.after id delivery.job := by
  obtain ⟨hrun, htrace⟩ := notifications_serves.ledgered_run
    fun (t : Transition ..) _ => notifications_secures t.before _
  refine ⟨hrun, fun t ht id delivery hdelivery hclaimed => ?_⟩
  obtain ⟨hvalid, hstep⟩ := notifications_serves.trace_step ht
  exact hstep.together hvalid (htrace t ht).2 hdelivery hclaimed

end JbOrchestrator.Notifications
