import JbOrchestrator.Lib.Keyed
import JbOrchestrator.Lib.SortBy
import JbOrchestrator.Notifications.Deliveries
import Mathlib.Data.List.Count
import Mathlib.Data.Prod.Lex

/-!
# Fanout — from an event to the deliveries of its subscriptions

Subscriptions come, are switched on and off and change what they accept; the fan-out of an event lists
the enabled ones of its project and adds a delivery for each that accepts it, unless there is one.
The listing is cut at `subscriptionLimit` rows before the subscriptions are asked.
-/

open Lib

namespace JbOrchestrator.Notifications

open Domain Workflows Application Outbox

/-! ## 1. Subscriptions -/

/-- A row of the table of subscriptions. -/
structure SubscriptionRecord extends NotificationSubscription where
  projectId : UUID
  createdAt : Instant

namespace SubscriptionRecord

/-- The columns of the unique constraint. -/
def destinationKey (subscription : SubscriptionRecord) : UUID × String × String :=
  (subscription.projectId, subscription.providerKey, subscription.destinationRef)

/-- The constructor with `__post_init__`, for a provider key that is stripped and in lower case. -/
def create (id projectId : UUID) (providerKey destinationRef : String)
    (eventTypes : List NotificationEventType) (createdAt : Instant) :
    Except DomainError SubscriptionRecord :=
  if matchesProviderKey providerKey = false then
    .error (.domainValidationError "notification provider key is invalid")
  else if (Text.strip destinationRef).isEmpty ∨ 255 < (Text.strip destinationRef).length then
    .error (.domainValidationError
      "notification destination reference must contain 1-255 characters")
  else if eventTypes = [] then
    .error (.domainValidationError "notification subscription requires event types")
  else
    .ok {
      id := id
      providerKey := providerKey
      destinationRef := Text.strip destinationRef
      eventTypes := eventTypes.dedup
      projectId := projectId
      createdAt := createdAt }

def configure (subscription : SubscriptionRecord) (eventTypes : List NotificationEventType)
    (enabled : Bool) : Except DomainError SubscriptionRecord :=
  if eventTypes = [] then
    .error (.domainValidationError "notification subscription requires event types")
  else .ok { subscription with eventTypes := eventTypes.dedup, enabled := enabled }

/-- Where a subscription stands in the listing, newest first. -/
def position (subscription : SubscriptionRecord) : ℤᵒᵈ ×ₗ ℕ :=
  toLex (OrderDual.toDual subscription.createdAt, subscription.id)

end SubscriptionRecord

/-- `list_by_project`. -/
def listByProject (subscriptions : List SubscriptionRecord) (projectId : UUID) (enabled : Option Bool)
    (limit : ℕ) : List SubscriptionRecord :=
  (sortBy SubscriptionRecord.position (subscriptions.filter fun subscription =>
    decide (subscription.projectId = projectId) &&
      enabled.all fun enabled => subscription.enabled = enabled)).take limit

/-! ## 2. The outlet -/

/-- The tables of subscriptions and deliveries. -/
structure Outlet where
  subscriptions : List SubscriptionRecord := []
  deliveries : DeliveryTable := {}

/-- The limit that `enqueue_notification_deliveries` lists with. -/
def subscriptionLimit : ℕ := 500

/-- A change of the subscriptions, or an event; `draw` is the identifier that `uuid4` draws for the
delivery to a subscription. -/
inductive OutletCall where
  | subscribe (id projectId : UUID) (providerKey destinationRef : String)
      (eventTypes : List NotificationEventType) (now : Instant)
  | configure (projectId subscriptionId : UUID) (eventTypes : List NotificationEventType)
      (enabled : Bool)
  | enqueue (event : SourceEvent) (draw : UUID → UUID) (now : Instant)

namespace Outlet

variable (outlet : Outlet)

/-- `create_subscription`. -/
def subscribe (id projectId : UUID) (providerKey destinationRef : String)
    (eventTypes : List NotificationEventType) (now : Instant) : Except ServiceError Outlet := do
  let subscription ← raiseDomain
    (SubscriptionRecord.create id projectId providerKey destinationRef eventTypes now)
  match outlet.subscriptions.find? fun row => row.destinationKey = subscription.destinationKey with
  | some existing =>
    if existing.eventTypes.Perm subscription.eventTypes then .ok outlet
    else .error (.resourceConflict
      "notification destination is already registered with different event types")
  | none =>
    if ∃ row ∈ outlet.subscriptions, row.id = id then .error .integrityError
    else .ok { outlet with subscriptions := outlet.subscriptions ++ [subscription] }

/-- `configure_subscription`. -/
def configure (projectId subscriptionId : UUID) (eventTypes : List NotificationEventType)
    (enabled : Bool) : Except ServiceError Outlet :=
  match outlet.subscriptions.find? fun row => row.id = subscriptionId ∧ row.projectId = projectId with
  | none => .error (notFound "notification subscription" subscriptionId)
  | some subscription => do
    let configured ← raiseDomain (subscription.configure eventTypes enabled)
    .ok { outlet with subscriptions := put (fun row => row.id) configured outlet.subscriptions }

/-- `enqueue_notification_deliveries` over the listing. -/
def enqueue (event : SourceEvent) (draw : UUID → UUID) (now : Instant) :
    Except ServiceError (ℕ × Outlet) := do
  let listed := listByProject outlet.subscriptions event.aggregateId (some true) subscriptionLimit
  let (created, deliveries) ← enqueueNotificationDeliveries outlet.deliveries event
    (listed.map fun subscription => (subscription.toNotificationSubscription, draw subscription.id)) now
  .ok (created, { outlet with deliveries := deliveries })

end Outlet

/-- What a call answers and leaves; a call that raises is rolled back. -/
def OutletCall.perform (outlet : Outlet) : OutletCall → Except ServiceError (ℕ × Outlet)
  | .subscribe id projectId providerKey destinationRef eventTypes now =>
    (outlet.subscribe id projectId providerKey destinationRef eventTypes now).map (0, ·)
  | .configure projectId subscriptionId eventTypes enabled =>
    (outlet.configure projectId subscriptionId eventTypes enabled).map (0, ·)
  | .enqueue event draw now => outlet.enqueue event draw now

def fanout : Machine Outlet OutletCall (Except ServiceError ℕ) where
  step outlet call :=
    match call.perform outlet with
    | .ok (created, after) => (.ok created, after)
    | .error error => (.error error, outlet)

/-! ## 3. Adding deliveries -/

/-- What the constructor of a subscription has checked and that of a delivery checks again. -/
def Deliverable (subscription : NotificationSubscription) : Prop :=
  matchesProviderKey subscription.providerKey = true ∧
    subscription.destinationRef.isEmpty = false ∧ subscription.destinationRef.length ≤ 255

/-- There is a delivery for the subscription and the event. -/
def Delivered (table : DeliveryTable) (subscriptionId eventId : UUID) : Prop :=
  ∃ delivery ∈ table.jobs.values, delivery.info.subscriptionId = subscriptionId ∧
    delivery.info.eventId = eventId

/-- The columns of the unique constraint. -/
def pairOf (delivery : NotificationDelivery) : UUID × UUID :=
  (delivery.info.subscriptionId, delivery.info.eventId)

theorem Delivered.mono {table table' : DeliveryTable} {subscriptionId eventId : UUID}
    (h : Delivered table subscriptionId eventId) (hsub : table.jobs.values ⊆ table'.jobs.values) :
    Delivered table' subscriptionId eventId := by
  obtain ⟨delivery, hdelivery, hrest⟩ := h
  exact ⟨delivery, hsub hdelivery, hrest⟩

/-- What a delivery copies. -/
def deliveryInfo (event : SourceEvent) (eventType : NotificationEventType) (alertId : UUID)
    (subscription : NotificationSubscription) : DeliveryInfo where
  subscriptionId := subscription.id
  projectId := event.aggregateId
  eventId := event.id
  alertId := alertId
  eventType := eventType
  providerKey := subscription.providerKey
  destinationRef := subscription.destinationRef

theorem values_set_new {κ ν : Type} [DecidableEq κ] {d : Dict κ ν} {k : κ} {v : ν}
    (h : (d.get? k).isSome = false) : (d.set k v).values = d.values ++ [v] := by
  unfold Dict.set
  rw [if_neg (by rw [h]; exact Bool.false_ne_true)]
  unfold Dict.values
  rw [List.map_append]
  rfl

section

variable {event : SourceEvent} {eventType : NotificationEventType} {alertId id : UUID} {now : Instant}
  {subscription : NotificationSubscription} {table table' : DeliveryTable}
  {delivery : NotificationDelivery} {added : Bool}

theorem create_info {info : DeliveryInfo}
    (h : NotificationDelivery.create id info now = .ok delivery) :
    delivery.info = info ∧ delivery.job.id = id := by
  unfold NotificationDelivery.create at h
  split_ifs at h
  cases h
  exact ⟨rfl, rfl⟩

/-- The insert that does nothing on a conflict. -/
theorem tryAdd_spec (h : table.tryAdd (fun info =>
      info.subscriptionId = subscription.id && info.eventId = event.id) delivery = .ok (added, table')) :
    (Delivered table subscription.id event.id ∧ added = false ∧ table' = table) ∨
      (¬Delivered table subscription.id event.id ∧ added = true ∧
        table'.jobs.values = table.jobs.values ++ [delivery]) := by
  have hany : (table.jobs.values.any fun other => decide (other.info.subscriptionId = subscription.id) &&
      decide (other.info.eventId = event.id)) = true ↔ Delivered table subscription.id event.id := by
    simp [Delivered]
  unfold Table.tryAdd at h
  split at h
  · rename_i hfound
    cases h
    exact .inl ⟨hany.mp hfound, rfl, rfl⟩
  · rename_i hmissing
    split at h
    · cases h
    · rename_i hnew
      cases h
      exact .inr ⟨fun hdelivered => hmissing (hany.mpr hdelivered), rfl,
        values_set_new (by simpa using hnew)⟩

/-- What the loop adds: a delivery for every accepting subscription that had none. -/
theorem enqueueEach_spec {subscriptions : List (NotificationSubscription × UUID)} {created created' : ℕ}
    (hids : (subscriptions.map fun pair => pair.1.id).Nodup)
    (h : enqueueEach event eventType alertId now subscriptions created table = .ok (created', table')) :
    ∃ new : List NotificationDelivery, table'.jobs.values = table.jobs.values ++ new ∧
      created' = created + new.length ∧ (new.map pairOf).Nodup ∧
      (∀ delivery ∈ new, ∃ pair ∈ subscriptions, pair.1.accepts eventType = true ∧
        ¬Delivered table pair.1.id event.id ∧
        delivery.info = deliveryInfo event eventType alertId pair.1) ∧
      ∀ pair ∈ subscriptions, pair.1.accepts eventType = true → Delivered table' pair.1.id event.id := by
  induction subscriptions generalizing created table with
  | nil =>
    cases h
    exact ⟨[], by simp, rfl, by simp, by simp, by simp⟩
  | cons pair rest ih =>
    obtain ⟨subscription, id⟩ := pair
    rw [List.map_cons, List.nodup_cons] at hids
    unfold enqueueEach at h
    split at h
    · rename_i hrefused
      obtain ⟨new, hvalues, hcount, hnodup, hnew, hall⟩ := ih hids.2 h
      refine ⟨new, hvalues, hcount, hnodup, ?_, ?_⟩
      · intro delivery hdelivery
        obtain ⟨pair, hpair, hrest⟩ := hnew delivery hdelivery
        exact ⟨pair, List.mem_cons_of_mem _ hpair, hrest⟩
      · intro pair hpair haccepts
        rcases List.mem_cons.mp hpair with rfl | hpair
        · rw [hrefused] at haccepts
          cases haccepts
        · exact hall pair hpair haccepts
    · rename_i haccepted
      obtain ⟨delivery, hcreate, h⟩ := bind_ok h
      obtain ⟨⟨added, grown⟩, hadd, h⟩ := bind_ok h
      obtain ⟨hinfo, -⟩ := create_info (raiseDomain_ok hcreate)
      obtain ⟨new, hvalues, hcount, hnodup, hnew, hall⟩ := ih hids.2 h
      rcases tryAdd_spec hadd with ⟨hdelivered, rfl, rfl⟩ | ⟨hmissing, rfl, hgrown⟩
      · -- there was a delivery before
        refine ⟨new, hvalues, hcount, hnodup, ?_, ?_⟩
        · intro delivery hdelivery
          obtain ⟨pair, hpair, hrest⟩ := hnew delivery hdelivery
          exact ⟨pair, List.mem_cons_of_mem _ hpair, hrest⟩
        · intro pair hpair haccepts
          rcases List.mem_cons.mp hpair with rfl | hpair
          · exact hdelivered.mono (hvalues ▸ List.subset_append_left _ _)
          · exact hall pair hpair haccepts
      · -- the other subscriptions are as delivered as they were
        have hsame : ∀ pair ∈ rest, ¬Delivered grown pair.1.id event.id →
            ¬Delivered table pair.1.id event.id := fun pair _ hnot hbefore =>
          hnot (hbefore.mono (hgrown ▸ List.subset_append_left _ _))
        have hpair : pairOf delivery = (subscription.id, event.id) := by
          unfold pairOf
          rw [hinfo]
        have hcreated : created' = created + (delivery :: new).length := by
          rw [hcount, List.length_cons, if_pos rfl]
          omega
        refine ⟨delivery :: new, by rw [hvalues, hgrown, List.append_assoc]; rfl, hcreated,
          ?_, ?_, ?_⟩
        · rw [List.map_cons, List.nodup_cons]
          refine ⟨?_, hnodup⟩
          intro hrepeated
          obtain ⟨other, hother, heq⟩ := List.mem_map.mp hrepeated
          obtain ⟨pair, hmem, -, -, hotherInfo⟩ := hnew other hother
          rw [hpair] at heq
          unfold pairOf at heq
          rw [hotherInfo] at heq
          exact hids.1 (List.mem_map.mpr ⟨pair, hmem, (Prod.mk.inj heq).1⟩)
        · intro other hother
          rcases List.mem_cons.mp hother with rfl | hother
          · exact ⟨_, List.mem_cons_self, by simpa using haccepted, hmissing, hinfo⟩
          · obtain ⟨pair, hmem, haccepts, hnot, hrest⟩ := hnew other hother
            exact ⟨pair, List.mem_cons_of_mem _ hmem, haccepts, hsame pair hmem hnot, hrest⟩
        · intro pair hmem haccepts
          rcases List.mem_cons.mp hmem with rfl | hmem
          · refine ⟨delivery, ?_, (Prod.mk.inj hpair).1, (Prod.mk.inj hpair).2⟩
            rw [hvalues, hgrown]
            simp
          · exact hall pair hmem haccepts

theorem create_ok (event : SourceEvent) (eventType : NotificationEventType) (alertId id : UUID)
    (now : Instant) (h : Deliverable subscription) : ∃ delivery, NotificationDelivery.create id (deliveryInfo event eventType alertId subscription) now =
      .ok delivery ∧ delivery.job.id = id := by
  obtain ⟨hprovider, hempty, hlength⟩ := h
  have hprovider' : ¬(matchesProviderKey subscription.providerKey = false) := by simp [hprovider]
  have hdestination : ¬(subscription.destinationRef.isEmpty = true ∨
      255 < subscription.destinationRef.length) := by
    rw [hempty]
    simpa using hlength
  unfold NotificationDelivery.create deliveryInfo
  rw [if_neg hprovider', if_neg hdestination]
  exact ⟨_, rfl, rfl⟩

theorem tryAdd_of_delivered (h : Delivered table subscription.id event.id) :
    table.tryAdd (fun info =>
      info.subscriptionId = subscription.id && info.eventId = event.id) delivery = .ok (false, table) := by
  unfold Table.tryAdd
  apply if_pos
  obtain ⟨other, hother, hsubscription, hevent⟩ := h
  exact List.any_eq_true.mpr ⟨other, hother, by simp [hsubscription, hevent]⟩

/-- Where every accepting subscription has its delivery, the loop adds nothing. -/
theorem enqueueEach_again {subscriptions : List (NotificationSubscription × UUID)} {created : ℕ}
    (hvalid : ∀ pair ∈ subscriptions, Deliverable pair.1)
    (hdelivered : ∀ pair ∈ subscriptions, pair.1.accepts eventType = true →
      Delivered table pair.1.id event.id) :
    enqueueEach event eventType alertId now subscriptions created table = .ok (created, table) := by
  induction subscriptions with
  | nil => rfl
  | cons pair rest ih =>
    obtain ⟨subscription, id⟩ := pair
    have hrest := ih (fun pair hpair => hvalid pair (List.mem_cons_of_mem _ hpair))
      fun pair hpair => hdelivered pair (List.mem_cons_of_mem _ hpair)
    unfold enqueueEach
    split
    · exact hrest
    · rename_i haccepted
      obtain ⟨delivery, hcreate, -⟩ := create_ok event eventType alertId id now
        (hvalid _ List.mem_cons_self)
      have hfound : Delivered table subscription.id event.id :=
        hdelivered _ List.mem_cons_self (by simpa using haccepted)
      unfold deliveryInfo at hcreate
      rw [hcreate]
      show (table.tryAdd _ delivery >>= _) = _
      rw [tryAdd_of_delivered hfound]
      exact hrest

/-- With fresh identifiers no insert fails. -/
theorem enqueueEach_succeeds {subscriptions : List (NotificationSubscription × UUID)} {created : ℕ}
    (hvalid : ∀ pair ∈ subscriptions, Deliverable pair.1)
    (hdraws : (subscriptions.map Prod.snd).Nodup)
    (hfresh : ∀ pair ∈ subscriptions, table.jobs.get? pair.2 = none) :
    ∃ answer, enqueueEach event eventType alertId now subscriptions created table = .ok answer := by
  induction subscriptions generalizing created table with
  | nil => exact ⟨_, rfl⟩
  | cons pair rest ih =>
    obtain ⟨subscription, id⟩ := pair
    rw [List.map_cons, List.nodup_cons] at hdraws
    have hvalid' : ∀ pair ∈ rest, Deliverable pair.1 := fun pair hpair =>
      hvalid pair (List.mem_cons_of_mem _ hpair)
    have hfresh' : ∀ pair ∈ rest, table.jobs.get? pair.2 = none := fun pair hpair =>
      hfresh pair (List.mem_cons_of_mem _ hpair)
    unfold enqueueEach
    split
    · exact ih hvalid' hdraws.2 hfresh'
    · obtain ⟨delivery, hcreate, hid⟩ := create_ok event eventType alertId id now
        (hvalid _ List.mem_cons_self)
      unfold deliveryInfo at hcreate
      rw [hcreate]
      show ∃ answer, (table.tryAdd _ delivery >>= _) = Except.ok answer
      by_cases hdelivered : Delivered table subscription.id event.id
      · rw [tryAdd_of_delivered hdelivered]
        exact ih hvalid' hdraws.2 hfresh'
      · have hnew : (table.jobs.get? delivery.job.id).isSome = false := by
          rw [hid, hfresh _ List.mem_cons_self]
          rfl
        have hadd : table.tryAdd (fun info =>
            info.subscriptionId = subscription.id && info.eventId = event.id) delivery =
              .ok (true, table.saveJob delivery) := by
          unfold Table.tryAdd
          rw [if_neg, if_neg (by simp [hnew])]
          intro hany
          apply hdelivered
          simpa [Delivered] using hany
        rw [hadd]
        apply ih hvalid' hdraws.2
        intro pair hpair
        have hne : pair.2 ≠ delivery.job.id := by
          intro heq
          exact hdraws.1 (List.mem_map.mpr ⟨pair, hpair, heq.trans hid⟩)
        exact (Dict.get?_set_of_ne _ _ hne).trans (hfresh' pair hpair)

end

/-! ## 4. Outlets in good order -/

/-- What the checks and the unique constraints keep. -/
structure Outlet.WellFormed (outlet : Outlet) : Prop where
  ids : (outlet.subscriptions.map fun row => row.id).Nodup
  destinations : (outlet.subscriptions.map SubscriptionRecord.destinationKey).Nodup
  deliverable : ∀ row ∈ outlet.subscriptions, Deliverable row.toNotificationSubscription
  pairs : (outlet.deliveries.jobs.values.map pairOf).Nodup

theorem Outlet.WellFormed.empty : Outlet.WellFormed {} where
  ids := List.nodup_nil
  destinations := List.nodup_nil
  deliverable := by simp
  pairs := List.nodup_nil

section

variable {outlet after : Outlet} {event : SourceEvent} {draw : UUID → UUID} {now : Instant}
  {created : ℕ}

theorem SubscriptionRecord.create_deliverable {id projectId : UUID} {providerKey destinationRef : String}
    {eventTypes : List NotificationEventType} {subscription : SubscriptionRecord}
    (h : SubscriptionRecord.create id projectId providerKey destinationRef eventTypes now =
      .ok subscription) :
    subscription.id = id ∧ Deliverable subscription.toNotificationSubscription := by
  unfold SubscriptionRecord.create at h
  split_ifs at h with hprovider hdestination htypes
  cases h
  rw [not_or, not_lt] at hdestination
  exact ⟨rfl, by simpa using hprovider, by simpa using hdestination.1, hdestination.2⟩

theorem SubscriptionRecord.configure_same {subscription configured : SubscriptionRecord}
    {eventTypes : List NotificationEventType} {enabled : Bool}
    (h : subscription.configure eventTypes enabled = .ok configured) :
    configured.id = subscription.id ∧ configured.destinationKey = subscription.destinationKey ∧
      (Deliverable configured.toNotificationSubscription ↔
        Deliverable subscription.toNotificationSubscription) := by
  unfold SubscriptionRecord.configure at h
  split_ifs at h
  cases h
  exact ⟨rfl, rfl, Iff.rfl⟩

theorem Outlet.WellFormed.subscribe (hwell : outlet.WellFormed) {id projectId : UUID}
    {providerKey destinationRef : String} {eventTypes : List NotificationEventType}
    (h : outlet.subscribe id projectId providerKey destinationRef eventTypes now = .ok after) :
    after.WellFormed := by
  unfold Outlet.subscribe at h
  obtain ⟨subscription, hcreate, h⟩ := bind_ok h
  obtain ⟨hid, hdeliverable⟩ := SubscriptionRecord.create_deliverable (raiseDomain_ok hcreate)
  split at h
  · split_ifs at h
    cases h
    exact hwell
  · rename_i hnone
    split_ifs at h with htaken
    cases h
    rw [List.find?_eq_none] at hnone
    apply Outlet.WellFormed.mk
    · rw [List.map_append, List.nodup_append]
      refine ⟨hwell.ids, List.nodup_singleton _, ?_⟩
      rintro other hother _ hself rfl
      obtain ⟨row, hrow, hrowId⟩ := List.mem_map.mp hother
      exact htaken ⟨row, hrow, hrowId.trans ((List.mem_singleton.mp hself).trans hid)⟩
    · rw [List.map_append, List.nodup_append]
      refine ⟨hwell.destinations, List.nodup_singleton _, ?_⟩
      rintro other hother _ hself rfl
      obtain ⟨row, hrow, hrowKey⟩ := List.mem_map.mp hother
      exact hnone row hrow (by simpa using hrowKey.trans (List.mem_singleton.mp hself))
    · intro row hrow
      rcases List.mem_append.mp hrow with hrow | hrow
      · exact hwell.deliverable row hrow
      · exact List.mem_singleton.mp hrow ▸ hdeliverable
    · exact hwell.pairs

theorem Outlet.WellFormed.configure (hwell : outlet.WellFormed) {projectId subscriptionId : UUID}
    {eventTypes : List NotificationEventType} {enabled : Bool}
    (h : outlet.configure projectId subscriptionId eventTypes enabled = .ok after) :
    after.WellFormed := by
  unfold Outlet.configure at h
  split at h
  · cases h
  · rename_i subscription hfound
    have hmem : subscription ∈ outlet.subscriptions := List.mem_of_find?_eq_some hfound
    obtain ⟨configured, hconfigured, h⟩ := bind_ok h
    cases h
    obtain ⟨hid, hkey, hdeliverable⟩ :=
      SubscriptionRecord.configure_same (raiseDomain_ok hconfigured)
    apply Outlet.WellFormed.mk
    · show ((put (fun row => row.id) configured outlet.subscriptions).map _).Nodup
      rw [map_key_put]
      exact hwell.ids
    · show ((put (fun row => row.id) configured outlet.subscriptions).map _).Nodup
      rw [map_put_of_eq hwell.ids hmem hid.symm hkey]
      exact hwell.destinations
    · intro row hrow
      rcases mem_put hrow with rfl | ⟨hrow, -⟩
      · exact hdeliverable.mpr (hwell.deliverable subscription hmem)
      · exact hwell.deliverable row hrow
    · exact hwell.pairs

/-- The listing that the fan-out reads. -/
def Outlet.listed (outlet : Outlet) (projectId : UUID) : List SubscriptionRecord :=
  listByProject outlet.subscriptions projectId (some true) subscriptionLimit

/-- The enabled subscription `row` of the event's project accepts the event. -/
structure Outlet.Concerns (outlet : Outlet) (event : SourceEvent) (row : SubscriptionRecord) :
    Prop where
  stored : row ∈ outlet.subscriptions
  project : row.projectId = event.aggregateId
  accepts : ∃ eventType, NotificationEventType.ofValue event.eventType = some eventType ∧
    row.accepts eventType = true

/-- How many enabled subscriptions of the project the listing has before `row`. -/
def Outlet.ahead (outlet : Outlet) (row : SubscriptionRecord) : ℕ :=
  (outlet.subscriptions.filter fun other =>
    decide (other.projectId = row.projectId) && other.enabled).countP fun other =>
      other.position < row.position

theorem accepts_enabled {subscription : NotificationSubscription} {eventType : NotificationEventType}
    (h : subscription.accepts eventType = true) : subscription.enabled = true := by
  unfold NotificationSubscription.accepts at h
  simp only [Bool.and_eq_true] at h
  exact h.1

theorem listed_subset {projectId : UUID} {row : SubscriptionRecord}
    (h : row ∈ outlet.listed projectId) : row ∈ outlet.subscriptions ∧ row.projectId = projectId := by
  have hrow := SortBy.mem_iff.mp (List.mem_of_mem_take h)
  rw [List.mem_filter, Bool.and_eq_true, decide_eq_true_eq] at hrow
  exact ⟨hrow.1, hrow.2.1⟩

/-- A subscription that an event concerns is listed exactly when it is among the first of its
project. -/
theorem Outlet.Concerns.listed_iff (hwell : outlet.WellFormed) {row : SubscriptionRecord}
    (h : outlet.Concerns event row) :
    row ∈ outlet.listed event.aggregateId ↔ outlet.ahead row < subscriptionLimit := by
  have hpositions : ((outlet.subscriptions.filter fun other =>
      decide (other.projectId = row.projectId) && other.enabled).map
        SubscriptionRecord.position).Nodup := by
    -- the identifier is the last part of the position
    apply List.Nodup.of_map fun position => (ofLex position).2
    rw [List.map_map]
    exact (List.filter_sublist.map _).nodup hwell.ids
  obtain ⟨eventType, -, haccepts⟩ := h.accepts
  have hmem : row ∈ outlet.subscriptions.filter fun other =>
      decide (other.projectId = row.projectId) && other.enabled := by
    rw [List.mem_filter]
    exact ⟨h.stored, by simpa using accepts_enabled haccepts⟩
  have hlisted : outlet.listed event.aggregateId =
      (sortBy SubscriptionRecord.position (outlet.subscriptions.filter fun other =>
        decide (other.projectId = row.projectId) && other.enabled)).take subscriptionLimit := by
    rw [h.project]
    unfold Outlet.listed listByProject
    simp
  rw [hlisted, SortBy.mem_take_iff hpositions]
  exact and_iff_right hmem

theorem listed_ids (hwell : outlet.WellFormed) (projectId : UUID) :
    ((outlet.listed projectId).map fun row => row.id).Nodup := by
  apply ((List.take_sublist _ _).map _).nodup
  apply ((SortBy.perm _).map _).nodup_iff.mpr
  exact (List.filter_sublist.map _).nodup hwell.ids

/-- `delivery` is what the event makes of the subscription `row`. -/
def CopyOf (delivery : NotificationDelivery) (event : SourceEvent) (row : SubscriptionRecord) : Prop :=
  ∃ eventType alertId, NotificationEventType.ofValue event.eventType = some eventType ∧
    event.alertId = some alertId ∧
    delivery.info = deliveryInfo event eventType alertId row.toNotificationSubscription

/-- What one call adds, whatever was there before. -/
theorem enqueue_spec (hwell : outlet.WellFormed)
    (h : outlet.enqueue event draw now = .ok (created, after)) :
    after.subscriptions = outlet.subscriptions ∧
      ∃ new : List NotificationDelivery,
        after.deliveries.jobs.values = outlet.deliveries.jobs.values ++ new ∧
        created = new.length ∧ (new.map pairOf).Nodup ∧
        (∀ delivery ∈ new, ∃ row ∈ outlet.listed event.aggregateId, outlet.Concerns event row ∧
          ¬Delivered outlet.deliveries row.id event.id ∧ CopyOf delivery event row) ∧
        ∀ row ∈ outlet.listed event.aggregateId, outlet.Concerns event row →
          Delivered after.deliveries row.id event.id := by
  unfold Outlet.enqueue at h
  obtain ⟨⟨count, deliveries⟩, hadded, h⟩ := bind_ok h
  cases h
  refine ⟨rfl, ?_⟩
  unfold enqueueNotificationDeliveries at hadded
  split at hadded
  · rename_i hunsupported
    cases hadded
    refine ⟨[], by simp, rfl, List.nodup_nil, by simp, ?_⟩
    rintro row - ⟨-, -, eventType, htype, -⟩
    rw [hunsupported] at htype
    cases htype
  · rename_i eventType htype
    split at hadded
    · cases hadded
    · rename_i alertId halert
      have hids : (((outlet.listed event.aggregateId).map fun row =>
          (row.toNotificationSubscription, draw row.id)).map fun pair => pair.1.id).Nodup := by
        rw [List.map_map]
        exact listed_ids hwell event.aggregateId
      obtain ⟨new, hvalues, hcount, hnodup, hnew, hall⟩ := enqueueEach_spec hids hadded
      refine ⟨new, hvalues, by omega, hnodup, ?_, ?_⟩
      · intro delivery hdelivery
        obtain ⟨pair, hpair, haccepts, hmissing, hinfo⟩ := hnew delivery hdelivery
        obtain ⟨row, hrow, rfl⟩ := List.mem_map.mp hpair
        obtain ⟨hstored, hproject⟩ := listed_subset hrow
        exact ⟨row, hrow, ⟨hstored, hproject, eventType, htype, haccepts⟩, hmissing, eventType,
          alertId, htype, halert, hinfo⟩
      · rintro row hrow ⟨-, -, other, hother, haccepts⟩
        rw [htype] at hother
        cases hother
        exact hall _ (List.mem_map.mpr ⟨row, hrow, rfl⟩) haccepts

theorem CopyOf.pairOf_eq {delivery : NotificationDelivery} {row : SubscriptionRecord}
    (h : CopyOf delivery event row) : pairOf delivery = (row.id, event.id) := by
  obtain ⟨eventType, alertId, -, -, hinfo⟩ := h
  unfold pairOf
  rw [hinfo]
  rfl

theorem Outlet.WellFormed.enqueue (hwell : outlet.WellFormed)
    (h : outlet.enqueue event draw now = .ok (created, after)) : after.WellFormed := by
  obtain ⟨hsubscriptions, new, hvalues, -, hnodup, hnew, -⟩ := enqueue_spec hwell h
  apply Outlet.WellFormed.mk
  · rw [hsubscriptions]
    exact hwell.ids
  · rw [hsubscriptions]
    exact hwell.destinations
  · rw [hsubscriptions]
    exact hwell.deliverable
  · rw [hvalues, List.map_append, List.nodup_append]
    refine ⟨hwell.pairs, hnodup, ?_⟩
    rintro pair hold _ hadded rfl
    obtain ⟨delivery, hdelivery, rfl⟩ := List.mem_map.mp hold
    obtain ⟨copy, hcopy, hpair⟩ := List.mem_map.mp hadded
    obtain ⟨row, -, -, hmissing, hrow⟩ := hnew copy hcopy
    rw [hrow.pairOf_eq] at hpair
    exact hmissing ⟨delivery, hdelivery, (Prod.mk.inj hpair).1.symm, (Prod.mk.inj hpair).2.symm⟩

theorem enqueue_of_added {deliveries : DeliveryTable}
    (h : enqueueNotificationDeliveries outlet.deliveries event
      ((outlet.listed event.aggregateId).map fun row =>
        (row.toNotificationSubscription, draw row.id)) now = .ok (created, deliveries)) :
    outlet.enqueue event draw now = .ok (created, { outlet with deliveries := deliveries }) := by
  show (enqueueNotificationDeliveries outlet.deliveries event
    ((outlet.listed event.aggregateId).map fun row =>
      (row.toNotificationSubscription, draw row.id)) now >>= _) = _
  rw [h]
  rfl

/-- A call for a supported event without an alert raises. -/
theorem enqueue_alert (h : outlet.enqueue event draw now = .ok (created, after)) :
    NotificationEventType.ofValue event.eventType = none ∨ event.alertId.isSome = true := by
  unfold Outlet.enqueue at h
  obtain ⟨answer, hadded, -⟩ := bind_ok h
  unfold enqueueNotificationDeliveries at hadded
  split at hadded
  · rename_i hunsupported
    exact .inl hunsupported
  · split at hadded
    · cases hadded
    · rename_i alertId halert
      right
      rw [halert]
      rfl

/-- A call that finds every accepting subscription served answers zero and changes nothing. -/
theorem enqueue_again (hwell : outlet.WellFormed)
    (halert : NotificationEventType.ofValue event.eventType = none ∨ event.alertId.isSome = true)
    (hserved : ∀ row ∈ outlet.listed event.aggregateId, outlet.Concerns event row →
      Delivered outlet.deliveries row.id event.id) :
    outlet.enqueue event draw now = .ok (0, outlet) := by
  have hadded : enqueueNotificationDeliveries outlet.deliveries event
      ((outlet.listed event.aggregateId).map fun row =>
        (row.toNotificationSubscription, draw row.id)) now = .ok (0, outlet.deliveries) := by
    unfold enqueueNotificationDeliveries
    split
    · rfl
    · rename_i eventType htype
      obtain ⟨alertId, halert⟩ : ∃ alertId, event.alertId = some alertId := by
        rw [htype] at halert
        simpa [Option.isSome_iff_exists] using halert
      rw [halert]
      apply enqueueEach_again
      · intro pair hpair
        obtain ⟨row, hrow, rfl⟩ := List.mem_map.mp hpair
        exact hwell.deliverable row (listed_subset hrow).1
      · intro pair hpair haccepts
        obtain ⟨row, hrow, rfl⟩ := List.mem_map.mp hpair
        obtain ⟨hstored, hproject⟩ := listed_subset hrow
        exact hserved row hrow ⟨hstored, hproject, eventType, htype, haccepts⟩
  exact enqueue_of_added hadded

/-- With fresh identifiers a call for an event with an alert succeeds. -/
theorem enqueue_succeeds (hwell : outlet.WellFormed) {alertId : UUID}
    (halert : event.alertId = some alertId) (hdraw : Function.Injective draw)
    (hfresh : ∀ row ∈ outlet.subscriptions, outlet.deliveries.jobs.get? (draw row.id) = none) :
    ∃ answer, outlet.enqueue event draw now = .ok answer := by
  have hadded : ∃ answer, enqueueNotificationDeliveries outlet.deliveries event
      ((outlet.listed event.aggregateId).map fun row =>
        (row.toNotificationSubscription, draw row.id)) now = .ok answer := by
    unfold enqueueNotificationDeliveries
    split
    · exact ⟨_, rfl⟩
    · rw [halert]
      apply enqueueEach_succeeds
      · intro pair hpair
        obtain ⟨row, hrow, rfl⟩ := List.mem_map.mp hpair
        exact hwell.deliverable row (listed_subset hrow).1
      · have hids := (listed_ids hwell event.aggregateId).map hdraw
        rw [List.map_map] at hids ⊢
        exact hids
      · intro pair hpair
        obtain ⟨row, hrow, rfl⟩ := List.mem_map.mp hpair
        exact hfresh row (listed_subset hrow).1
  obtain ⟨answer, hanswer⟩ := hadded
  exact ⟨_, enqueue_of_added hanswer⟩

/-! ## 5. Runs -/

/-- A call for an event. -/
def OutletCall.IsEnqueue (call : OutletCall) : Prop := ∃ event draw now, call = .enqueue event draw now

theorem step_ok {call : OutletCall} (h : call.perform outlet = .ok (created, after)) :
    fanout.step outlet call = (.ok created, after) := by
  unfold fanout
  simp only [h]

/-- A call is performed or rolled back. -/
theorem step_cases (outlet : Outlet) (call : OutletCall) :
    (∃ created after, call.perform outlet = .ok (created, after) ∧
      fanout.step outlet call = (.ok created, after)) ∨
    ∃ error, fanout.step outlet call = (.error error, outlet) := by
  cases h : call.perform outlet with
  | ok answer => exact .inl ⟨answer.1, answer.2, rfl, step_ok h⟩
  | error error =>
    right
    refine ⟨error, ?_⟩
    unfold fanout
    simp only [h]

theorem map_ok {α β ε : Type} {f : α → β} {x : Except ε α} {b : β} (h : x.map f = .ok b) :
    ∃ a, x = .ok a ∧ f a = b := by
  cases x with
  | error => cases h
  | ok a => exact ⟨a, rfl, Except.ok.inj h⟩

theorem fanout_wellFormed (outlet : Outlet) (call : OutletCall) (hwell : outlet.WellFormed) :
    (fanout.step outlet call).2.WellFormed := by
  rcases step_cases outlet call with ⟨created, after, hperform, hstep⟩ | ⟨error, hstep⟩
  · rw [hstep]
    cases call with
    | subscribe id projectId providerKey destinationRef eventTypes now =>
      obtain ⟨_, hsubscribe, hafter⟩ := map_ok hperform
      cases hafter
      exact hwell.subscribe hsubscribe
    | configure projectId subscriptionId eventTypes enabled =>
      obtain ⟨_, hconfigure, hafter⟩ := map_ok hperform
      cases hafter
      exact hwell.configure hconfigure
    | enqueue event draw now => exact hwell.enqueue hperform
  · rw [hstep]
    exact hwell

/-- Calls for events keep the subscriptions and every delivery. -/
theorem run_enqueues {between : List OutletCall} (hwell : outlet.WellFormed)
    (hbetween : ∀ call ∈ between, call.IsEnqueue) :
    (fanout.run outlet between).subscriptions = outlet.subscriptions ∧
      outlet.deliveries.jobs.values ⊆ (fanout.run outlet between).deliveries.jobs.values := by
  induction between generalizing outlet with
  | nil => exact ⟨rfl, List.Subset.refl _⟩
  | cons call rest ih =>
    rw [List.forall_mem_cons] at hbetween
    obtain ⟨event, draw, now, rfl⟩ := hbetween.1
    obtain ⟨hsubscriptions, hvalues⟩ := ih (fanout_wellFormed outlet _ hwell) hbetween.2
    rw [Machine.run_cons]
    rcases step_cases outlet (.enqueue event draw now) with
      ⟨created, after, hperform, hstep⟩ | ⟨error, hstep⟩
    · obtain ⟨hsame, new, hnew, -⟩ := enqueue_spec hwell hperform
      rw [hstep] at hsubscriptions hvalues ⊢
      refine ⟨hsubscriptions.trans hsame, List.Subset.trans ?_ hvalues⟩
      show _ ⊆ after.deliveries.jobs.values
      rw [hnew]
      exact List.subset_append_left _ _
    · rw [hstep] at hsubscriptions hvalues ⊢
      exact ⟨hsubscriptions, hvalues⟩

/-- What one successful call for an event does: after it each subscription that the event concerns
has one delivery, no other got one, and repeating it creates nothing while the subscriptions stay. -/
structure FansOut (before after : Outlet) (event : SourceEvent) (created : ℕ) : Prop where
  complete : ∀ row, before.Concerns event row →
    (after.deliveries.jobs.values.map pairOf).count (row.id, event.id) = 1
  only : ∃ new : List NotificationDelivery,
    after.deliveries.jobs.values = before.deliveries.jobs.values ++ new ∧ created = new.length ∧
      ∀ delivery ∈ new, ∃ row, before.Concerns event row ∧
        ¬Delivered before.deliveries row.id event.id ∧ CopyOf delivery event row
  repeated : ∀ (between : List OutletCall) (draw : UUID → UUID) (now : Instant),
    (∀ call ∈ between, call.IsEnqueue) →
      fanout.step (fanout.run after between) (.enqueue event draw now) =
        (.ok 0, fanout.run after between)
  subscriptions : after.subscriptions = before.subscriptions

/-- Each subscription that the event concerns is among the first of its project or was served. -/
def Covered (outlet : Outlet) (event : SourceEvent) : Prop :=
  ∀ row, outlet.Concerns event row →
    outlet.ahead row < subscriptionLimit ∨ Delivered outlet.deliveries row.id event.id

theorem Delivered.count_eq (hwell : outlet.WellFormed) {subscriptionId eventId : UUID}
    (h : Delivered outlet.deliveries subscriptionId eventId) :
    (outlet.deliveries.jobs.values.map pairOf).count (subscriptionId, eventId) = 1 := by
  obtain ⟨delivery, hdelivery, rfl, rfl⟩ := h
  exact List.count_eq_one_of_mem hwell.pairs (List.mem_map_of_mem hdelivery)

theorem delivered_of_count {table : DeliveryTable} {subscriptionId eventId : UUID}
    (h : (table.jobs.values.map pairOf).count (subscriptionId, eventId) = 1) :
    Delivered table subscriptionId eventId := by
  have hmem : (subscriptionId, eventId) ∈ table.jobs.values.map pairOf :=
    List.count_pos_iff.mp (by omega)
  obtain ⟨delivery, hdelivery, hpair⟩ := List.mem_map.mp hmem
  exact ⟨delivery, hdelivery, (Prod.mk.inj hpair).1, (Prod.mk.inj hpair).2⟩

/-- After a call the subscriptions that were listed are served. -/
theorem repeated_of_enqueue (hwell : outlet.WellFormed)
    (h : outlet.enqueue event draw now = .ok (created, after)) {between : List OutletCall}
    (hbetween : ∀ call ∈ between, call.IsEnqueue) (draw' : UUID → UUID) (now' : Instant) :
    fanout.step (fanout.run after between) (.enqueue event draw' now') =
      (.ok 0, fanout.run after between) := by
  obtain ⟨hsubscriptions, new, hvalues, -, -, -, hall⟩ := enqueue_spec hwell h
  have hafter : after.WellFormed := hwell.enqueue h
  obtain ⟨hsame, hkept⟩ := run_enqueues hafter hbetween
  have hlater : (fanout.run after between).WellFormed :=
    fanout.run_invariant (I := Outlet.WellFormed) (fun s i => fanout_wellFormed s i) hafter between
  have hsame' : (fanout.run after between).subscriptions = outlet.subscriptions :=
    hsame.trans hsubscriptions
  apply step_ok
  apply enqueue_again hlater (enqueue_alert h)
  rintro row hrow ⟨hstored, hproject, haccepts⟩
  unfold Outlet.listed at hrow
  rw [hsame'] at hrow hstored
  exact (hall row hrow ⟨hstored, hproject, haccepts⟩).mono hkept

/-- A subscription that the event concerns is served afterwards exactly when it is listed or was
served before. -/
theorem Outlet.Concerns.served_iff (hwell : outlet.WellFormed)
    (h : outlet.enqueue event draw now = .ok (created, after)) {row : SubscriptionRecord}
    (hrow : outlet.Concerns event row) :
    Delivered after.deliveries row.id event.id ↔
      outlet.ahead row < subscriptionLimit ∨ Delivered outlet.deliveries row.id event.id := by
  obtain ⟨-, new, hvalues, -, -, hnew, hall⟩ := enqueue_spec hwell h
  constructor
  · rintro ⟨delivery, hdelivery, hsubscription, hevent⟩
    rw [hvalues] at hdelivery
    rcases List.mem_append.mp hdelivery with hold | hadded
    · exact .inr ⟨delivery, hold, hsubscription, hevent⟩
    · left
      obtain ⟨listed, hlisted, hconcerns, -, hcopy⟩ := hnew delivery hadded
      have hid : listed.id = row.id :=
        (Prod.mk.inj hcopy.pairOf_eq).1.symm.trans hsubscription
      have heq : listed = row :=
        List.inj_on_of_nodup_map hwell.ids hconcerns.stored hrow.stored hid
      exact (hrow.listed_iff hwell).mp (heq ▸ hlisted)
  · rintro (hahead | hdelivered)
    · exact hall row ((hrow.listed_iff hwell).mpr hahead) hrow
    · exact hdelivered.mono (hvalues ▸ List.subset_append_left _ _)

/-- A successful call fans the event out exactly when the listing has room for every subscription
that still lacks its delivery. -/
theorem fansOut_iff (hwell : outlet.WellFormed)
    (h : outlet.enqueue event draw now = .ok (created, after)) :
    FansOut outlet after event created ↔ Covered outlet event := by
  obtain ⟨hsubscriptions, new, hvalues, hcount, -, hnew, -⟩ := enqueue_spec hwell h
  constructor
  · intro hfans row hrow
    exact (hrow.served_iff hwell h).mp (delivered_of_count (hfans.complete row hrow))
  · intro hcovered
    apply FansOut.mk
    · intro row hrow
      exact ((hrow.served_iff hwell h).mpr (hcovered row hrow)).count_eq (hwell.enqueue h)
    · refine ⟨new, hvalues, hcount, ?_⟩
      intro delivery hdelivery
      obtain ⟨row, -, hrest⟩ := hnew delivery hdelivery
      exact ⟨row, hrest⟩
    · intro between draw' now' hbetween
      exact repeated_of_enqueue hwell h hbetween draw' now'
    · exact hsubscriptions

end

/-- A project with no more enabled subscriptions than the listing has room for is covered. -/
theorem covered_of_le {outlet : Outlet} {event : SourceEvent}
    (h : outlet.subscriptions.countP (fun row =>
      decide (row.projectId = event.aggregateId) && row.enabled) ≤ subscriptionLimit) :
    Covered outlet event := by
  intro row hrow
  left
  obtain ⟨eventType, -, haccepts⟩ := hrow.accepts
  unfold Outlet.ahead
  rw [hrow.project]
  have hmem : row ∈ outlet.subscriptions.filter fun other =>
      decide (other.projectId = event.aggregateId) && other.enabled := by
    rw [List.mem_filter]
    exact ⟨hrow.stored, by simpa [hrow.project] using accepts_enabled haccepts⟩
  -- the row is not before itself
  have hlt : (outlet.subscriptions.filter fun other =>
      decide (other.projectId = event.aggregateId) && other.enabled).countP (fun other =>
        other.position < row.position) <
      (outlet.subscriptions.filter fun other =>
        decide (other.projectId = event.aggregateId) && other.enabled).length := by
    exact List.countP_lt_length_iff.mpr ⟨row, hmem, by simp⟩
  rw [List.countP_eq_length_filter] at h
  omega

/-- In every run, whatever the subscriptions: a successful call for an event fans it out exactly when
the subscriptions are covered, and a call with fresh identifiers succeeds. -/
theorem fanout_exact_iff (outlet : Outlet) (hwell : outlet.WellFormed) (calls : List OutletCall) :
    ∀ t ∈ fanout.trace outlet calls, ∀ event draw now, t.input = .enqueue event draw now →
      (∀ created, t.output = .ok created →
        (FansOut t.before t.after event created ↔ Covered t.before event)) ∧
      (event.alertId.isSome = true → Function.Injective draw →
        (∀ row ∈ t.before.subscriptions, t.before.deliveries.jobs.get? (draw row.id) = none) →
        ∃ created, t.output = .ok created) := by
  intro t ht event draw now hinput
  obtain ⟨hbefore, hfire⟩ := fanout.trace_invariant (I := Outlet.WellFormed)
    (fun s i => fanout_wellFormed s i) hwell ht
  rw [hinput] at hfire
  apply And.intro
  · intro created houtput
    rcases step_cases t.before (.enqueue event draw now) with
      ⟨created', after, hperform, hstep⟩ | ⟨error, hstep⟩
    · rw [hfire] at houtput ⊢
      simp only [Machine.fire, hstep] at houtput ⊢
      cases houtput
      exact fansOut_iff hbefore hperform
    · rw [hfire] at houtput
      simp only [Machine.fire, hstep] at houtput
      cases houtput
  · intro halert hdraw hfresh
    obtain ⟨alertId, halert⟩ := Option.isSome_iff_exists.mp halert
    have hanswer : ∃ answer, t.before.enqueue event draw now = .ok answer :=
      enqueue_succeeds hbefore halert hdraw hfresh
    obtain ⟨⟨created, after⟩, henqueue⟩ := hanswer
    refine ⟨created, ?_⟩
    have hstep : fanout.step t.before (.enqueue event draw now) = (.ok created, after) :=
      step_ok henqueue
    rw [hfire]
    simp only [Machine.fire, hstep]

def alarm : SourceEvent := ⟨5, 7000, "worker.readiness_alerted", some 3⟩

/-- A subscription, the event and the event once more. -/
def sampleFanout : List OutletCall :=
  [.subscribe 1 7000 "webhook" "ops" [.workerReadinessAlerted] 0, .enqueue alarm id 1,
    .enqueue alarm id 2]

/-- The first of the two calls creates the delivery. -/
theorem fanout_exact_iff_sample :
    ∃ t ∈ fanout.trace {} sampleFanout, t.input = .enqueue alarm id 1 ∧ t.output = .ok 1 ∧
      FansOut t.before t.after alarm 1 := by
  have hinput : (fanout.fire (fanout.run {} (sampleFanout.take 1)) (.enqueue alarm id 1)).output =
      .ok 1 := by rfl
  have hmem : fanout.fire (fanout.run {} (sampleFanout.take 1)) (.enqueue alarm id 1) ∈
      fanout.trace {} sampleFanout := List.mem_cons_of_mem _ List.mem_cons_self
  refine ⟨_, hmem, rfl, hinput, ?_⟩
  apply ((fanout_exact_iff {} .empty sampleFanout _ hmem alarm id 1 rfl).1 1 hinput).mpr
  apply covered_of_le
  decide +kernel

/-- One more subscription than the listing has room for. -/
def crowdSize : ℕ := subscriptionLimit + 1

/-- A destination of one character. -/
def destination (i : ℕ) : String := String.ofList [Char.ofNat (0x4e00 + i)]

def crowdRow (i : ℕ) : SubscriptionRecord where
  id := i
  providerKey := "webhook"
  destinationRef := destination i
  eventTypes := [.workerReadinessAlerted]
  projectId := 7000
  createdAt := i

def crowdCall (i : ℕ) : OutletCall :=
  .subscribe i 7000 "webhook" (destination i) [.workerReadinessAlerted] i

theorem toNat_ofNat {i : ℕ} (h : i < crowdSize) : (Char.ofNat (0x4e00 + i)).toNat = 0x4e00 + i := by
  have hsmall : 0x4e00 + i < 0xd800 := by
    unfold crowdSize subscriptionLimit at h
    omega
  unfold Char.ofNat
  rw [dif_pos (.inl hsmall)]
  rfl

theorem destination_injective {i j : ℕ} (hi : i < crowdSize) (hj : j < crowdSize)
    (h : destination i = destination j) : i = j := by
  have hchar : Char.ofNat (0x4e00 + i) = Char.ofNat (0x4e00 + j) :=
    (List.cons.inj (String.ofList_injective h)).1
  have hnat := congrArg Char.toNat hchar
  rw [toNat_ofNat hi, toNat_ofNat hj] at hnat
  omega

theorem strip_destination {i : ℕ} (h : i < crowdSize) :
    Text.strip (destination i) = destination i := by
  apply Text.strip_eq_self
  intro c hc
  have hc' : c = Char.ofNat (0x4e00 + i) := by simpa [destination] using hc
  unfold crowdSize subscriptionLimit at h
  unfold Text.isSpace
  rw [hc', toNat_ofNat h]
  simp only [Bool.or_eq_false_iff, Bool.and_eq_false_iff, decide_eq_false_iff_not]
  omega

theorem create_crowdRow {i : ℕ} (h : i < crowdSize) :
    SubscriptionRecord.create i 7000 "webhook" (destination i) [.workerReadinessAlerted] i =
      .ok (crowdRow i) := by
  have hprovider : ¬(matchesProviderKey "webhook" = false) := by decide
  have hlength : ¬((destination i).isEmpty = true ∨ 255 < (destination i).length) := by
    simp [destination]
  unfold SubscriptionRecord.create
  rw [if_neg hprovider, strip_destination h, if_neg hlength, if_neg (by simp)]
  rfl

theorem subscribe_new (outlet : Outlet) {id projectId : UUID} {providerKey destinationRef : String}
    {eventTypes : List NotificationEventType} {now : Instant} {subscription : SubscriptionRecord}
    (hcreate : SubscriptionRecord.create id projectId providerKey destinationRef eventTypes now =
      .ok subscription)
    (hnone : outlet.subscriptions.find? (fun row =>
      row.destinationKey = subscription.destinationKey) = none)
    (hnew : ¬∃ row ∈ outlet.subscriptions, row.id = id) :
    outlet.subscribe id projectId providerKey destinationRef eventTypes now =
      .ok { outlet with subscriptions := outlet.subscriptions ++ [subscription] } := by
  unfold Outlet.subscribe
  rw [hcreate]
  show (raiseDomain (.ok subscription) >>= _) = _
  simp only [raiseDomain, bind, Except.bind]
  rw [hnone]
  exact if_neg hnew

/-- The subscriptions of a crowded project are created one after the other. -/
theorem run_crowd {n : ℕ} (h : n ≤ crowdSize) :
    fanout.run {} ((List.range n).map crowdCall) =
      { subscriptions := (List.range n).map crowdRow } := by
  induction n with
  | zero => rfl
  | succ n ih =>
    rw [List.range_succ, List.map_append, List.map_append, Machine.run_append, ih (by omega)]
    have hnone : ((List.range n).map crowdRow).find? (fun row =>
        row.destinationKey = (crowdRow n).destinationKey) = none := by
      rw [List.find?_eq_none]
      intro row hrow
      obtain ⟨i, hi, rfl⟩ := List.mem_map.mp hrow
      rw [List.mem_range] at hi
      intro hkey
      have hdestination : destination i = destination n :=
        (Prod.mk.inj (Prod.mk.inj (of_decide_eq_true hkey)).2).2
      have := destination_injective (by omega) (by omega) hdestination
      omega
    have hnew : ¬∃ row ∈ (List.range n).map crowdRow, row.id = n := by
      rintro ⟨row, hrow, hid⟩
      obtain ⟨i, hi, rfl⟩ := List.mem_map.mp hrow
      rw [List.mem_range] at hi
      exact absurd hid (show i ≠ n by omega)
    have hsubscribe := subscribe_new { subscriptions := (List.range n).map crowdRow }
      (create_crowdRow (show n < crowdSize by omega)) hnone hnew
    have hperform : (crowdCall n).perform { subscriptions := (List.range n).map crowdRow } =
        .ok (0, { subscriptions := (List.range n).map crowdRow ++ [crowdRow n] }) := by
      unfold crowdCall OutletCall.perform
      simp only [hsubscribe]
      rfl
    show (fanout.step _ (crowdCall n)).2 = _
    rw [step_ok hperform]
    rfl

/-- The outlet of a project with that many subscriptions. -/
def crowd : Outlet := fanout.run {} ((List.range crowdSize).map crowdCall)

theorem first_mem : 0 ∈ List.range crowdSize := List.mem_range.mpr (Nat.succ_pos _)

theorem crowd_eq {n : ℕ} (h : n ≤ crowdSize) :
    (fanout.run {} ((List.range n).map crowdCall)).subscriptions = (List.range n).map crowdRow ∧
      (fanout.run {} ((List.range n).map crowdCall)).deliveries = {} := by
  rw [run_crowd h]
  exact ⟨rfl, rfl⟩

/-- The oldest of the subscriptions accepts the event and gets no delivery. -/
theorem oldest_left_out :
    ∃ created after, fanout.step crowd (.enqueue alarm id 501) = (.ok created, after) ∧
      crowd.Concerns alarm (crowdRow 0) ∧
      (after.deliveries.jobs.values.map pairOf).count ((crowdRow 0).id, alarm.id) = 0 := by
  have hrows : crowd.subscriptions = (List.range crowdSize).map crowdRow := (crowd_eq le_rfl).1
  have hempty : crowd.deliveries = {} := (crowd_eq le_rfl).2
  have hwell : crowd.WellFormed := fanout.run_invariant (I := Outlet.WellFormed)
    (fun s i => fanout_wellFormed s i) .empty _
  have hfresh : ∀ row ∈ crowd.subscriptions, crowd.deliveries.jobs.get? (id row.id) = none := by
    intro row _
    rw [hempty]
    rfl
  have hanswer : ∃ answer, crowd.enqueue alarm id 501 = .ok answer :=
    enqueue_succeeds hwell rfl Function.injective_id hfresh
  obtain ⟨⟨created, after⟩, henqueue⟩ := hanswer
  have hconcerns : crowd.Concerns alarm (crowdRow 0) := by
    apply Outlet.Concerns.mk
    · rw [hrows]
      exact List.mem_map.mpr ⟨0, first_mem, rfl⟩
    · rfl
    · exact ⟨.workerReadinessAlerted, rfl, rfl⟩
  refine ⟨created, after, step_ok henqueue, hconcerns, ?_⟩
  rw [List.count_eq_zero]
  intro hpair
  have hdelivered : Delivered after.deliveries (crowdRow 0).id alarm.id := by
    obtain ⟨delivery, hdelivery, heq⟩ := List.mem_map.mp hpair
    exact ⟨delivery, hdelivery, (Prod.mk.inj heq).1, (Prod.mk.inj heq).2⟩
  rcases (hconcerns.served_iff hwell henqueue).mp hdelivered with hahead | ⟨delivery, hold, -⟩
  · unfold Outlet.ahead at hahead
    rw [hrows] at hahead
    revert hahead
    decide +kernel
  · rw [hempty] at hold
    cases hold

end JbOrchestrator.Notifications
