import JbOrchestrator.Infrastructure.Ownership
import JbOrchestrator.Lib.OrderedPage

/-!
# Events — the queries on the ledger of events

`list_after` reads the events of one aggregate type, `list_project_after` those of one project: a
union of conditions, one for each aggregate type, that is compared with the owner of the aggregate.
-/

open Lib

namespace JbOrchestrator.Infrastructure

variable {β : Type*}

/-- A row of `events`.  `body` is the type of the event, its payload and its time, which no query
reads. -/
structure EventRecord (β : Type*) where
  sequence : ℕ
  id : UUID
  aggregateType : String
  aggregateId : UUID
  body : β
  deriving DecidableEq, Repr

/-! ## 1. Queries -/

/-- `order_by(EventRecord.sequence).limit(limit)` behind the sequence of the cursor. -/
def selectEvents (condition : EventRecord β → Bool) (after : Option (EventRecord β)) (limit : ℕ)
    (records : List (EventRecord β)) : List (EventRecord β) :=
  orderedPage EventRecord.sequence condition (after.map (·.sequence)) limit records

/-- `SqlAlchemyEventRepository.list_after`. -/
def listAfter (records : List (EventRecord β)) (aggregateType : String)
    (after : Option (EventRecord β)) (limit : ℕ) : List (EventRecord β) :=
  selectEvents (fun event => event.aggregateType = aggregateType) after limit records

section Subqueries

variable (tables : Tables) (projectId : UUID)

def requestIds (id : UUID) : Bool := tables.requests id = some projectId

def runIds (id : UUID) : Bool := (tables.runs id).any (requestIds tables projectId)

def workflowIds (id : UUID) : Bool :=
  (tables.workflowExecutions id).any (runIds tables projectId)

def externalIds (id : UUID) : Bool :=
  (tables.externalExecutions id).any (runIds tables projectId)

def workspaceOperationIds (id : UUID) : Bool :=
  (tables.workspaceOperations id).any (externalIds tables projectId)

def scmPublicationIds (id : UUID) : Bool :=
  (tables.scmPublications id).any (externalIds tables projectId)

def budgetAccountIds (id : UUID) : Bool := tables.budgetAccounts id = some projectId

def budgetReservationIds (id : UUID) : Bool := tables.budgetReservations id = some projectId

/-- The `WHERE` clause of `list_project_after` without the cursor. -/
def ofProject (event : EventRecord β) : Bool :=
  (event.aggregateType = "project" && event.aggregateId = projectId) ||
  (event.aggregateType = "request" && requestIds tables projectId event.aggregateId) ||
  (event.aggregateType = "run" && runIds tables projectId event.aggregateId) ||
  (event.aggregateType = "workflow_execution" &&
    workflowIds tables projectId event.aggregateId) ||
  (event.aggregateType = "external_execution" &&
    externalIds tables projectId event.aggregateId) ||
  (event.aggregateType = "workspace_operation" &&
    workspaceOperationIds tables projectId event.aggregateId) ||
  (event.aggregateType = "scm_publication" &&
    scmPublicationIds tables projectId event.aggregateId) ||
  (event.aggregateType = "budget_account" &&
    budgetAccountIds tables projectId event.aggregateId) ||
  (event.aggregateType = "budget_reservation" &&
    budgetReservationIds tables projectId event.aggregateId)

end Subqueries

/-- `SqlAlchemyEventRepository.list_project_after`. -/
def listProjectAfter (tables : Tables) (records : List (EventRecord β)) (projectId : UUID)
    (after : Option (EventRecord β)) (limit : ℕ) : List (EventRecord β) :=
  selectEvents (ofProject tables projectId) after limit records

/-! ## 2. The events of a project -/

/-- The aggregate of the event belongs to the project. -/
def BelongsTo (tables : Tables) (projectId : UUID) (event : EventRecord β) : Prop :=
  ∃ kind : ResourceKind, event.aggregateType = kind.typeName ∧
    tables.Owner ⟨kind, event.aggregateId⟩ projectId

open Classical in
/-- The first `limit` events of the project behind the cursor, in the order of their sequence. -/
noncomputable def projectEvents (tables : Tables) (records : List (EventRecord β))
    (projectId : UUID) (after : Option (EventRecord β)) (limit : ℕ) : List (EventRecord β) :=
  selectEvents (fun event => decide (BelongsTo tables projectId event)) after limit records

section Membership

variable {tables : Tables} {projectId : UUID}

/-- The subquery of an aggregate type; `notification_delivery` has none. -/
def subquery (tables : Tables) (projectId : UUID) : ResourceKind → UUID → Bool
  | .project => fun id => id = projectId
  | .request => requestIds tables projectId
  | .run => runIds tables projectId
  | .workflowExecution => workflowIds tables projectId
  | .externalExecution => externalIds tables projectId
  | .workspaceOperation => workspaceOperationIds tables projectId
  | .scmPublication => scmPublicationIds tables projectId
  | .budgetAccount => budgetAccountIds tables projectId
  | .budgetReservation => budgetReservationIds tables projectId
  | .notificationDelivery => fun _ => false

theorem ofProject_iff_subquery (event : EventRecord β) :
    ofProject tables projectId event = true ↔ ∃ kind : ResourceKind,
      event.aggregateType = kind.typeName ∧
        subquery tables projectId kind event.aggregateId = true := by
  simp only [ofProject, Bool.or_eq_true, Bool.and_eq_true, decide_eq_true_eq]
  constructor
  · rintro ((((((((h | h) | h) | h) | h) | h) | h) | h) | h)
    · exact ⟨.project, h.1, decide_eq_true h.2⟩
    · exact ⟨.request, h⟩
    · exact ⟨.run, h⟩
    · exact ⟨.workflowExecution, h⟩
    · exact ⟨.externalExecution, h⟩
    · exact ⟨.workspaceOperation, h⟩
    · exact ⟨.scmPublication, h⟩
    · exact ⟨.budgetAccount, h⟩
    · exact ⟨.budgetReservation, h⟩
  · rintro ⟨kind, htype, hquery⟩
    cases kind with
    | notificationDelivery => cases hquery
    | _ => simp_all [ResourceKind.typeName, subquery]

theorem any_column_iff (hkeys : tables.ForeignKeys) (kind : ResourceKind) {above : ResourceKind}
    (habove : kind.above = some above) {query : UUID → Bool}
    (hquery : ∀ id, query id = true ↔ tables.Owner ⟨above, id⟩ projectId) (id : UUID) :
    (tables.column kind id).any query = true ↔ tables.Owner ⟨kind, id⟩ projectId := by
  rw [hkeys.owner_iff habove, Option.any_eq_true]
  simp only [hquery]

/-- A subquery holds the resources of its type that belong to the project. -/
theorem subquery_iff (hkeys : tables.ForeignKeys) (hproject : tables.projects projectId = true)
    {kind : ResourceKind} (hkind : kind ≠ .notificationDelivery) (id : UUID) :
    subquery tables projectId kind id = true ↔ tables.Owner ⟨kind, id⟩ projectId := by
  have hcolumn : ∀ kind : ResourceKind, kind.above = some .project → ∀ id,
      decide (tables.column kind id = some projectId) = true ↔
        tables.Owner ⟨kind, id⟩ projectId := by
    intro kind habove id
    rw [decide_eq_true_eq, hkeys.owner_iff_column habove]
  have hrequest := hcolumn .request rfl
  have hrun := any_column_iff hkeys .run rfl hrequest
  have hworkflow := any_column_iff hkeys .workflowExecution rfl hrun
  have hexternal := any_column_iff hkeys .externalExecution rfl hrun
  cases kind with
  | project =>
    rw [Tables.owner_project]
    show decide (id = projectId) = true ↔ _
    rw [decide_eq_true_eq]
    constructor
    · rintro rfl
      exact ⟨hproject, rfl⟩
    · exact fun h => h.2
  | request => exact hrequest id
  | run => exact hrun id
  | workflowExecution => exact hworkflow id
  | externalExecution => exact hexternal id
  | workspaceOperation => exact any_column_iff hkeys .workspaceOperation rfl hexternal id
  | scmPublication => exact any_column_iff hkeys .scmPublication rfl hexternal id
  | budgetAccount => exact hcolumn .budgetAccount rfl id
  | budgetReservation => exact hcolumn .budgetReservation rfl id
  | notificationDelivery => exact absurd rfl hkind

theorem typeName_injective {kind kind' : ResourceKind} (h : kind.typeName = kind'.typeName) :
    kind = kind' := by
  cases kind <;> cases kind' <;> first | rfl | exact absurd h (by decide)

/-- The union selects the events of the project except those of notification deliveries. -/
theorem ofProject_iff (hkeys : tables.ForeignKeys) (hproject : tables.projects projectId = true)
    (event : EventRecord β) :
    ofProject tables projectId event = true ↔
      BelongsTo tables projectId event ∧ event.aggregateType ≠ "notification_delivery" := by
  rw [ofProject_iff_subquery]
  constructor
  · rintro ⟨kind, htype, hquery⟩
    have hkind : kind ≠ .notificationDelivery := by
      rintro rfl
      cases hquery
    refine ⟨⟨kind, htype, (subquery_iff hkeys hproject hkind _).mp hquery⟩, ?_⟩
    rw [htype]
    exact fun h => hkind (typeName_injective h)
  · rintro ⟨⟨kind, htype, howner⟩, hother⟩
    have hkind : kind ≠ .notificationDelivery := by
      rintro rfl
      exact hother htype
    exact ⟨kind, htype, (subquery_iff hkeys hproject hkind _).mpr howner⟩

end Membership

/-- `list_project_after` answers the first events of the project where none of them is about a
notification delivery; it never answers an event of another project. -/
theorem listProjectAfter_iff {tables : Tables} (hkeys : tables.ForeignKeys)
    {records : List (EventRecord β)} (hsequence : (records.map (·.sequence)).Nodup)
    {projectId : UUID} (hproject : tables.projects projectId = true)
    (after : Option (EventRecord β)) (limit : ℕ) :
    (∀ event ∈ listProjectAfter tables records projectId after limit,
      event ∈ records ∧ BelongsTo tables projectId event) ∧
    (listProjectAfter tables records projectId after limit =
        projectEvents tables records projectId after limit ↔
      ∀ event ∈ projectEvents tables records projectId after limit,
        event.aggregateType ≠ "notification_delivery") := by
  classical
  have hselects := ofProject_iff (β := β) hkeys hproject
  constructor
  · intro event hevent
    obtain ⟨hrecord, hselected, -⟩ := OrderedPage.mem_of_mem hevent
    exact ⟨hrecord, ((hselects event).mp hselected).1⟩
  · unfold listProjectAfter projectEvents selectEvents
    rw [OrderedPage.eq_iff_of_imp hsequence fun event h =>
      decide_eq_true ((hselects event).mp h).1]
    apply forall₂_congr
    intro event hevent
    have hbelongs := of_decide_eq_true (OrderedPage.mem_of_mem hevent).2.1
    rw [hselects event]
    exact and_iff_right hbelongs

theorem listProjectAfter_iff_runStarted :
    let records := [EventRecord.mk 1 100 "run" 3 (), ⟨2, 101, "skill", 3, ()⟩]
    listProjectAfter Tables.oneChain records 1 none 100 =
      projectEvents Tables.oneChain records 1 none 100 := by
  intro records
  refine (listProjectAfter_iff Tables.oneChain_foreignKeys (by decide) rfl none 100).2.mpr ?_
  intro event hevent
  have hrecord := (OrderedPage.mem_of_mem hevent).1
  have htypes : ∀ event ∈ records, event.aggregateType ≠ "notification_delivery" := by decide
  exact htypes event hrecord

/-- The event of a delivery of the project is not among the events of the project. -/
theorem delivery_event_hidden : ¬∀ (tables : Tables) (records : List (EventRecord Unit))
    (projectId : UUID) (after : Option (EventRecord Unit)) (limit : ℕ), tables.ForeignKeys →
    (records.map (·.sequence)).Nodup → tables.projects projectId = true →
    listProjectAfter tables records projectId after limit =
      projectEvents tables records projectId after limit := by
  intro hclaim
  have hevents := hclaim Tables.oneChain [⟨1, 100, "notification_delivery", 10, ()⟩] 1 none 100
    Tables.oneChain_foreignKeys (by decide) rfl
  have hempty : listProjectAfter Tables.oneChain
      [EventRecord.mk 1 100 "notification_delivery" 10 ()] 1 none 100 = [] := by
    decide
  rw [hempty] at hevents
  have hnone := (OrderedPage.eq_nil_iff (by decide)).mp hevents.symm _ List.mem_cons_self
  have hbelongs : BelongsTo Tables.oneChain 1
      (EventRecord.mk 1 100 "notification_delivery" 10 ()) :=
    ⟨.notificationDelivery, rfl,
      (Tables.oneChain_foreignKeys.owner_iff_column rfl).mpr rfl⟩
  have hbehind := hnone (by simpa using hbelongs)
  exact absurd hbehind (by decide)

end JbOrchestrator.Infrastructure
