import JbOrchestrator.Catalog
import JbOrchestrator.Lib.Forest

/-!
# Ownership — the project a row belongs to

Every row of a table below names its owner through one foreign key, and the chains of these keys
end in the table of projects.  A table is kept as the function from its primary key to that column.
-/

open Lib

namespace JbOrchestrator.Infrastructure

/-- The tables whose rows belong to a project, with the column through which they do. -/
inductive ResourceKind where
  | project
  /-- `user_requests.project_id`. -/
  | request
  /-- `runs.request_id`. -/
  | run
  /-- `workflow_executions.run_id`, which is written with the snapshot and equals its `run_id`. -/
  | workflowExecution
  /-- `external_executions.run_id`. -/
  | externalExecution
  /-- `workspace_operations.external_execution_id`. -/
  | workspaceOperation
  /-- `scm_publications.external_execution_id`. -/
  | scmPublication
  /-- `budget_accounts.project_id`. -/
  | budgetAccount
  /-- `budget_reservations.project_id`. -/
  | budgetReservation
  /-- `notification_deliveries.project_id`. -/
  | notificationDelivery
  deriving DecidableEq, Repr

/-- The table that the owner column refers to. -/
def ResourceKind.above : ResourceKind → Option ResourceKind
  | .project => none
  | .request | .budgetAccount | .budgetReservation | .notificationDelivery => some .project
  | .run => some .request
  | .workflowExecution | .externalExecution => some .run
  | .workspaceOperation | .scmPublication => some .externalExecution

/-- `aggregate_type` of the events of a resource, and its type for authorization. -/
def ResourceKind.typeName : ResourceKind → String
  | .project => "project"
  | .request => "request"
  | .run => "run"
  | .workflowExecution => "workflow_execution"
  | .externalExecution => "external_execution"
  | .workspaceOperation => "workspace_operation"
  | .scmPublication => "scm_publication"
  | .budgetAccount => "budget_account"
  | .budgetReservation => "budget_reservation"
  | .notificationDelivery => "notification_delivery"

structure Resource where
  kind : ResourceKind
  id : UUID
  deriving DecidableEq, Repr

structure Tables where
  projects : UUID → Bool
  requests : UUID → Option UUID
  runs : UUID → Option UUID
  workflowExecutions : UUID → Option UUID
  externalExecutions : UUID → Option UUID
  workspaceOperations : UUID → Option UUID
  scmPublications : UUID → Option UUID
  budgetAccounts : UUID → Option UUID
  budgetReservations : UUID → Option UUID
  notificationDeliveries : UUID → Option UUID

namespace Tables

/-- The owner column of a table. -/
def column (tables : Tables) : ResourceKind → UUID → Option UUID
  | .project => fun _ => none
  | .request => tables.requests
  | .run => tables.runs
  | .workflowExecution => tables.workflowExecutions
  | .externalExecution => tables.externalExecutions
  | .workspaceOperation => tables.workspaceOperations
  | .scmPublication => tables.scmPublications
  | .budgetAccount => tables.budgetAccounts
  | .budgetReservation => tables.budgetReservations
  | .notificationDelivery => tables.notificationDeliveries

/-- The row that the owner column of a resource refers to. -/
def parent (tables : Tables) (resource : Resource) : Option Resource :=
  match resource.kind.above with
  | none => none
  | some above => (tables.column resource.kind resource.id).map (⟨above, ·⟩)

/-- The row of the resource is there. -/
def Present (tables : Tables) (resource : Resource) : Prop :=
  if resource.kind = .project then tables.projects resource.id = true
  else (tables.column resource.kind resource.id).isSome = true

/-- The foreign keys of the owner columns. -/
def ForeignKeys (tables : Tables) : Prop :=
  ∀ resource above, tables.parent resource = some above → tables.Present above

/-- The project that the chain of owner columns ends in. -/
def Owner (tables : Tables) (resource : Resource) (project : UUID) : Prop :=
  tables.Present resource ∧ Root tables.parent resource ⟨.project, project⟩

/-! ## 1. Chains -/

variable {tables : Tables}

theorem parent_eq_some {resource above : Resource} :
    tables.parent resource = some above ↔
      resource.kind.above = some above.kind ∧
        tables.column resource.kind resource.id = some above.id := by
  unfold parent
  split
  · rename_i hnone
    simp [hnone]
  · rename_i kind hkind
    rw [hkind, Option.map_eq_some_iff, Option.some.injEq]
    constructor
    · rintro ⟨id, hid, rfl⟩
      exact ⟨rfl, hid⟩
    · rintro ⟨rfl, hid⟩
      exact ⟨above.id, hid, rfl⟩

theorem above_ne_project : ∀ kind above : ResourceKind, kind.above = some above →
    kind ≠ .project := by
  rintro kind above h rfl
  cases h

theorem above_eq_none {kind : ResourceKind} (h : kind.above = none) : kind = .project := by
  cases kind with
  | project => rfl
  | _ => cases h

/-- How many owner columns lead from a table to the projects. -/
def rank : ResourceKind → ℕ
  | .project => 0
  | .request | .budgetAccount | .budgetReservation | .notificationDelivery => 1
  | .run => 2
  | .workflowExecution | .externalExecution => 3
  | .workspaceOperation | .scmPublication => 4

theorem rank_above {kind above : ResourceKind} (h : kind.above = some above) :
    rank above < rank kind := by
  cases kind with
  | project => cases h
  | _ => obtain rfl := Option.some.inj h; decide

theorem present_of_parent {resource above : Resource}
    (h : tables.parent resource = some above) : tables.Present resource := by
  obtain ⟨habove, hcolumn⟩ := parent_eq_some.mp h
  rw [Present, if_neg (above_ne_project _ _ habove), hcolumn]
  rfl

theorem Owner.unique {resource : Resource} {project project' : UUID}
    (h : tables.Owner resource project) (h' : tables.Owner resource project') :
    project = project' :=
  (Resource.mk.inj (h.2.unique h'.2)).2

/-- A root that is there is a project. -/
theorem kind_of_root {resource : Resource} (hpresent : tables.Present resource)
    (hroot : tables.parent resource = none) : resource.kind = .project := by
  by_contra hkind
  rw [Present, if_neg hkind] at hpresent
  obtain ⟨id, hid⟩ := Option.isSome_iff_exists.mp hpresent
  cases habove : resource.kind.above with
  | none => exact hkind (above_eq_none habove)
  | some above =>
    have hparent : tables.parent resource = some ⟨above, id⟩ :=
      parent_eq_some.mpr ⟨habove, hid⟩
    rw [hroot] at hparent
    cases hparent

/-- A resource that is there has an owner. -/
theorem ForeignKeys.exists_owner (hkeys : tables.ForeignKeys) {resource : Resource}
    (hpresent : tables.Present resource) : ∃ project, tables.Owner resource project := by
  obtain ⟨root, hroot⟩ := Root.exists_of_rank (fun r : Resource => rank r.kind)
    (fun _ _ h => rank_above (parent_eq_some.mp h).1) resource
  have hroots : tables.Present root :=
    hroot.holds (fun node above h _ => hkeys node above h) hpresent
  have hkind := kind_of_root hroots hroot.parent_eq_none
  obtain ⟨kind, id⟩ := root
  subst hkind
  exact ⟨id, hpresent, hroot⟩

theorem ForeignKeys.owner_unless (hkeys : tables.ForeignKeys) {resource : Resource} :
    (∀ project, ¬tables.Owner resource project) ↔ ¬tables.Present resource := by
  constructor
  · intro h hpresent
    obtain ⟨project, howner⟩ := hkeys.exists_owner hpresent
    exact h project howner
  · intro h project howner
    exact h howner.1

theorem owner_project {id project : UUID} :
    tables.Owner ⟨.project, id⟩ project ↔ tables.projects id = true ∧ id = project := by
  constructor
  · rintro ⟨hpresent, hroot⟩
    exact ⟨hpresent, (Resource.mk.inj (hroot.eq_of_none rfl)).2.symm⟩
  · rintro ⟨hpresent, rfl⟩
    exact ⟨hpresent, .here rfl⟩

/-- The owner of a row is the owner of the row that its column refers to. -/
theorem ForeignKeys.owner_parent (hkeys : tables.ForeignKeys) {resource above : Resource}
    (h : tables.parent resource = some above) {project : UUID} :
    tables.Owner resource project ↔ tables.Owner above project := by
  constructor
  · rintro ⟨-, hroot⟩
    exact ⟨hkeys resource above h, hroot.of_some h⟩
  · rintro ⟨-, hroot⟩
    exact ⟨present_of_parent h, .up h hroot⟩

theorem ForeignKeys.owner_iff (hkeys : tables.ForeignKeys) {kind above : ResourceKind}
    (habove : kind.above = some above) {id project : UUID} :
    tables.Owner ⟨kind, id⟩ project ↔
      ∃ aboveId, tables.column kind id = some aboveId ∧ tables.Owner ⟨above, aboveId⟩ project := by
  constructor
  · intro howner
    have hpresent := howner.1
    rw [Present, if_neg (above_ne_project _ _ habove)] at hpresent
    obtain ⟨aboveId, hcolumn⟩ := Option.isSome_iff_exists.mp hpresent
    exact ⟨aboveId, hcolumn,
      (hkeys.owner_parent (parent_eq_some.mpr ⟨habove, hcolumn⟩)).mp howner⟩
  · rintro ⟨aboveId, hcolumn, howner⟩
    exact (hkeys.owner_parent (parent_eq_some.mpr ⟨habove, hcolumn⟩)).mpr howner

/-- A column that refers to a project names the owner. -/
theorem ForeignKeys.owner_iff_column (hkeys : tables.ForeignKeys) {kind : ResourceKind}
    (habove : kind.above = some .project) {id project : UUID} :
    tables.Owner ⟨kind, id⟩ project ↔ tables.column kind id = some project := by
  rw [hkeys.owner_iff habove]
  constructor
  · rintro ⟨aboveId, hcolumn, howner⟩
    rw [hcolumn, (owner_project.mp howner).2]
  · intro hcolumn
    refine ⟨project, hcolumn, owner_project.mpr ⟨?_, rfl⟩⟩
    have hpresent := hkeys ⟨kind, id⟩ ⟨.project, project⟩ (parent_eq_some.mpr ⟨habove, hcolumn⟩)
    rwa [Present, if_pos rfl] at hpresent

/-! ## 2. Rows of one project -/

/-- A run of a request of project 1, with one row in every table behind it. -/
def oneChain : Tables where
  projects id := id = 1
  requests id := if id = 2 then some 1 else none
  runs id := if id = 3 then some 2 else none
  workflowExecutions id := if id = 4 then some 3 else none
  externalExecutions id := if id = 5 then some 3 else none
  workspaceOperations id := if id = 6 then some 5 else none
  scmPublications id := if id = 7 then some 5 else none
  budgetAccounts id := if id = 8 then some 1 else none
  budgetReservations id := if id = 9 then some 1 else none
  notificationDeliveries id := if id = 10 then some 1 else none

theorem oneChain_foreignKeys : oneChain.ForeignKeys := by
  rintro ⟨kind, id⟩ ⟨above, aboveId⟩ h
  obtain ⟨habove, hcolumn⟩ := parent_eq_some.mp h
  cases kind with
  | project => cases habove
  | _ =>
    obtain rfl := Option.some.inj habove
    simp only [column, oneChain, Option.ite_none_right_eq_some, Option.some.injEq]
      at hcolumn
    obtain ⟨-, rfl⟩ := hcolumn
    simp [Present, column, oneChain]

end Tables

end JbOrchestrator.Infrastructure
