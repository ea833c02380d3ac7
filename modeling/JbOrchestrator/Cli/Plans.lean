import JbOrchestrator.Cli.Registration

/-!
# Plans — the actions of a plan and the resources they are for

Each part of a plan names resources of its own, so `action_by_identity` finds the action that the
plan made for a resource.
-/

open Lib

namespace JbOrchestrator.Cli

open Workflows WorkerPresence Api

section OneCatalog

variable {α ρ : Type} {catalog : Catalog α ρ} {kept : α → Prop}

/-! ## 1. One action -/

theorem compareAction_resource {β : Type} (contains : β → β → Bool) (resource : BundleResource)
    (current : Option β) (expected : β) :
    (compareAction contains resource current expected).resource = resource := by
  unfold compareAction
  split
  · rfl
  · split <;> rfl

theorem compareAction_create_iff {β : Type} {contains : β → β → Bool} {resource : BundleResource}
    {current : Option β} {expected : β} :
    (compareAction contains resource current expected).action = .create ↔ current = none := by
  unfold compareAction
  cases current with
  | none => simp
  | some current =>
    dsimp only
    split <;> simp

theorem compareAction_unchanged_iff {β : Type} {contains : β → β → Bool}
    {resource : BundleResource} {current : Option β} {expected : β} :
    (compareAction contains resource current expected).action = .unchanged ↔
      ∃ value, current = some value ∧ contains value expected = true := by
  unfold compareAction
  cases current with
  | none => simp
  | some current =>
    dsimp only
    split
    · rename_i h
      simp [h]
    · rename_i h
      simp [h]

/-- A resource with one action has that action. -/
theorem actionOf_eq {plan : BundlePlan} {action : BundleAction} (h : action ∈ plan.actions)
    (hunique : ∀ other ∈ plan.actions, other.resource = action.resource → other = action) :
    plan.actionOf action.resource = some action.action := by
  unfold BundlePlan.actionOf
  have hmem : action ∈ plan.actions.reverse := List.mem_reverse.mpr h
  cases hfind : plan.actions.reverse.find? fun other => other.resource = action.resource with
  | none =>
    have hnone := List.find?_eq_none.mp hfind action hmem
    exact absurd (decide_eq_true rfl) hnone
  | some other =>
    have hresource : other.resource = action.resource := by
      simpa using List.find?_some hfind
    have hother := List.mem_reverse.mp (List.mem_of_find?_eq_some hfind)
    rw [hunique other hother hresource]
    rfl

/-- The actions of one catalog are those of its kind. -/
structure PlannedBy (catalog : Catalog α ρ) (values : List α) (s : ControlPlane)
    (plan : BundlePlan) : Prop where
  planned : ∀ action ∈ planCatalog catalog s values, action ∈ plan.actions
  of_kind : ∀ action ∈ plan.actions, ∀ identity, action.resource = .catalog catalog.kind identity →
    action ∈ planCatalog catalog s values
  nodup : (values.map catalog.identity).Nodup

theorem PlannedBy.create_iff {values : List α} {s : ControlPlane} {plan : BundlePlan}
    (h : PlannedBy catalog values s plan) {value : α} (hvalue : value ∈ values) :
    plan.actionOf (catalogResource catalog value) = some .create ↔
      catalog.get s (catalog.identity value) = none := by
  let action := compareAction catalog.contains (catalogResource catalog value)
    (catalog.get s (catalog.identity value)) value
  have hmem : action ∈ plan.actions := h.planned _ (List.mem_map_of_mem hvalue)
  have hresource : action.resource = catalogResource catalog value := compareAction_resource _ _ _ _
  have hunique : ∀ other ∈ plan.actions, other.resource = action.resource → other = action := by
    intro other hother heq
    rw [hresource] at heq
    obtain ⟨value', hvalue', rfl⟩ := List.mem_map.mp (h.of_kind other hother _ heq)
    rw [compareAction_resource] at heq
    have hidentity : catalog.identity value' = catalog.identity value :=
      (BundleResource.catalog.inj heq).2
    rw [List.inj_on_of_nodup_map h.nodup hvalue' hvalue hidentity]
  have haction := actionOf_eq hmem hunique
  rw [hresource] at haction
  rw [haction, Option.some.injEq]
  exact compareAction_create_iff

/-- After the loop of a catalog its values are reported unchanged exactly where those it created
came back as they were. -/
theorem planCatalog_unchanged_iff (laws : CatalogLaws catalog kept) {values : List α}
    {s t : ControlPlane} {plan : BundlePlan} (h : PlannedBy catalog values s plan)
    (hgrown : Grown catalog (toCreate catalog plan values) s t)
    (hconflict : plan.hasConflicts = false) :
    (∀ action ∈ planCatalog catalog t values, action.action = .unchanged) ↔
      ∀ value ∈ values, catalog.get s (catalog.identity value) = none → kept value := by
  unfold planCatalog
  rw [List.forall_mem_map]
  apply forall₂_congr
  intro value hvalue
  rw [compareAction_unchanged_iff]
  cases hget : catalog.get s (catalog.identity value) with
  | none =>
    have hcreate : value ∈ toCreate catalog plan values :=
      List.mem_filter.mpr ⟨hvalue, decide_eq_true ((h.create_iff hvalue).mpr hget)⟩
    obtain ⟨checked, record, hchecked, hrecord, hstored⟩ := hgrown.created value hcreate
    have hiff := laws.contains_iff value checked record hchecked hrecord
    rw [hstored]
    constructor
    · rintro ⟨found, hfound, hcontains⟩ -
      rw [← Option.some.inj hfound] at hcontains
      exact hiff.mp hcontains
    · intro hkept
      exact ⟨_, rfl, hiff.mpr (hkept rfl)⟩
  | some current =>
    -- Without a conflict what was there already is what the bundle expects.
    have haction : compareAction catalog.contains (catalogResource catalog value)
        (catalog.get s (catalog.identity value)) value ∈ plan.actions :=
      h.planned _ (List.mem_map_of_mem hvalue)
    have hfine := List.any_eq_false.mp hconflict _ haction
    rw [hget] at hfine
    have hcontains : catalog.contains current value = true := by
      by_contra hne
      apply hfine
      simp [compareAction, hne]
    rw [hgrown.stable _ _ hget]
    constructor
    · intro _ hnone
      cases hnone
    · intro _
      exact ⟨current, rfl, hcontains⟩

end OneCatalog

/-! ## 2. The parts of a plan -/

section Plan

variable {env : Environment} {bundle : OrchestrationBundle} {s : ControlPlane} {plan : BundlePlan}

/-- The part of a plan that one catalog fills. -/
def planOfKind (env : Environment) (bundle : OrchestrationBundle) (s : ControlPlane) :
    CatalogKind → List BundleAction
  | .skill => planCatalog skillCatalog s bundle.skills
  | .model => planCatalog modelCatalog s bundle.models
  | .phasePack => planCatalog (phasePackCatalog env.toSurroundings) s bundle.phasePacks
  | .workflow => planCatalog (workflowCatalog env.toSurroundings) s bundle.workflows

def planProject (bundle : OrchestrationBundle) (s : ControlPlane) (project : ProjectCreate) :
    BundleAction :=
  compareAction ProjectCreate.contains (.project project.key)
    ((findProject bundle s).map projectResponse) project

theorem mem_planBundle (h : planBundle env.toSurroundings bundle s = .ok plan) :
    ∃ dependencies, validateBundle env.toSurroundings bundle = .ok dependencies ∧
      ∀ action, action ∈ plan.actions ↔
        (∃ project ∈ bundle.project, action = planProject bundle s project) ∨
          (∃ kind, action ∈ planOfKind env bundle s kind) ∨
          action ∈ planDependencies env.toSurroundings s dependencies ∨
          ∃ binding ∈ bundle.binding, action = planBinding bundle s binding := by
  obtain ⟨dependencies, hdependencies, h⟩ := bind_ok h
  obtain rfl := Except.ok.inj h
  refine ⟨dependencies, hdependencies, fun action => ?_⟩
  have hkinds : (∃ kind, action ∈ planOfKind env bundle s kind) ↔
      action ∈ planCatalog skillCatalog s bundle.skills ∨
        action ∈ planCatalog modelCatalog s bundle.models ∨
        action ∈ planCatalog (phasePackCatalog env.toSurroundings) s bundle.phasePacks ∨
        action ∈ planCatalog (workflowCatalog env.toSurroundings) s bundle.workflows := by
    constructor
    · rintro ⟨kind, hkind⟩
      cases kind with
      | skill => exact Or.inl hkind
      | model => exact Or.inr (Or.inl hkind)
      | phasePack => exact Or.inr (Or.inr (Or.inl hkind))
      | workflow => exact Or.inr (Or.inr (Or.inr hkind))
    · rintro (h | h | h | h)
      · exact ⟨.skill, h⟩
      · exact ⟨.model, h⟩
      · exact ⟨.phasePack, h⟩
      · exact ⟨.workflow, h⟩
  rw [hkinds]
  simp only [List.mem_append, List.mem_map, Option.mem_toList, Option.mem_def, planProject,
    eq_comm (a := action), or_assoc]

theorem planCatalog_resource {α ρ : Type} {catalog : Catalog α ρ} {values : List α}
    {action : BundleAction} (h : action ∈ planCatalog catalog s values) :
    ∃ identity, action.resource = .catalog catalog.kind identity := by
  obtain ⟨value, -, rfl⟩ := List.mem_map.mp h
  exact ⟨_, compareAction_resource _ _ _ _⟩

theorem planOfKind_resource {kind : CatalogKind} {action : BundleAction}
    (h : action ∈ planOfKind env bundle s kind) :
    ∃ identity, action.resource = .catalog kind identity := by
  cases kind with
  | skill => exact planCatalog_resource h
  | model => exact planCatalog_resource h
  | phasePack => exact planCatalog_resource h
  | workflow => exact planCatalog_resource h

theorem planDependencies_resource {dependencies : List (CatalogKind × (String × ℕ))}
    {action : BundleAction} (h : action ∈ planDependencies env.toSurroundings s dependencies) :
    ∃ kind identity, action.resource = .dependency kind identity := by
  obtain ⟨dependency, -, rfl⟩ := List.mem_map.mp h
  exact ⟨_, _, rfl⟩

theorem planBinding_resource (bundle : OrchestrationBundle) (s : ControlPlane)
    (binding : BundleBinding) :
    (planBinding bundle s binding).resource = .binding binding.projectKey := by
  unfold planBinding
  split
  · split <;> rfl
  · dsimp only
    split <;> rfl

/-- The resource of an action tells which part of the plan it is in. -/
theorem plan_part (h : planBundle env.toSurroundings bundle s = .ok plan) {action : BundleAction}
    (haction : action ∈ plan.actions) :
    (∀ key, action.resource = .project key → ∃ project ∈ bundle.project,
        action = planProject bundle s project) ∧
      (∀ kind identity, action.resource = .catalog kind identity →
        action ∈ planOfKind env bundle s kind) ∧
      ∀ key, action.resource = .binding key → ∃ binding ∈ bundle.binding,
        action = planBinding bundle s binding := by
  obtain ⟨dependencies, -, hmem⟩ := mem_planBundle h
  rcases (hmem action).mp haction with ⟨project, hproject, hplan⟩ | ⟨kind, hkind⟩ | hdependency |
    ⟨binding, hbinding, hplan⟩
  · have hresource : action.resource = .project project.key := by
      rw [hplan]
      exact compareAction_resource _ _ _ _
    rw [hresource]
    exact ⟨fun _ _ => ⟨project, hproject, hplan⟩, nofun, nofun⟩
  · obtain ⟨identity, hresource⟩ := planOfKind_resource hkind
    rw [hresource]
    refine ⟨nofun, fun kind' identity' heq => ?_, nofun⟩
    rw [← (BundleResource.catalog.inj heq).1]
    exact hkind
  · obtain ⟨kind, identity, hresource⟩ := planDependencies_resource hdependency
    rw [hresource]
    exact ⟨nofun, nofun, nofun⟩
  · have hresource : action.resource = .binding binding.projectKey := by
      rw [hplan]
      exact planBinding_resource _ _ _
    rw [hresource]
    exact ⟨nofun, nofun, fun _ _ => ⟨binding, hbinding, hplan⟩⟩

theorem planOfKind_subset (h : planBundle env.toSurroundings bundle s = .ok plan)
    (kind : CatalogKind) : ∀ action ∈ planOfKind env bundle s kind, action ∈ plan.actions := by
  obtain ⟨dependencies, -, hmem⟩ := mem_planBundle h
  intro action haction
  exact (hmem action).mpr (Or.inr (Or.inl ⟨kind, haction⟩))

theorem planned_skills (h : planBundle env.toSurroundings bundle s = .ok plan) :
    PlannedBy skillCatalog bundle.skills s plan where
  planned := planOfKind_subset h .skill
  of_kind _ haction identity heq := (plan_part h haction).2.1 .skill identity heq
  nodup := bundle.skills_unique

theorem planned_models (h : planBundle env.toSurroundings bundle s = .ok plan) :
    PlannedBy modelCatalog bundle.models s plan where
  planned := planOfKind_subset h .model
  of_kind _ haction identity heq := (plan_part h haction).2.1 .model identity heq
  nodup := bundle.models_unique

theorem planned_phasePacks (h : planBundle env.toSurroundings bundle s = .ok plan) :
    PlannedBy (phasePackCatalog env.toSurroundings) bundle.phasePacks s plan where
  planned := planOfKind_subset h .phasePack
  of_kind _ haction identity heq := (plan_part h haction).2.1 .phasePack identity heq
  nodup := bundle.phasePacks_unique

theorem planned_workflows (h : planBundle env.toSurroundings bundle s = .ok plan) :
    PlannedBy (workflowCatalog env.toSurroundings) bundle.workflows s plan where
  planned := planOfKind_subset h .workflow
  of_kind _ haction identity heq := (plan_part h haction).2.1 .workflow identity heq
  nodup := bundle.workflows_unique

theorem actionOf_project (h : planBundle env.toSurroundings bundle s = .ok plan)
    {project : ProjectCreate} (hproject : bundle.project = some project) :
    plan.actionOf (.project project.key) = some (planProject bundle s project).action := by
  obtain ⟨dependencies, -, hmem⟩ := mem_planBundle h
  have hplanned : planProject bundle s project ∈ plan.actions :=
    (hmem _).mpr (Or.inl ⟨project, hproject, rfl⟩)
  have hresource : (planProject bundle s project).resource = .project project.key :=
    compareAction_resource _ _ _ _
  rw [← hresource]
  apply actionOf_eq hplanned
  intro other hother heq
  obtain ⟨project', hproject', rfl⟩ := (plan_part h hother).1 _ (heq.trans hresource)
  rw [hproject] at hproject'
  rw [Option.some.inj hproject']

theorem actionOf_binding (h : planBundle env.toSurroundings bundle s = .ok plan)
    {binding : BundleBinding} (hbinding : bundle.binding = some binding) :
    plan.actionOf (.binding binding.projectKey) = some (planBinding bundle s binding).action := by
  obtain ⟨dependencies, -, hmem⟩ := mem_planBundle h
  have hplanned : planBinding bundle s binding ∈ plan.actions :=
    (hmem _).mpr (Or.inr (Or.inr (Or.inr ⟨binding, hbinding, rfl⟩)))
  have hresource := planBinding_resource bundle s binding
  rw [← hresource]
  apply actionOf_eq hplanned
  intro other hother heq
  obtain ⟨binding', hbinding', rfl⟩ := (plan_part h hother).2.2 _ (heq.trans hresource)
  rw [hbinding] at hbinding'
  rw [Option.some.inj hbinding']

end Plan

end JbOrchestrator.Cli
