import JbOrchestrator.Cli.Plans
import JbOrchestrator.Lib.OrderedPage

/-!
# Convergence — what a plan says after its bundle was applied

The next plan reports what an apply created unchanged exactly where it came back as the bundle has
it, and a project exactly where, besides, the list of projects still shows it.
-/

open Lib

namespace JbOrchestrator.Cli

open Workflows WorkerPresence Api

variable (env : Environment)

/-! ## 1. The project -/

/-- A project whose constructor has nothing to strip. -/
def Trimmed (project : ProjectCreate) : Prop :=
  Text.strip project.key = project.key ∧ Text.strip project.name = project.name ∧
    Text.strip project.defaultBranch = project.defaultBranch

/-- A project is listed in front of one with this creation time and identifier. -/
def standsBefore (now : Instant) (id : UUID) (record : ProjectRecord) : Bool :=
  now < record.createdAt ∨ (record.createdAt = now ∧ record.id < id)

/-- The project that is created next comes to stand on the first page. -/
def ListedFirst (s : ControlPlane) : Prop :=
  (s.projects.filter (standsBefore env.now env.projectId)).length < 500

/-- Parsing the text of a URL gives that text, and it has no blanks to strip. -/
def UrlTexts (env : Surroundings) : Prop :=
  ∀ source url, env.httpUrl source = some url →
    env.httpUrl url = some url ∧ Text.strip url = url

instance : Std.Total ProjectRecord.upTo :=
  ⟨fun a b => by rw [upTo_iff, upTo_iff]; exact le_total _ _⟩

instance : IsTrans ProjectRecord ProjectRecord.upTo :=
  ⟨fun a b c hab hbc => (upTo_iff a c).mpr (((upTo_iff a b).mp hab).trans ((upTo_iff b c).mp hbc))⟩

theorem projectsPage_eq (s : ControlPlane) :
    projectsPage s = (s.projects.insertionSort ProjectRecord.upTo).take 500 := by
  simp [projectsPage, listProjects]

theorem standsBefore_eq (record : ProjectRecord) :
    standsBefore record.createdAt record.id = fun other => !decide (record.upTo other) := by
  funext other
  have hiff : ¬record.upTo other ↔ record.isAfter other = true := by
    rw [upTo_iff, isAfter_iff, not_le]
  rw [ProjectRecord.isAfter, decide_eq_true_eq] at hiff
  rw [standsBefore, ← decide_not, decide_eq_decide, hiff, eq_comm (a := other.createdAt)]

/-- What registering a project writes. -/
structure Registered (env : Environment) (s : ControlPlane) (payload : ProjectCreate)
    (record : ProjectRecord) (t : ControlPlane) : Prop where
  key : record.key = Text.strip payload.key
  name : record.name = Text.strip payload.name
  branch : record.defaultBranch = Text.strip payload.defaultBranch
  url : ∃ url, env.httpUrl payload.repositoryUrl = some url ∧ record.repositoryUrl = Text.strip url
  position : record.createdAt = env.now ∧ record.id = env.projectId
  fresh : ∀ other ∈ s.projects, other.id ≠ env.projectId
  server : t = { s with projects := record :: s.projects }

theorem registerProject_ok {s t : ControlPlane} {payload : ProjectCreate} {record : ProjectRecord}
    (h : registerProject env.toSurroundings s env.projectId env.now payload = .ok (record, t)) :
    Registered env s payload record t := by
  unfold registerProject at h
  cases hurl : env.httpUrl payload.repositoryUrl with
  | none =>
    rw [hurl] at h
    cases h
  | some url =>
    rw [hurl] at h
    obtain ⟨project, hproject, hrest⟩ := bind_ok h
    have hproject := ok_of_mapError hproject
    unfold ProjectCreate.postInit at hproject
    simp only [check_bind_eq_ok] at hproject
    obtain rfl := Except.ok.inj hproject.2.2.2.2
    split at hrest
    · cases hrest
    · split at hrest
      · cases hrest
      · rename_i hfresh
        cases hrest
        rw [Bool.not_eq_true, List.any_eq_false] at hfresh
        exact {
          key := rfl
          name := rfl
          branch := rfl
          url := ⟨url, hurl, rfl⟩
          position := ⟨rfl, rfl⟩
          fresh := fun other hother heq => hfresh other hother (decide_eq_true heq)
          server := rfl }

section Project

variable {env} {bundle : OrchestrationBundle} {project : ProjectCreate} {s t : ControlPlane}
  {record : ProjectRecord}

theorem findProject_eq (hbundle : bundle.project = some project) (s : ControlPlane) :
    findProject bundle s = (projectsPage s).find? fun record => record.key = project.key := by
  unfold findProject OrchestrationBundle.projectKey
  rw [hbundle]
  rfl

theorem Registered.mem_page_iff (h : Registered env s project record t) :
    record ∈ projectsPage t ↔ ListedFirst env s := by
  obtain ⟨hnow, hid⟩ := h.position
  have hnew : record ∉ s.projects.insertionSort ProjectRecord.upTo := by
    rw [List.mem_insertionSort]
    intro hmem
    exact h.fresh record hmem hid
  have hcount := takeWhile_eq_filter (x := record)
    (List.pairwise_insertionSort ProjectRecord.upTo s.projects)
  have hperm := (List.perm_insertionSort ProjectRecord.upTo s.projects).filter
    fun other => !decide (record.upTo other)
  rw [projectsPage_eq, h.server, List.insertionSort_cons, self_mem_take_orderedInsert_iff hnew,
    hcount, hperm.length_eq, ListedFirst, ← hnow, ← hid, standsBefore_eq]

/-- Besides the new project the page shows none it did not show before. -/
theorem Registered.of_mem_page (h : Registered env s project record t) {other : ProjectRecord}
    (hother : other ∈ projectsPage t) : other = record ∨ other ∈ projectsPage s := by
  rw [projectsPage_eq, h.server, List.insertionSort_cons] at hother
  rw [projectsPage_eq]
  exact mem_take_of_mem_take_orderedInsert hother

theorem Registered.findProject_iff (h : Registered env s project record t)
    (hbundle : bundle.project = some project) (hfree : findProject bundle s = none)
    {found : ProjectRecord} :
    findProject bundle t = some found ↔
      found = record ∧ Text.strip project.key = project.key ∧ ListedFirst env s := by
  rw [findProject_eq hbundle] at hfree ⊢
  -- Nothing the page showed before has the key.
  have honly : ∀ other ∈ projectsPage t, other.key = project.key → other = record := by
    intro other hother hkey
    rcases h.of_mem_page hother with hself | hold
    · exact hself
    · exact absurd (decide_eq_true hkey) (List.find?_eq_none.mp hfree other hold)
  constructor
  · intro hfind
    have hmem := List.mem_of_find?_eq_some hfind
    have hkey : found.key = project.key := by simpa using List.find?_some hfind
    obtain rfl := honly found hmem hkey
    exact ⟨rfl, h.key.symm.trans hkey, h.mem_page_iff.mp hmem⟩
  · rintro ⟨rfl, hkey, hlisted⟩
    have hmem := h.mem_page_iff.mpr hlisted
    have hfound : found.key = project.key := h.key.trans hkey
    cases hfind : (projectsPage t).find? fun other => other.key = project.key with
    | none => exact absurd (decide_eq_true hfound) (List.find?_eq_none.mp hfind found hmem)
    | some other =>
      have hother : other.key = project.key := by simpa using List.find?_some hfind
      rw [honly other (List.mem_of_find?_eq_some hfind) hother]

/-- The next plan finds the project as the bundle has it. -/
theorem Registered.unchanged_iff (h : Registered env s project record t)
    (hurls : UrlTexts env.toSurroundings)
    (hurl : ∃ source, env.httpUrl source = some project.repositoryUrl)
    (hbundle : bundle.project = some project) (hfree : findProject bundle s = none) :
    (∃ value, (findProject bundle t).map projectResponse = some value ∧
      ProjectCreate.contains value project = true) ↔ Trimmed project ∧ ListedFirst env s := by
  have hrepository : record.repositoryUrl = project.repositoryUrl := by
    obtain ⟨source, hsource⟩ := hurl
    obtain ⟨url, hparsed, hstored⟩ := h.url
    obtain ⟨hself, hstrip⟩ := hurls source _ hsource
    rw [hself] at hparsed
    rw [hstored, ← Option.some.inj hparsed, hstrip]
  have hcontains : ProjectCreate.contains (projectResponse record) project = true ↔
      Trimmed project := by
    unfold ProjectCreate.contains projectResponse Trimmed
    rw [decide_eq_true_eq, hrepository, h.key, h.name, h.branch]
    cases project
    simp
  constructor
  · rintro ⟨value, hvalue, hmatches⟩
    obtain ⟨found, hfound, rfl⟩ := Option.map_eq_some_iff.mp hvalue
    obtain ⟨rfl, -, hlisted⟩ := (h.findProject_iff hbundle hfree).mp hfound
    exact ⟨hcontains.mp hmatches, hlisted⟩
  · rintro ⟨htrimmed, hlisted⟩
    refine ⟨projectResponse record, ?_, hcontains.mpr htrimmed⟩
    rw [(h.findProject_iff hbundle hfree).mpr ⟨rfl, htrimmed.1, hlisted⟩]
    rfl

end Project

/-! ## 2. The binding -/

theorem isSpace_of_isKeyChar {c : Char}
    (h : isKeyChar c = true ∨ c = '.' ∨ c = '_' ∨ c = '-') : Text.isSpace c = false := by
  have hcode : (48 ≤ c.toNat ∧ c.toNat ≤ 57) ∨ (97 ≤ c.toNat ∧ c.toNat ≤ 122) ∨ c.toNat = 46 ∨
      c.toNat = 95 ∨ c.toNat = 45 := by
    rcases h with h | rfl | rfl | rfl
    · simp only [isKeyChar, isKeyHead, Text.isDigit, Bool.or_eq_true, Bool.and_eq_true,
        decide_eq_true_eq] at h
      omega
    · simp
    · simp
    · simp
  unfold Text.isSpace
  generalize c.toNat = n at hcode
  simp only [Bool.or_eq_false_iff, Bool.and_eq_false_iff, decide_eq_false_iff_not]
  omega

theorem strip_of_matchesCatalogKey {key : String} (h : matchesCatalogKey key = true) :
    Text.strip key = key := by
  apply Text.strip_eq_self
  intro c hc
  unfold matchesCatalogKey at h
  cases hkey : key.toList with
  | nil =>
    rw [hkey] at hc
    cases hc
  | cons head rest =>
    rw [hkey] at h hc
    simp only [Bool.and_eq_true, List.all_eq_true] at h
    apply isSpace_of_isKeyChar
    rcases List.mem_cons.mp hc with rfl | hc
    · exact Or.inl h.1
    · have hrest := h.2 c hc
      simp only [Bool.or_eq_true, decide_eq_true_eq] at hrest
      tauto

/-- A configured binding is the one that is read back. -/
theorem configureBinding_ok {env : Surroundings} {s t : ControlPlane} {projectId : UUID}
    {key : String} {version : ℕ} (hkey : matchesCatalogKey key = true)
    (h : configureBinding env s projectId key version = .ok t) :
    (∃ bindings, t = { s with bindings := bindings }) ∧
      getBinding t projectId = some ⟨projectId, key, version⟩ := by
  have hstrip := strip_of_matchesCatalogKey hkey
  unfold configureBinding at h
  split at h
  · cases h
  · rename_i hproject
    rw [Bool.not_eq_false] at hproject
    split at h
    · cases h
    · rename_i definition hdefinition
      have hidentity : (definition.key, definition.version) = (key, version) :=
        get_identity hdefinition
      rw [(Prod.mk.inj hidentity).1, (Prod.mk.inj hidentity).2] at h
      dsimp only at h
      split at h
      · rename_i hbound
        obtain rfl := Except.ok.inj h
        refine ⟨⟨_, rfl⟩, ?_⟩
        obtain ⟨row, hrow, hid⟩ := List.any_eq_true.mp hbound
        have hsame : ((fun binding : ProjectWorkflowBinding => decide (binding.projectId = projectId))
            ∘ fun row => if row.projectId = projectId then ⟨projectId, key, version⟩ else row) =
              fun binding => decide (binding.projectId = projectId) := by
          funext row
          by_cases hrow : row.projectId = projectId
          · simp [hrow]
          · simp [hrow]
        unfold getBinding
        rw [if_pos hproject, List.find?_map, hsame]
        cases hfind : s.bindings.find? fun binding => decide (binding.projectId = projectId) with
        | none => exact absurd hid (List.find?_eq_none.mp hfind row hrow)
        | some found =>
          have hfound : found.projectId = projectId := by simpa using List.find?_some hfind
          simp [hfound, hstrip]
      · rename_i hfree
        obtain ⟨created, hcreated, h⟩ := bind_ok h
        obtain rfl := Except.ok.inj h
        refine ⟨⟨_, rfl⟩, ?_⟩
        have hcreated := ok_of_mapError hcreated
        unfold ProjectWorkflowBinding.postInit at hcreated
        simp only [check_bind_eq_ok] at hcreated
        obtain rfl := Except.ok.inj hcreated.2.2
        have hnone : s.bindings.find? (fun row => decide (row.projectId = projectId)) = none := by
          rw [List.find?_eq_none]
          exact List.any_eq_false.mp (Bool.not_eq_true _ ▸ hfree)
        unfold getBinding
        rw [if_pos hproject, List.find?_append, hnone]
        simp [hstrip]

theorem planBinding_unchanged {bundle : OrchestrationBundle} {t : ControlPlane}
    {binding : BundleBinding} {record : ProjectRecord} (hproject : findProject bundle t = some record)
    (hbinding : getBinding t record.id =
      some ⟨record.id, binding.definitionKey, binding.definitionVersion⟩) :
    (planBinding bundle t binding).action = .unchanged := by
  unfold planBinding
  rw [hproject]
  dsimp only
  rw [hbinding]
  simp

/-! ## 3. Applying -/

section Apply

variable {env} {bundle : OrchestrationBundle} {s : ControlPlane} {plan : BundlePlan}

/-- The table of projects after the first step, and the project that the binding is made for. -/
def ProjectStep (env : Environment) (bundle : OrchestrationBundle) (s s' : ControlPlane)
    (project : Option ProjectRecord) : Prop :=
  (∃ payload record, bundle.project = some payload ∧ findProject bundle s = none ∧
      Registered env s payload record s' ∧ project = some record) ∨
    ((∀ payload ∈ bundle.project, findProject bundle s ≠ none) ∧ s' = s ∧
      project = findProject bundle s)

theorem projectStep (h : planBundle env.toSurroundings bundle s = .ok plan)
    {first second : Session} (hserver : first.server = s) {created project : Option ProjectRecord}
    (hcreated : createProject env plan bundle.project first = .ok created second)
    {third : Session} (hcurrent : currentProject bundle created second = .ok project third) :
    ProjectStep env bundle s third.server project := by
  subst hserver
  cases hbundle : bundle.project with
  | none =>
    rw [hbundle] at hcreated
    cases hcreated
    cases hcurrent
    exact Or.inr ⟨by simp [hbundle], rfl, rfl⟩
  | some payload =>
    rw [hbundle, createProject, actionOf_project h hbundle] at hcreated
    by_cases haction : (planProject bundle first.server payload).action = .create
    · have hfree : findProject bundle first.server = none := by
        have hnone := compareAction_create_iff.mp haction
        exact Option.map_eq_none_iff.mp hnone
      rw [haction, if_pos rfl] at hcreated
      obtain ⟨record, middle, hpost, hpure⟩ := client_bind_ok hcreated
      cases hpure
      cases hcurrent
      have hregistered := registerProject_ok env (send_ok env hpost)
      exact Or.inl ⟨payload, record, hbundle, hfree, hregistered, rfl⟩
    · have hfound : findProject bundle first.server ≠ none := by
        intro hnone
        apply haction
        apply compareAction_create_iff.mpr
        rw [hnone]
        rfl
      rw [if_neg (fun heq => haction (Option.some.inj heq))] at hcreated
      cases hcreated
      cases hcurrent
      exact Or.inr ⟨fun _ _ => hfound, rfl, rfl⟩

/-- The binding step writes what the bundle wants, unless the plan found nothing to update. -/
theorem applyBinding_ok (h : planBundle env.toSurroundings bundle s = .ok plan)
    {project : Option ProjectRecord} {first second : Session}
    (happly : applyBinding env plan project bundle.binding first = .ok () second) :
    (∃ bindings, second.server = { first.server with bindings := bindings }) ∧
      ∀ binding ∈ bundle.binding, ∃ record, project = some record ∧
        (((planBinding bundle s binding).action ≠ .update ∧ second.server = first.server) ∨
          getBinding second.server record.id =
            some ⟨record.id, binding.definitionKey, binding.definitionVersion⟩) := by
  cases hbinding : bundle.binding with
  | none =>
    rw [hbinding] at happly
    cases happly
    exact ⟨⟨_, rfl⟩, nofun⟩
  | some binding =>
    rw [hbinding] at happly
    cases project with
    | none => cases happly
    | some record =>
      rw [applyBinding, actionOf_binding h hbinding] at happly
      by_cases haction : (planBinding bundle s binding).action = .update
      · rw [haction, if_pos rfl] at happly
        obtain ⟨server, hconfigure, hserver⟩ := ok_of_map (send_ok env happly)
        rw [(Prod.mk.inj hserver).2] at hconfigure
        obtain ⟨hrest, hget⟩ := configureBinding_ok (bundle.binding_matches _ hbinding) hconfigure
        refine ⟨hrest, fun b hb => ⟨record, rfl, Or.inr ?_⟩⟩
        rw [← Option.some.inj hb]
        exact hget
      · rw [if_neg (fun heq => haction (Option.some.inj heq))] at happly
        cases happly
        refine ⟨⟨_, rfl⟩, fun b hb => ⟨record, rfl, Or.inl ⟨?_, rfl⟩⟩⟩
        rw [← Option.some.inj hb]
        exact haction

/-- What a bundle that was applied has done. -/
structure Applied (env : Environment) (bundle : OrchestrationBundle) (s : ControlPlane)
    (plan : BundlePlan) (t : ControlPlane) : Prop where
  planned : planBundle env.toSurroundings bundle s = .ok plan
  accepted : plan.hasConflicts = false
  skills : Grown skillCatalog (toCreate skillCatalog plan bundle.skills) s t
  models : Grown modelCatalog (toCreate modelCatalog plan bundle.models) s t
  phasePacks : Grown (phasePackCatalog env.toSurroundings)
    (toCreate (phasePackCatalog env.toSurroundings) plan bundle.phasePacks) s t
  workflows : Grown (workflowCatalog env.toSurroundings)
    (toCreate (workflowCatalog env.toSurroundings) plan bundle.workflows) s t
  project : ∃ s' project, ProjectStep env bundle s s' project ∧ t.projects = s'.projects ∧
    ∀ binding ∈ bundle.binding, ∃ record, project = some record ∧
      (((planBinding bundle s binding).action ≠ .update ∧ t.bindings = s'.bindings) ∨
        getBinding t record.id =
          some ⟨record.id, binding.definitionKey, binding.definitionVersion⟩)

theorem ProjectStep.catalogs {s' : ControlPlane} {project : Option ProjectRecord}
    (h : ProjectStep env bundle s s' project) : s' = { s with projects := s'.projects } := by
  rcases h with ⟨payload, record, -, -, hregistered, -⟩ | ⟨-, rfl, -⟩
  · rw [hregistered.server]
  · rfl

theorem applyBundle_ok {session : Session}
    (h : applyBundle env bundle ⟨s, []⟩ = .ok plan session) :
    Applied env bundle s plan session.server := by
  obtain ⟨server, middle, hread, h⟩ := client_bind_ok h
  cases hread
  obtain ⟨plan', middle, hplan, h⟩ := client_bind_ok h
  have hplanned : planBundle env.toSurroundings bundle s = .ok plan' ∧ middle = ⟨s, []⟩ := by
    unfold ofPlan at hplan
    cases hresult : planBundle env.toSurroundings bundle s with
    | error error =>
      rw [hresult] at hplan
      cases hplan
    | ok value =>
      rw [hresult] at hplan
      cases hplan
      exact ⟨rfl, rfl⟩
  obtain ⟨hplanned, rfl⟩ := hplanned
  by_cases hconflict : plan'.hasConflicts = true
  · rw [if_pos hconflict] at h
    cases h
  · rw [if_neg hconflict] at h
    obtain ⟨created, session₁, hcreated, h⟩ := client_bind_ok h
    obtain ⟨project, session₂, hcurrent, h⟩ := client_bind_ok h
    obtain ⟨_, session₃, hskills, h⟩ := client_bind_ok h
    obtain ⟨_, session₄, hmodels, h⟩ := client_bind_ok h
    obtain ⟨_, session₅, hpacks, h⟩ := client_bind_ok h
    obtain ⟨_, session₆, hworkflows, h⟩ := client_bind_ok h
    obtain ⟨_, session₇, hbinding, h⟩ := client_bind_ok h
    cases h
    have hstep := projectStep hplanned rfl hcreated hcurrent
    have hs := hstep.catalogs
    obtain ⟨gskills, rows₃, h₃⟩ := createAll_ok env skillCatalog_laws hskills
    obtain ⟨gmodels, rows₄, h₄⟩ := createAll_ok env modelCatalog_laws hmodels
    obtain ⟨gpacks, rows₅, h₅⟩ := createAll_ok env (phasePackCatalog_laws _) hpacks
    obtain ⟨gworkflows, rows₆, h₆⟩ := createAll_ok env (workflowCatalog_laws _) hworkflows
    obtain ⟨⟨bindings, h₇⟩, hbound⟩ := applyBinding_ok hplanned hbinding
    -- Every step leaves the rows of the other catalogs as they were.
    have hrows : session.server = { session₂.server with
        skills := rows₃, modelProfiles := rows₄, phasePacks := rows₅, workflows := rows₆,
        bindings := bindings } := by
      rw [h₇, h₆, h₅, h₄, h₃]
      rfl
    exact {
      planned := hplanned
      accepted := Bool.not_eq_true _ ▸ hconflict
      skills := gskills.congr (by rw [hs]; rfl) (by rw [hrows, h₃]; rfl)
      models := gmodels.congr (by rw [h₃, hs]; rfl) (by rw [hrows, h₄]; rfl)
      phasePacks := gpacks.congr (by rw [h₄, h₃, hs]; rfl) (by rw [hrows, h₅]; rfl)
      workflows := gworkflows.congr (by rw [h₅, h₄, h₃, hs]; rfl) (by rw [hrows, h₆]; rfl)
      project := by
        refine ⟨session₂.server, project, hstep, by rw [hrows], fun b hb => ?_⟩
        obtain ⟨record, hrecord, hdone⟩ := hbound b hb
        refine ⟨record, hrecord, ?_⟩
        rcases hdone with ⟨haction, hsame⟩ | hget
        · refine Or.inl ⟨haction, ?_⟩
          rw [hsame, h₆, h₅, h₄, h₃]
          rfl
        · exact Or.inr hget }

/-! ## 4. The next plan -/

/-- The plan of the bundle reports every item unchanged. -/
def Converged (env : Environment) (bundle : OrchestrationBundle) (t : ControlPlane) : Prop :=
  ∃ plan, planBundle env.toSurroundings bundle t = .ok plan ∧
    ∀ action ∈ plan.actions, action.action = .unchanged

theorem Applied.keeps_registered {t : ControlPlane} (h : Applied env bundle s plan t)
    {kind : CatalogKind} {identity : String × ℕ}
    (hs : isRegistered env.toSurroundings s kind identity = true) :
    isRegistered env.toSurroundings t kind identity = true := by
  cases kind with
  | skill =>
    obtain ⟨value, hvalue⟩ := Option.isSome_iff_exists.mp hs
    exact Option.isSome_iff_exists.mpr ⟨value, h.skills.stable _ _ hvalue⟩
  | model =>
    obtain ⟨value, hvalue⟩ := Option.isSome_iff_exists.mp hs
    exact Option.isSome_iff_exists.mpr ⟨value, h.models.stable _ _ hvalue⟩
  | phasePack =>
    obtain ⟨value, hvalue⟩ := Option.isSome_iff_exists.mp hs
    exact Option.isSome_iff_exists.mpr ⟨value, h.phasePacks.stable _ _ hvalue⟩
  | workflow =>
    obtain ⟨value, hvalue⟩ := Option.isSome_iff_exists.mp hs
    exact Option.isSome_iff_exists.mpr ⟨value, h.workflows.stable _ _ hvalue⟩

/-- The dependencies of a bundle that was applied are still registered. -/
theorem Applied.dependencies {t : ControlPlane} (h : Applied env bundle s plan t)
    {dependencies : List (CatalogKind × (String × ℕ))}
    (hdependencies : validateBundle env.toSurroundings bundle = .ok dependencies) :
    planDependencies env.toSurroundings t dependencies = [] := by
  obtain ⟨dependencies', hvalid, hmem⟩ := mem_planBundle h.planned
  rw [hvalid] at hdependencies
  obtain rfl := Except.ok.inj hdependencies
  unfold planDependencies
  rw [List.map_eq_nil_iff, List.filter_eq_nil_iff]
  intro dependency hdependency hmissing
  have hregistered : isRegistered env.toSurroundings s dependency.1 dependency.2 = true := by
    by_contra hne
    have hin : dependency ∈ dependencies'.filter fun d =>
        isRegistered env.toSurroundings s d.1 d.2 = false :=
      List.mem_filter.mpr ⟨hdependency, decide_eq_true (Bool.not_eq_true _ ▸ hne)⟩
    have hconflict : _ ∈ planDependencies env.toSurroundings s dependencies' :=
      List.mem_map_of_mem hin
    have haction := (hmem _).mpr (Or.inr (Or.inr (Or.inl hconflict)))
    exact absurd (decide_eq_true rfl) (List.any_eq_false.mp h.accepted _ haction)
  rw [h.keeps_registered hregistered] at hmissing
  simp at hmissing

theorem Applied.converged_iff {t : ControlPlane} (h : Applied env bundle s plan t) :
    Converged env bundle t ↔
      (∀ project ∈ bundle.project, (planProject bundle t project).action = .unchanged) ∧
        (∀ kind, ∀ action ∈ planOfKind env bundle t kind, action.action = .unchanged) ∧
        ∀ binding ∈ bundle.binding, (planBinding bundle t binding).action = .unchanged := by
  obtain ⟨dependencies, hvalid, -⟩ := mem_planBundle h.planned
  have hplan : ∃ plan', planBundle env.toSurroundings bundle t = .ok plan' := by
    unfold planBundle
    rw [hvalid]
    exact ⟨_, rfl⟩
  obtain ⟨plan', hplan'⟩ := hplan
  obtain ⟨dependencies', hvalid', hmem⟩ := mem_planBundle hplan'
  have hnone := h.dependencies hvalid'
  constructor
  · rintro ⟨plan'', hplan'', hall⟩
    rw [hplan'] at hplan''
    obtain rfl := Except.ok.inj hplan''
    refine ⟨fun project hproject => ?_, fun kind action haction => ?_, fun binding hbinding => ?_⟩
    · exact hall _ ((hmem _).mpr (Or.inl ⟨project, hproject, rfl⟩))
    · exact hall _ ((hmem _).mpr (Or.inr (Or.inl ⟨kind, haction⟩)))
    · exact hall _ ((hmem _).mpr (Or.inr (Or.inr (Or.inr ⟨binding, hbinding, rfl⟩))))
  · rintro ⟨hproject, hkinds, hbinding⟩
    refine ⟨plan', hplan', fun action haction => ?_⟩
    rcases (hmem action).mp haction with ⟨project, hp, rfl⟩ | ⟨kind, hkind⟩ | hdependency |
      ⟨binding, hb, rfl⟩
    · exact hproject project hp
    · exact hkinds kind action hkind
    · rw [hnone] at hdependency
      cases hdependency
    · exact hbinding binding hb

/-- What an apply creates is reported unchanged: the project is trimmed and still listed, costs are
written in the normal form their columns keep, and capability lists are sorted sets. -/
def CreatedCanonical (env : Environment) (bundle : OrchestrationBundle) (s : ControlPlane) : Prop :=
  (∀ project ∈ bundle.project, findProject bundle s = none →
      Trimmed project ∧ ListedFirst env s) ∧
    (∀ model ∈ bundle.models, modelCatalog.get s (model.key, model.version) = none →
      ModelCanonical model) ∧
    ∀ workflow ∈ bundle.workflows,
      (workflowCatalog env.toSurroundings).get s (workflow.key, workflow.version) = none →
        WorkflowCanonical workflow

theorem Applied.catalogs_iff {t : ControlPlane} (h : Applied env bundle s plan t) :
    (∀ kind, ∀ action ∈ planOfKind env bundle t kind, action.action = .unchanged) ↔
      (∀ model ∈ bundle.models, modelCatalog.get s (model.key, model.version) = none →
        ModelCanonical model) ∧
      ∀ workflow ∈ bundle.workflows,
        (workflowCatalog env.toSurroundings).get s (workflow.key, workflow.version) = none →
          WorkflowCanonical workflow := by
  have hskills := planCatalog_unchanged_iff skillCatalog_laws (planned_skills h.planned) h.skills
    h.accepted
  have hmodels := planCatalog_unchanged_iff modelCatalog_laws (planned_models h.planned) h.models
    h.accepted
  have hpacks := planCatalog_unchanged_iff (phasePackCatalog_laws _) (planned_phasePacks h.planned)
    h.phasePacks h.accepted
  have hworkflows := planCatalog_unchanged_iff (workflowCatalog_laws _)
    (planned_workflows h.planned) h.workflows h.accepted
  constructor
  · intro hall
    exact ⟨hmodels.mp (hall .model), hworkflows.mp (hall .workflow)⟩
  · rintro ⟨hm, hw⟩ kind
    cases kind with
    | skill => exact hskills.mpr fun _ _ _ => trivial
    | model => exact hmodels.mpr hm
    | phasePack => exact hpacks.mpr fun _ _ _ => trivial
    | workflow => exact hworkflows.mpr hw

/-- A project that was there already is unchanged, one that was created where it is canonical. -/
theorem Applied.project_iff {t : ControlPlane} (h : Applied env bundle s plan t)
    (hurls : UrlTexts env.toSurroundings)
    (hurl : ∀ project ∈ bundle.project, ∃ source, env.httpUrl source = some project.repositoryUrl) :
    (∀ project ∈ bundle.project, (planProject bundle t project).action = .unchanged) ↔
      ∀ project ∈ bundle.project, findProject bundle s = none →
        Trimmed project ∧ ListedFirst env s := by
  apply forall₂_congr
  intro project hproject
  have hbundle : bundle.project = some project := hproject
  obtain ⟨s', _, hstep, hprojects, -⟩ := h.project
  have hpage : findProject bundle t = findProject bundle s' := by
    unfold findProject projectsPage
    rw [hprojects]
  unfold planProject
  rw [compareAction_unchanged_iff, hpage]
  rcases hstep with ⟨payload, record, hpayload, hfree, hregistered, -⟩ | ⟨hfound, hsame, -⟩
  · rw [hbundle] at hpayload
    obtain rfl := Option.some.inj hpayload
    rw [hregistered.unchanged_iff hurls (hurl _ hproject) hbundle hfree]
    exact ⟨fun hcanonical _ => hcanonical, fun hcanonical => hcanonical hfree⟩
  · have hne := hfound project hproject
    obtain ⟨record, hrecord⟩ := Option.ne_none_iff_exists'.mp hne
    obtain ⟨dependencies, -, hmem⟩ := mem_planBundle h.planned
    have haction := (hmem _).mpr (Or.inl ⟨project, hproject, rfl⟩)
    have hfine := List.any_eq_false.mp h.accepted _ haction
    have hcontains : (projectResponse record).contains project = true := by
      by_contra hnot
      apply hfine
      simp [planProject, compareAction, hrecord, hnot]
    rw [hsame, hrecord]
    constructor
    · intro _ hnone
      cases hnone
    · intro _
      exact ⟨_, rfl, hcontains⟩

theorem Applied.binding_unchanged {t : ControlPlane} (h : Applied env bundle s plan t)
    (hcanonical : ∀ project ∈ bundle.project, findProject bundle s = none →
      Trimmed project ∧ ListedFirst env s) {binding : BundleBinding}
    (hbinding : binding ∈ bundle.binding) :
    (planBinding bundle t binding).action = .unchanged := by
  obtain ⟨s', project, hstep, hprojects, hbound⟩ := h.project
  obtain ⟨record, rfl, hdone⟩ := hbound binding hbinding
  have hpage : findProject bundle t = findProject bundle s' := by
    unfold findProject projectsPage
    rw [hprojects]
  rcases hstep with ⟨payload, created, hpayload, hfree, hregistered, hproject⟩ |
    ⟨hfound, rfl, hproject⟩
  · obtain rfl := Option.some.inj hproject
    obtain ⟨htrimmed, hlisted⟩ := hcanonical payload hpayload hfree
    have hfind := (hregistered.findProject_iff hpayload hfree).mpr ⟨rfl, htrimmed.1, hlisted⟩
    rcases hdone with ⟨haction, -⟩ | hget
    · -- The plan of a bundle with a new project always configures the binding.
      exfalso
      apply haction
      unfold planBinding
      rw [hfree]
      simp [hpayload]
    · exact planBinding_unchanged (hpage.trans hfind) hget
  · rcases hdone with ⟨haction, hbindings⟩ | hget
    · have hsame : planBinding bundle t binding = planBinding bundle s' binding := by
        unfold planBinding getBinding
        rw [hpage, hprojects, hbindings]
      rw [hsame]
      unfold planBinding at haction ⊢
      rw [← hproject] at haction ⊢
      dsimp only at haction ⊢
      split
      · rfl
      · rename_i hdiffers
        rw [if_neg hdiffers] at haction
        exact absurd rfl haction
    · exact planBinding_unchanged (hpage.trans hproject.symm) hget

end Apply

variable {env}

/-- A bundle with a conflict is not written at all; after a bundle was applied its plan reports
every item unchanged exactly where what was created is canonical. -/
theorem apply_converges_iff {bundle : OrchestrationBundle} {s : ControlPlane}
    (hurls : UrlTexts env.toSurroundings)
    (hurl : ∀ project ∈ bundle.project, ∃ source, env.httpUrl source = some project.repositoryUrl) :
    (∀ plan, planBundle env.toSurroundings bundle s = .ok plan → plan.hasConflicts = true →
      ∃ error, applyBundle env bundle ⟨s, []⟩ = .error error ⟨s, []⟩) ∧
    ∀ plan session, applyBundle env bundle ⟨s, []⟩ = .ok plan session →
      (Converged env bundle session.server ↔ CreatedCanonical env bundle s) := by
  constructor
  · intro plan hplan hconflict
    refine ⟨.conflicts ((plan.actions.filter fun action => action.action = .conflict).map
      fun action => action.resource.identity), ?_⟩
    have hread : ofPlan (planBundle env.toSurroundings bundle s) ⟨s, []⟩ = .ok plan ⟨s, []⟩ := by
      rw [hplan]
      rfl
    have hserver : readServer ⟨s, []⟩ = .ok s ⟨s, []⟩ := rfl
    rw [applyBundle, client_bind_of_ok _ hserver, client_bind_of_ok _ hread, if_pos hconflict]
    rfl
  · intro plan session h
    have happlied := applyBundle_ok h
    rw [happlied.converged_iff, happlied.project_iff hurls hurl, happlied.catalogs_iff]
    constructor
    · rintro ⟨hproject, hcatalogs, -⟩
      exact ⟨hproject, hcatalogs.1, hcatalogs.2⟩
    · rintro ⟨hproject, hmodels, hworkflows⟩
      refine ⟨hproject, ⟨hmodels, hworkflows⟩, fun binding hbinding => ?_⟩
      exact happlied.binding_unchanged hproject hbinding

/-! ## 5. Two bundles -/

/-- A control plane that refuses nothing; one URL is known. -/
def openEnvironment : Environment where
  httpUrl source := if source = "https://example.com/alpha.git" then some source else none
  checkSchema _ := .ok ()
  refuses _ := false
  projectId := 1
  now := 0

def alphaProject : ProjectCreate where
  key := "alpha"
  name := "Alpha"
  repositoryUrl := "https://example.com/alpha.git"
  defaultBranch := "develop"

def plannerModel (inputCost outputCost : Numeral) : ModelProfileCreate where
  key := "planner"
  version := 1
  name := "Planner"
  provider := "acp"
  modelId := "planner"
  tier := .balanced
  contextWindow := 128000
  inputCostPerMillion := inputCost
  outputCostPerMillion := outputCost

/-- Costs of 0.15 and 2.5 dollars. -/
def alphaBundle : OrchestrationBundle where
  project := some alphaProject
  models := [plannerModel ⟨false, 15, -2⟩ ⟨false, 25, -1⟩]

/-- Costs of 2.5 and 10 dollars; ten is normalized to `1E+1`. -/
def roundBundle : OrchestrationBundle where
  models := [plannerModel ⟨false, 25, -1⟩ ⟨false, 10, 0⟩]

/-- The plan that is made after an apply that succeeded. -/
def nextPlan (env : Environment) (bundle : OrchestrationBundle) (s : ControlPlane) :
    Option (Except BundleError BundlePlan) :=
  match applyBundle env bundle ⟨s, []⟩ with
  | .ok _ session => some (planBundle env.toSurroundings bundle session.server)
  | .error _ _ => none

theorem of_nextPlan {bundle : OrchestrationBundle} {s : ControlPlane}
    {next : Except BundleError BundlePlan} (h : nextPlan env bundle s = some next) :
    ∃ plan session, applyBundle env bundle ⟨s, []⟩ = .ok plan session ∧
      planBundle env.toSurroundings bundle session.server = next := by
  unfold nextPlan at h
  cases happly : applyBundle env bundle ⟨s, []⟩ with
  | ok plan session =>
    rw [happly] at h
    exact ⟨plan, session, rfl, Option.some.inj h⟩
  | error error session =>
    rw [happly] at h
    cases h

/-- The bundle is applied to an empty control plane and its next plan is a conflict. -/
theorem round_cost_conflicts :
    ∃ plan session, applyBundle openEnvironment roundBundle ⟨{}, []⟩ = .ok plan session ∧
      ¬Converged openEnvironment roundBundle session.server := by
  have hnext : nextPlan openEnvironment roundBundle {} = some (.ok ⟨[⟨.catalog .model ("planner", 1),
      .conflict, some "the immutable identity already exists with different content"⟩], []⟩) := by
    decide +kernel
  obtain ⟨plan, session, happly, hplan⟩ := of_nextPlan hnext
  refine ⟨plan, session, happly, ?_⟩
  rintro ⟨plan', hplan', hall⟩
  rw [hplan] at hplan'
  obtain rfl := Except.ok.inj hplan'
  exact absurd (hall _ List.mem_cons_self) (by decide)

theorem apply_converges_iff_alpha :
    ∃ plan session, applyBundle openEnvironment alphaBundle ⟨{}, []⟩ = .ok plan session ∧
      Converged openEnvironment alphaBundle session.server := by
  have hurls : UrlTexts openEnvironment.toSurroundings := by
    intro source url h
    have hsource : source = "https://example.com/alpha.git" ∧ source = url := by
      simpa [openEnvironment] using h
    obtain ⟨rfl, rfl⟩ := hsource
    exact ⟨h, by decide +kernel⟩
  have hurl : ∀ project ∈ alphaBundle.project,
      ∃ source, openEnvironment.httpUrl source = some project.repositoryUrl := by
    intro project hproject
    obtain rfl := Option.some.inj hproject
    exact ⟨"https://example.com/alpha.git", by decide +kernel⟩
  have hsucceeds : (nextPlan openEnvironment alphaBundle {}).isSome = true := by decide +kernel
  obtain ⟨next, hnext⟩ := Option.isSome_iff_exists.mp hsucceeds
  obtain ⟨plan, session, happly, -⟩ := of_nextPlan hnext
  refine ⟨plan, session, happly, ((apply_converges_iff hurls hurl).2 plan session happly).mpr ?_⟩
  refine ⟨?_, ?_, nofun⟩
  · intro project hproject _
    obtain rfl := Option.some.inj hproject
    have hlisted : ListedFirst openEnvironment {} := by
      rw [ListedFirst, List.filter_nil, List.length_nil]
      decide
    exact ⟨⟨by decide +kernel, by decide +kernel, by decide +kernel⟩, hlisted⟩
  · intro model hmodel _
    rw [List.mem_singleton.mp hmodel]
    refine ⟨⟨by decide, rfl, by decide⟩, ⟨by decide, rfl, by decide⟩, ?_, ?_⟩
    · exact List.Pairwise.nil
    · exact List.Pairwise.nil

end JbOrchestrator.Cli
