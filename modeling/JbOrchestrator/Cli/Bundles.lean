import JbOrchestrator.Api.Catalogs

/-!
# Bundles — planning and applying a declarative bundle

The functions of `cli/bundles.py` over the control plane.  The client runs in a state that an error
keeps: the control plane as the requests so far have left it and the writes that were sent.  A write
may be refused for a reason the model does not know (an outage, a column that is too small);
`refuses` says which ones are.
-/

open Lib

namespace JbOrchestrator.Cli

open Workflows WorkerPresence Api

/-! ## 1. Bundles -/

structure BundleBinding where
  projectKey : String
  definitionKey : String
  definitionVersion : ℕ
  deriving DecidableEq, Repr

/-- A bundle that `model_validate` accepted: the pattern of the binding and the checks of
`identities_are_unique` hold. -/
structure OrchestrationBundle where
  project : Option ProjectCreate := none
  skills : List SkillCreate := []
  models : List ModelProfileCreate := []
  phasePacks : List PhasePackCreate := []
  workflows : List WorkflowDefinitionCreate := []
  binding : Option BundleBinding := none
  skills_unique : (skills.map fun value => (value.key, value.version)).Nodup := by decide
  models_unique : (models.map fun value => (value.key, value.version)).Nodup := by decide
  phasePacks_unique : (phasePacks.map fun value => (value.key, value.version)).Nodup := by decide
  workflows_unique : (workflows.map fun value => (value.key, value.version)).Nodup := by decide
  binding_matches : ∀ b ∈ binding, matchesCatalogKey b.definitionKey = true := by simp
  project_matches : ∀ b ∈ binding, ∀ p ∈ project, b.projectKey = p.key := by simp

inductive BundleActionKind where
  | create | update | unchanged | conflict
  deriving DecidableEq, Repr

/-- The pair of resource and identity that names an action. -/
inductive BundleResource where
  | project (key : String)
  | catalog (kind : CatalogKind) (identity : String × ℕ)
  | dependency (kind : CatalogKind) (identity : String × ℕ)
  | binding (projectKey : String)
  deriving DecidableEq, Repr

def BundleResource.identity : BundleResource → String
  | .project key => key
  | .catalog _ identity => identityText identity
  | .dependency kind identity => kind.value ++ ":" ++ identityText identity
  | .binding projectKey => projectKey

structure BundleAction where
  resource : BundleResource
  action : BundleActionKind
  detail : Option String := none
  deriving DecidableEq, Repr

structure BundlePlan where
  actions : List BundleAction
  externalDependencies : List (CatalogKind × (String × ℕ))
  deriving DecidableEq, Repr

def BundlePlan.hasConflicts (plan : BundlePlan) : Bool :=
  plan.actions.any fun action => action.action = .conflict

/-- `action_by_identity`: the last action of a resource. -/
def BundlePlan.actionOf (plan : BundlePlan) (resource : BundleResource) : Option BundleActionKind :=
  (plan.actions.reverse.find? fun action => action.resource = resource).map BundleAction.action

structure WriteRequest where
  method : String
  path : String
  deriving DecidableEq, Repr

inductive BundleError where
  | contract (message : String)
  | conflicts (identities : List String)
  | request (write : WriteRequest) (problem : ProblemDetail)
  | projectMissing (projectKey : String)
  deriving DecidableEq, Repr

def BundleError.message : BundleError → String
  | .contract message => "bundle contract is invalid: " ++ message
  | .conflicts identities =>
    "bundle has immutable conflicts; no changes applied: " ++ ", ".intercalate identities
  | .request write problem => write.method ++ " " ++ write.path ++ " failed: HTTP " ++
      toString problem.status ++ " " ++ problem.detail
  | .projectMissing projectKey => "bundle project does not exist: " ++ projectKey

/-! ## 2. Validation -/

section

variable (env : Surroundings)

/-- The constructors and checks that `validate_bundle` calls. -/
def checkContract (bundle : OrchestrationBundle) : Except String Unit := do
  forAll bundle.project.toList fun project => (fun _ => ()) <$> project.postInit
  forAll bundle.skills fun skill => (fun _ => ()) <$> skill.postInit
  forAll bundle.models fun model => (fun _ => ()) <$> model.postInit
  forAll bundle.phasePacks fun pack => do
    checkOutputContractSchema env pack.outputContract
    (fun _ => ()) <$> pack.postInit
  forAll bundle.workflows fun workflow => do
    let _ ← workflow.postInit
    forAll workflow.nodes fun node =>
      forAll (node.phasePack.toList.filterMap fun reference =>
        bundle.phasePacks.find? fun pack => pack.reference = reference) (checkPhaseInputs node)

/-- The references of a bundle that it does not hold itself. -/
def externalReferences (bundle : OrchestrationBundle) : List (CatalogKind × (String × ℕ)) :=
  let skillReferences := bundle.phasePacks.flatMap (fun pack => pack.skills) ++
    bundle.workflows.flatMap fun workflow => workflow.nodes.flatMap WorkflowNodePayload.skills
  let packReferences := bundle.workflows.flatMap fun workflow =>
    workflow.nodes.filterMap WorkflowNodePayload.phasePack
  let workflowReferences := bundle.binding.toList.map fun binding =>
    (binding.definitionKey, binding.definitionVersion)
  let skills := skillReferences.map fun reference => (reference.key, reference.version)
  let packs := packReferences.map fun reference => (reference.key, reference.version)
  ((skills.filter fun identity =>
      identity ∉ bundle.skills.map fun value => (value.key, value.version)).map (.skill, ·)) ++
  ((packs.filter fun identity =>
      identity ∉ bundle.phasePacks.map fun value => (value.key, value.version)).map
        (.phasePack, ·)) ++
  ((workflowReferences.filter fun identity =>
      identity ∉ bundle.workflows.map fun value => (value.key, value.version)).map (.workflow, ·))

/-- `validate_bundle`; the dependencies are a set that is sorted by its texts. -/
def validateBundle (bundle : OrchestrationBundle) :
    Except BundleError (List (CatalogKind × (String × ℕ))) := do
  (checkContract env bundle).mapError BundleError.contract
  pure ((externalReferences bundle).dedup.insertionSort fun a b =>
    (BundleResource.dependency a.1 a.2).identity ≤ (BundleResource.dependency b.1 b.2).identity)

/-! ## 3. Planning -/

/-- `_project_key`. -/
def OrchestrationBundle.projectKey (bundle : OrchestrationBundle) : Option String :=
  match bundle.project with
  | some project => some project.key
  | none => bundle.binding.map BundleBinding.projectKey

/-- The project of the bundle on the first page of the projects. -/
def findProject (bundle : OrchestrationBundle) (s : ControlPlane) : Option ProjectRecord :=
  bundle.projectKey.bind fun key => (projectsPage s).find? fun record => record.key = key

/-- `_compare_action`. -/
def compareAction {α : Type} (contains : α → α → Bool) (resource : BundleResource)
    (current : Option α) (expected : α) : BundleAction :=
  match current with
  | none => ⟨resource, .create, none⟩
  | some current =>
    if contains current expected then ⟨resource, .unchanged, none⟩
    else ⟨resource, .conflict,
      some "the immutable identity already exists with different content"⟩

/-- The name of a payload in a plan. -/
def catalogResource {α ρ : Type} (catalog : Catalog α ρ) (value : α) : BundleResource :=
  .catalog catalog.kind (catalog.identity value)

def planCatalog {α ρ : Type} (catalog : Catalog α ρ) (s : ControlPlane) (values : List α) :
    List BundleAction :=
  values.map fun value => compareAction catalog.contains (catalogResource catalog value)
    (catalog.get s (catalog.identity value)) value

/-- Whether the version a dependency names is registered; no dependency names a model. -/
def isRegistered (s : ControlPlane) : CatalogKind → String × ℕ → Bool
  | .skill, identity => (skillCatalog.get s identity).isSome
  | .model, identity => (modelCatalog.get s identity).isSome
  | .phasePack, identity => ((phasePackCatalog env).get s identity).isSome
  | .workflow, identity => ((workflowCatalog env).get s identity).isSome

def planDependencies (s : ControlPlane) (dependencies : List (CatalogKind × (String × ℕ))) :
    List BundleAction :=
  (dependencies.filter fun dependency => isRegistered env s dependency.1 dependency.2 = false).map
    fun dependency => ⟨.dependency dependency.1 dependency.2, .conflict,
      some "the referenced external version is not registered"⟩

def planBinding (bundle : OrchestrationBundle) (s : ControlPlane) (binding : BundleBinding) :
    BundleAction :=
  match findProject bundle s with
  | none =>
    if bundle.project = none then
      ⟨.binding binding.projectKey, .conflict,
        some "the target project is not registered or included in the bundle"⟩
    else
      ⟨.binding binding.projectKey, .update,
        some "configure after project and workflow creation"⟩
  | some project =>
    let current := getBinding s project.id
    if current.any fun current => current.definitionKey = binding.definitionKey ∧
        current.definitionVersion = binding.definitionVersion then
      ⟨.binding binding.projectKey, .unchanged, none⟩
    else ⟨.binding binding.projectKey, .update, none⟩

/-- `plan_bundle`. -/
def planBundle (bundle : OrchestrationBundle) (s : ControlPlane) :
    Except BundleError BundlePlan := do
  let dependencies ← validateBundle env bundle
  pure {
    actions :=
      (bundle.project.toList.map fun project => compareAction ProjectCreate.contains
        (.project project.key) ((findProject bundle s).map projectResponse) project) ++
      planCatalog skillCatalog s bundle.skills ++
      planCatalog modelCatalog s bundle.models ++
      planCatalog (phasePackCatalog env) s bundle.phasePacks ++
      planCatalog (workflowCatalog env) s bundle.workflows ++
      planDependencies env s dependencies ++
      bundle.binding.toList.map (planBinding bundle s)
    externalDependencies := dependencies }

end

/-! ## 4. Applying -/

/-- The state of the client: the control plane and the writes sent to it. -/
structure Session where
  server : ControlPlane
  writes : List WriteRequest := []

abbrev Client := EStateM BundleError Session

structure Environment extends Surroundings where
  /-- Whether the write with this number is refused for a reason of its own. -/
  refuses : ℕ → Bool
  /-- What `uuid4` and `datetime.now` give when the project is created. -/
  projectId : UUID
  now : Instant

variable (env : Environment)

/-- One `POST` or `PUT`. -/
def send {α : Type} (write : WriteRequest)
    (handler : ControlPlane → Except ProblemDetail (α × ControlPlane)) : Client α := fun session =>
  let sent := { session with writes := session.writes ++ [write] }
  if env.refuses session.writes.length then .error (.request write serverError) sent
  else
    match handler session.server with
    | .error problem => .error (.request write problem) sent
    | .ok (answer, server) => .ok answer { sent with server := server }

def readServer : Client ControlPlane := fun session => .ok session.server session

def ofPlan (plan : Except BundleError BundlePlan) : Client BundlePlan := fun session =>
  match plan with
  | .error error => .error error session
  | .ok plan => .ok plan session

def postProject (project : ProjectCreate) : Client ProjectRecord :=
  send env ⟨"POST", "/v1/projects"⟩ fun s =>
    registerProject env.toSurroundings s env.projectId env.now project

def catalogPath : CatalogKind → String
  | .skill => "/v1/skills"
  | .model => "/v1/models"
  | .phasePack => "/v1/phase-packs"
  | .workflow => "/v1/workflows"

def postCatalog {α ρ : Type} (catalog : Catalog α ρ) (value : α) : Client Unit :=
  send env ⟨"POST", catalogPath catalog.kind⟩ fun s =>
    (fun server => ((), server)) <$> catalog.register s value

def putBinding (projectId : UUID) (binding : BundleBinding) : Client Unit :=
  send env ⟨"PUT", "/v1/projects/" ++ toString projectId ++ "/workflow-binding"⟩ fun s =>
    (fun server => ((), server)) <$> configureBinding env.toSurroundings s projectId
      binding.definitionKey binding.definitionVersion

/-- The loop over the values of one catalog. -/
def createAll {α ρ : Type} (catalog : Catalog α ρ) (plan : BundlePlan) : List α → Client Unit
  | [] => pure ()
  | value :: values => do
    if plan.actionOf (catalogResource catalog value) = some .create then
      postCatalog env catalog value
    createAll catalog plan values

def createProject (plan : BundlePlan) : Option ProjectCreate → Client (Option ProjectRecord)
  | none => pure none
  | some project =>
    if plan.actionOf (.project project.key) = some .create then some <$> postProject env project
    else pure none

/-- The project that was just created, or else the one the list holds. -/
def currentProject (bundle : OrchestrationBundle) :
    Option ProjectRecord → Client (Option ProjectRecord)
  | some project => pure (some project)
  | none => do
    let server ← readServer
    pure (findProject bundle server)

def applyBinding (plan : BundlePlan) (project : Option ProjectRecord) :
    Option BundleBinding → Client Unit
  | none => pure ()
  | some binding =>
    match project with
    | none => throw (.projectMissing binding.projectKey)
    | some project =>
      if plan.actionOf (.binding binding.projectKey) = some .update then
        putBinding env project.id binding
      else pure ()

/-- `apply_bundle`. -/
def applyBundle (bundle : OrchestrationBundle) : Client BundlePlan := do
  let server ← readServer
  let plan ← ofPlan (planBundle env.toSurroundings bundle server)
  if plan.hasConflicts then
    throw (.conflicts ((plan.actions.filter fun action => action.action = .conflict).map
      fun action => action.resource.identity))
  else
    let created ← createProject env plan bundle.project
    let project ← currentProject bundle created
    createAll env skillCatalog plan bundle.skills
    createAll env modelCatalog plan bundle.models
    createAll env (phasePackCatalog env.toSurroundings) plan bundle.phasePacks
    createAll env (workflowCatalog env.toSurroundings) plan bundle.workflows
    applyBinding env plan project bundle.binding
    pure plan

end JbOrchestrator.Cli
