import JbOrchestrator.Api.Schemas
import JbOrchestrator.Application.Services
import JbOrchestrator.WorkerPresence.Monitor

/-!
# Catalogs — the control plane as the bundle client sees it

The constructors a payload goes through, what the tables keep of it and what the requests of the
bundle client do.  The four versioned catalogs differ in their constructors and rows only, so their
routes are one definition over a `Catalog`.  A row was checked when it was written; reading it back
through the constructor can only normalize it once more.
-/

open Lib

namespace JbOrchestrator.Api

open Domain Workflows WorkerPresence Application

/-! ## 1. Patterns -/

def isKeyChar (c : Char) : Bool := isKeyHead c || Text.isDigit c

/-- `^[a-z0-9][a-z0-9._-]*$`, the pattern of catalog keys, capabilities and executor keys. -/
def matchesCatalogKey (s : String) : Bool :=
  match s.toList with
  | [] => false
  | c :: cs => isKeyChar c && cs.all fun c => isKeyChar c || c = '.' || c = '_' || c = '-'

/-- `PROJECT_KEY_PATTERN`, `^[a-z][a-z0-9-]{1,62}[a-z0-9]$`. -/
def matchesProjectKey (s : String) : Bool :=
  match s.toList with
  | [] => false
  | c :: cs =>
    isKeyHead c && decide (2 ≤ cs.length) && decide (cs.length ≤ 63) &&
      (cs.all fun c => isKeyChar c || c = '-') && cs.getLast?.any isKeyChar

/-- `SHA256_PATTERN`, `^sha256:[0-9a-f]{64}$`. -/
def matchesDigest (s : String) : Bool :=
  let digest := s.toList.drop 7
  decide (s.toList.take 7 = "sha256:".toList) && decide (digest.length = 64) &&
    digest.all fun c => Text.isDigit c || (97 ≤ c.toNat && c.toNat ≤ 102)

/-! ## 2. Constructors -/

/-- `tuple(sorted(set(values)))`. -/
def sortedSet (values : List String) : List String := values.dedup.insertionSort (· ≤ ·)

/-- The digits of the default decimal context. -/
def contextPrecision : ℕ := 28

/-- `Decimal(str(value)).normalize()`. -/
def normalizedCost (cost : Numeral) : Numeral := cost.normalize contextPrecision

/-- `value < 0`, which is false of a negative zero. -/
def isBelowZero (cost : Numeral) : Bool := cost.negative && cost.coefficient ≠ 0

def ProjectCreate.stripped (payload : ProjectCreate) : ProjectCreate where
  key := Text.strip payload.key
  name := Text.strip payload.name
  repositoryUrl := Text.strip payload.repositoryUrl
  defaultBranch := Text.strip payload.defaultBranch

/-- `Project.__post_init__`. -/
def ProjectCreate.postInit (payload : ProjectCreate) : Except String ProjectCreate := do
  let project := payload.stripped
  raiseIf (matchesProjectKey project.key = false)
    "project key must be 3-64 lowercase letters, digits, or hyphens"
  raiseIf (project.name = "") "project name must not be empty"
  raiseIf (project.repositoryUrl = "") "repository URL must not be empty"
  raiseIf (project.defaultBranch = "") "default branch must not be empty"
  pure project

/-- The loop over the labelled fields that must not be blank. -/
def notBlank (noun : String) (fields : List (String × String)) : Except String Unit :=
  forAll fields fun field =>
    raiseIf (Text.isBlank field.2) (noun ++ " " ++ field.1 ++ " must not be empty")

def skillReferencePostInit (reference : SkillReference) : Except String Unit := do
  raiseIf (matchesCatalogKey reference.key = false) "skill reference key is invalid"
  raiseIf (reference.version < 1) "skill reference version must be greater than zero"

def phasePackReferencePostInit (reference : PhasePackReference) : Except String Unit := do
  raiseIf (matchesCatalogKey reference.key = false) "phase pack reference key is invalid"
  raiseIf (reference.version < 1) "phase pack reference version must be greater than zero"

/-- `SkillDefinition.__post_init__`. -/
def SkillCreate.postInit (skill : SkillCreate) : Except String SkillCreate := do
  notBlank "skill" [("key", skill.key), ("name", skill.name), ("description", skill.description),
    ("source_uri", skill.sourceUri), ("entrypoint", skill.entrypoint)]
  raiseIf (skill.version < 1) "skill version must be greater than zero"
  raiseIf (matchesCatalogKey skill.key = false)
    "skill key must contain only lowercase letters, digits, dot, underscore, or hyphen"
  raiseIf (matchesDigest skill.contentDigest = false)
    "skill content_digest must be sha256:<64 lowercase hex>"
  raiseIf (skill.sourceKind = .git ∧ skill.sourceRevision.all Text.isBlank)
    "git skill source_revision must not be empty"
  raiseIf (skill.entrypoint.toList.head? = some '/' ∨ '\\' ∈ skill.entrypoint.toList ∨
      ".." ∈ skill.entrypoint.splitOn "/")
    "skill entrypoint must be a safe relative POSIX path"
  pure skill

def ModelProfileCreate.normalized (model : ModelProfileCreate) : ModelProfileCreate :=
  { model with
    inputCostPerMillion := normalizedCost model.inputCostPerMillion
    outputCostPerMillion := normalizedCost model.outputCostPerMillion
    capabilities := sortedSet model.capabilities
    executorKeys := sortedSet model.executorKeys }

/-- `ModelProfile.__post_init__`. -/
def ModelProfileCreate.postInit (model : ModelProfileCreate) :
    Except String ModelProfileCreate := do
  let profile := model.normalized
  notBlank "model profile" [("key", model.key), ("name", model.name), ("provider", model.provider),
    ("model_id", model.modelId)]
  raiseIf (matchesCatalogKey model.key = false) "model profile key is invalid"
  raiseIf (model.version < 1) "model profile version must be greater than zero"
  raiseIf (model.contextWindow < 1) "model context_window must be greater than zero"
  raiseIf (isBelowZero profile.inputCostPerMillion ∨ isBelowZero profile.outputCostPerMillion)
    "model token costs must not be negative"
  raiseIf (profile.capabilities.all matchesCatalogKey = false)
    "model capabilities contain an invalid key"
  raiseIf (profile.executorKeys.all matchesCatalogKey = false)
    "model executor_keys contain an invalid key"
  pure profile

/-- `PhaseInputDefinition.__post_init__`. -/
def phaseInputPostInit (input : PhaseInputDefinition) : Except String Unit := do
  raiseIf (matchesInputKey input.key = false) "phase input key must be lower snake_case"
  raiseIf (Text.isBlank input.description) "phase input description must not be empty"

/-- `PhasePackDefinition.__post_init__`, behind the constructors of its parts. -/
def PhasePackCreate.postInit (pack : PhasePackCreate) : Except String PhasePackCreate := do
  forAll pack.inputs phaseInputPostInit
  forAll pack.skills skillReferencePostInit
  raiseIf (matchesCatalogKey pack.key = false) "phase pack key is invalid"
  raiseIf (pack.version < 1) "phase pack version must be greater than zero"
  notBlank "phase pack" [("name", pack.name), ("description", pack.description),
    ("instructions", pack.instructions)]
  raiseIf (¬(pack.inputs.map PhaseInputDefinition.key).Nodup) "phase pack input keys must be unique"
  raiseIf (¬pack.skills.Nodup) "phase pack skill references must be unique"
  pure pack

mutual

/-- Some `$ref` or `$dynamicRef` in the value does not start with `#`. -/
def hasExternalReference : Json → Bool
  | .scalar _ => false
  | .list items => hasExternalReferenceItems items
  | .dict entries => hasExternalReferenceEntries entries

def hasExternalReferenceItems : List Json → Bool
  | [] => false
  | value :: rest => hasExternalReference value || hasExternalReferenceItems rest

def hasExternalReferenceEntries : JsonObject → Bool
  | [] => false
  | (key, value) :: rest =>
    (decide (key = "$ref" ∨ key = "$dynamicRef") &&
      match value with
      | .scalar (.str reference) => decide (reference.toList.head? ≠ some '#')
      | _ => false) ||
    hasExternalReference value || hasExternalReferenceEntries rest

end

def ModelRoutingPayload.normalized (routing : ModelRoutingPayload) : ModelRoutingPayload :=
  { routing with
    requiredCapabilities := sortedSet routing.requiredCapabilities
    maxCostUsd := routing.maxCostUsd.map normalizedCost }

/-- `ModelRoutingRequest.__post_init__`. -/
def ModelRoutingPayload.postInit (routing : ModelRoutingPayload) : Except String Unit := do
  let request := routing.normalized
  raiseIf (request.requiredCapabilities.all matchesCatalogKey = false)
    "routing capabilities contain an invalid key"
  raiseIf (routing.maxOutputTokens < 1) "max_output_tokens must be greater than zero"
  raiseIf (request.maxCostUsd.any isBelowZero) "max_cost_usd must not be negative"

def ModelRoutingPayload.request (routing : ModelRoutingPayload) : ModelRoutingRequest where
  complexity := routing.complexity
  risk := routing.risk
  quality := routing.quality
  requiredCapabilities := routing.requiredCapabilities
  estimatedInputTokens := routing.estimatedInputTokens
  maxOutputTokens := routing.maxOutputTokens
  maxCostUsd := routing.maxCostUsd.map Numeral.value

def WorkflowNodePayload.normalized (node : WorkflowNodePayload) : WorkflowNodePayload :=
  { node with modelRouting := node.modelRouting.map ModelRoutingPayload.normalized }

def WorkflowNodePayload.definition (node : WorkflowNodePayload) : NodeDefinition where
  key := node.key
  kind := node.kind
  maxAttempts := node.maxAttempts
  maxVisits := node.maxVisits
  timeoutSeconds := node.timeoutSeconds
  terminalStatus := node.terminalStatus
  executorKey := node.executorKey
  instructions := node.instructions
  configuration := node.configuration
  skills := node.skills
  modelRouting := node.modelRouting.map ModelRoutingPayload.request
  phasePack := node.phasePack
  inputMappings := node.inputMappings

def WorkflowDefinitionCreate.normalized (workflow : WorkflowDefinitionCreate) :
    WorkflowDefinitionCreate :=
  { workflow with nodes := workflow.nodes.map WorkflowNodePayload.normalized }

def WorkflowDefinitionCreate.definition (workflow : WorkflowDefinitionCreate) :
    WorkflowDefinition where
  entryNode := workflow.entryNode
  nodes := workflow.nodes.map WorkflowNodePayload.definition
  edges := workflow.edges
  key := workflow.key
  version := workflow.version

/-- The constructors `workflow_definition_from_payload` calls, node parts first. -/
def WorkflowDefinitionCreate.postInit (workflow : WorkflowDefinitionCreate) :
    Except String WorkflowDefinitionCreate := do
  let definition := workflow.normalized
  forAll workflow.nodes fun node => forAll node.skills skillReferencePostInit
  forAll workflow.nodes fun node => forAll node.modelRouting.toList ModelRoutingPayload.postInit
  forAll workflow.nodes fun node => forAll node.phasePack.toList phasePackReferencePostInit
  definition.definition.construct.mapError WorkflowDefinitionError.message
  pure definition

/-- The check of the input mappings of a node against the inputs its phase pack declares. -/
def checkPhaseInputs (node : WorkflowNodePayload) (pack : PhasePackCreate) :
    Except String Unit := do
  let mapped := node.inputMappings.map NodeInputMapping.inputKey
  raiseIf (¬mapped ⊆ pack.inputs.map PhaseInputDefinition.key)
    ("node " ++ node.key ++ " maps an undeclared input from " ++ pack.key)
  let missing := (pack.inputs.filter fun input =>
    input.required && decide (input.key ∉ mapped)).map PhaseInputDefinition.key
  raiseIf (missing ≠ []) ("node " ++ node.key ++ " is missing required phase inputs: " ++
    ", ".intercalate (missing.insertionSort (· ≤ ·)))

/-! ## 3. Tables -/

/-- A row of `model_profiles`; its costs are in millionths, the last place of `Numeric(18, 6)`. -/
structure ModelProfileRecord where
  key : String
  version : ℕ
  name : String
  provider : String
  modelId : String
  tier : ModelTier
  contextWindow : ℕ
  inputCostPerMillion : ℕ
  outputCostPerMillion : ℕ
  enabled : Bool
  capabilities : List String
  executorKeys : List String
  metadata : JsonObject

/-- The columns of `project_workflow_bindings` a bundle compares. -/
structure ProjectWorkflowBinding where
  projectId : UUID
  definitionKey : String
  definitionVersion : ℕ
  deriving DecidableEq, Repr

structure ControlPlane where
  projects : List ProjectRecord := []
  skills : List SkillCreate := []
  modelProfiles : List ModelProfileRecord := []
  phasePacks : List PhasePackCreate := []
  workflows : List WorkflowDefinitionCreate := []
  bindings : List ProjectWorkflowBinding := []

/-- The row `add` writes; a cost that does not fit its column is refused. -/
def ModelProfileCreate.toRecord (profile : ModelProfileCreate) : Option ModelProfileRecord := do
  let inputCost ← profile.inputCostPerMillion.toColumn 18 6
  let outputCost ← profile.outputCostPerMillion.toColumn 18 6
  pure {
    key := profile.key
    version := profile.version
    name := profile.name
    provider := profile.provider
    modelId := profile.modelId
    tier := profile.tier
    contextWindow := profile.contextWindow
    inputCostPerMillion := inputCost
    outputCostPerMillion := outputCost
    enabled := profile.enabled
    capabilities := profile.capabilities
    executorKeys := profile.executorKeys
    metadata := profile.metadata }

def profileFromRecord (record : ModelProfileRecord) : ModelProfileCreate :=
  ModelProfileCreate.normalized {
    key := record.key
    version := record.version
    name := record.name
    provider := record.provider
    modelId := record.modelId
    tier := record.tier
    contextWindow := record.contextWindow
    inputCostPerMillion := .ofColumn 6 record.inputCostPerMillion
    outputCostPerMillion := .ofColumn 6 record.outputCostPerMillion
    enabled := record.enabled
    capabilities := record.capabilities
    executorKeys := record.executorKeys
    metadata := record.metadata }

/-! ## 4. The versioned catalogs -/

structure ProblemDetail where
  status : ℕ
  detail : String
  deriving DecidableEq, Repr

def invalid (message : String) : ProblemDetail := ⟨422, message⟩

def serverError : ProblemDetail := ⟨500, "Internal Server Error"⟩

inductive CatalogKind where
  | skill | model | phasePack | workflow
  deriving DecidableEq, Repr

def CatalogKind.value : CatalogKind → String
  | .skill => "skill"
  | .model => "model"
  | .phasePack => "phase_pack"
  | .workflow => "workflow"

def identityText (identity : String × ℕ) : String := identity.1 ++ "@" ++ toString identity.2

/-- One versioned catalog: where its rows are, how a payload becomes a row, what a row reads as and
when an answer holds what a payload expects. -/
structure Catalog (α ρ : Type) where
  kind : CatalogKind
  noun : String
  identity : α → String × ℕ
  rows : ControlPlane → List ρ
  setRows : ControlPlane → List ρ → ControlPlane
  postInit : α → Except String α
  require : ControlPlane → α → Except ProblemDetail Unit
  toRecord : α → Option ρ
  fromRecord : ρ → α
  contains : α → α → Bool

namespace Catalog

variable {α ρ : Type} (catalog : Catalog α ρ)

/-- `GET /v1/…/{key}?version=…`; `none` is the answer 404. -/
def get (s : ControlPlane) (identity : String × ℕ) : Option α :=
  ((catalog.rows s).map catalog.fromRecord).find? fun value => catalog.identity value = identity

/-- `POST /v1/…`. -/
def register (s : ControlPlane) (payload : α) : Except ProblemDetail ControlPlane := do
  let value ← (catalog.postInit payload).mapError invalid
  if (catalog.get s (catalog.identity value)).isSome then
    .error ⟨409, catalog.noun ++ " already exists: " ++ identityText (catalog.identity value)⟩
  else do
    catalog.require s value
    match catalog.toRecord value with
    | none => .error serverError
    | some record => .ok (catalog.setRows s (catalog.rows s ++ [record]))

/-- The first of the references that is not registered. -/
def requireAll (s : ControlPlane) (noun : String) (references : List (String × ℕ)) :
    Except ProblemDetail Unit :=
  forAll references fun reference =>
    raiseIf (catalog.get s reference = none)
      ⟨404, noun ++ " not found: " ++ identityText reference⟩

end Catalog

def skillCatalog : Catalog SkillCreate SkillCreate where
  kind := .skill
  noun := "skill version"
  identity skill := (skill.key, skill.version)
  rows := ControlPlane.skills
  setRows s rows := { s with skills := rows }
  postInit := SkillCreate.postInit
  require _ _ := .ok ()
  toRecord := some
  fromRecord := id
  contains := SkillCreate.contains

def modelCatalog : Catalog ModelProfileCreate ModelProfileRecord where
  kind := .model
  noun := "model profile version"
  identity model := (model.key, model.version)
  rows := ControlPlane.modelProfiles
  setRows s rows := { s with modelProfiles := rows }
  postInit := ModelProfileCreate.postInit
  require _ _ := .ok ()
  toRecord := ModelProfileCreate.toRecord
  fromRecord := profileFromRecord
  contains := ModelProfileCreate.contains

/-- What a bundle and its control plane meet that the source does not decide. -/
structure Surroundings where
  /-- `HttpUrl`: the text of the parsed URL. -/
  httpUrl : String → Option String
  /-- `Draft202012Validator.check_schema`. -/
  checkSchema : JsonObject → Except String Unit

section Packs

variable (env : Surroundings)

/-- `check_output_contract_schema`. -/
def checkOutputContractSchema (contract : JsonObject) : Except String Unit := do
  raiseIf (hasExternalReference (.dict contract) = true)
    "phase pack output_contract external schema references are not allowed"
  env.checkSchema contract

def phasePackCatalog : Catalog PhasePackCreate PhasePackCreate where
  kind := .phasePack
  noun := "phase pack version"
  identity pack := (pack.key, pack.version)
  rows := ControlPlane.phasePacks
  setRows s rows := { s with phasePacks := rows }
  postInit pack := do
    let value ← pack.postInit
    checkOutputContractSchema env value.outputContract
    pure value
  require s pack :=
    skillCatalog.requireAll s "skill" (pack.skills.map fun reference =>
      (reference.key, reference.version))
  toRecord := some
  fromRecord := id
  contains := PhasePackCreate.contains

/-- `_resolve_phase_packs`, `_resolve_skills` and `_validate_phase_inputs`. -/
def requireReferences (s : ControlPlane) (workflow : WorkflowDefinitionCreate) :
    Except ProblemDetail Unit := do
  let packReferences := workflow.nodes.filterMap fun node =>
    node.phasePack.map fun reference => (reference.key, reference.version)
  (phasePackCatalog env).requireAll s "phase pack" (sortReferences packReferences)
  let packs := packReferences.filterMap ((phasePackCatalog env).get s)
  let skillReferences := workflow.nodes.flatMap WorkflowNodePayload.skills ++
    packs.flatMap fun pack => pack.skills
  skillCatalog.requireAll s "skill" (sortReferences (skillReferences.map fun reference =>
    (reference.key, reference.version)))
  forAll workflow.nodes fun node =>
    forAll (node.phasePack.toList.filterMap fun reference =>
        (phasePackCatalog env).get s (reference.key, reference.version)) fun pack =>
      (checkPhaseInputs node pack).mapError invalid

def workflowCatalog : Catalog WorkflowDefinitionCreate WorkflowDefinitionCreate where
  kind := .workflow
  noun := "workflow definition"
  identity workflow := (workflow.key, workflow.version)
  rows := ControlPlane.workflows
  setRows s rows := { s with workflows := rows }
  postInit := WorkflowDefinitionCreate.postInit
  require := requireReferences env
  toRecord := some
  fromRecord := WorkflowDefinitionCreate.normalized
  contains := WorkflowDefinitionCreate.contains

/-! ## 5. Projects and bindings -/

def projectResponse (record : ProjectRecord) : ProjectCreate where
  key := record.key
  name := record.name
  repositoryUrl := record.repositoryUrl
  defaultBranch := record.defaultBranch

/-- `GET /v1/projects?limit=500`. -/
def projectsPage (s : ControlPlane) : List ProjectRecord := listProjects s.projects none none 500

/-- `POST /v1/projects`; the primary key refuses an identifier in use. -/
def registerProject (s : ControlPlane) (id : UUID) (now : Instant) (payload : ProjectCreate) :
    Except ProblemDetail (ProjectRecord × ControlPlane) :=
  match env.httpUrl payload.repositoryUrl with
  | none => .error (invalid "repository_url is not a valid URL")
  | some url => do
    let project ← (ProjectCreate.postInit { payload with repositoryUrl := url }).mapError invalid
    if s.projects.any (fun record => record.key = project.key) then
      .error ⟨409, "project key already exists: " ++ project.key⟩
    else if s.projects.any (fun record => record.id = id) then .error serverError
    else
      let record : ProjectRecord := {
        id := id
        key := project.key
        name := project.name
        repositoryUrl := project.repositoryUrl
        defaultBranch := project.defaultBranch
        createdAt := now }
      .ok (record, { s with projects := record :: s.projects })

/-- `ProjectWorkflowBinding.__post_init__`. -/
def ProjectWorkflowBinding.postInit (binding : ProjectWorkflowBinding) :
    Except String ProjectWorkflowBinding := do
  let key := Text.strip binding.definitionKey
  raiseIf (matchesCatalogKey key = false) "workflow definition key has an invalid format"
  raiseIf (binding.definitionVersion < 1)
    "workflow definition version must be greater than zero"
  pure { binding with definitionKey := key }

/-- `GET /v1/projects/{id}/workflow-binding`; the constructor strips the key once more. -/
def getBinding (s : ControlPlane) (projectId : UUID) : Option ProjectWorkflowBinding :=
  if s.projects.any (fun record => record.id = projectId) then
    (s.bindings.find? fun binding => binding.projectId = projectId).map fun binding =>
      { binding with definitionKey := Text.strip binding.definitionKey }
  else none

/-- `PUT /v1/projects/{id}/workflow-binding`. -/
def configureBinding (s : ControlPlane) (projectId : UUID) (definitionKey : String)
    (definitionVersion : ℕ) : Except ProblemDetail ControlPlane :=
  if s.projects.any (fun record => record.id = projectId) = false then
    .error ⟨404, "project not found: " ++ toString projectId⟩
  else
    match (workflowCatalog env).get s (definitionKey, definitionVersion) with
    | none => .error ⟨404,
        "workflow definition not found: " ++ identityText (definitionKey, definitionVersion)⟩
    | some definition =>
      let binding : ProjectWorkflowBinding :=
        ⟨projectId, definition.key, definition.version⟩
      if s.bindings.any (fun row => row.projectId = projectId) then
        -- The row is read through the constructor, changed and written back.
        .ok { s with bindings := s.bindings.map fun row =>
          if row.projectId = projectId then binding else row }
      else do
        let created ← binding.postInit.mapError invalid
        .ok { s with bindings := s.bindings ++ [created] }

end Packs

end JbOrchestrator.Api
