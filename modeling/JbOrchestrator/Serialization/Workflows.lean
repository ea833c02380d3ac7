import JbOrchestrator.Lib.JsonText
import JbOrchestrator.Serialization.Records
import JbOrchestrator.Workflows.Composition

/-!
# Workflows — definitions and snapshots as JSON

The serializers of `workflows/serialization.py`.  A node is the payload of the API, which keeps the
numeral of its amount; a definition and a snapshot give the engine its graph.
-/

open Lib

namespace JbOrchestrator.Workflows

def NodeKind.value : NodeKind → String
  | .task => "task"
  | .approval => "approval"
  | .fork => "fork"
  | .join => "join"
  | .terminal => "terminal"

def NodeKind.members : List NodeKind := [.task, .approval, .fork, .join, .terminal]

def WorkflowStatus.members : List WorkflowStatus :=
  [.pending, .running, .awaitingApproval, .succeeded, .failed, .cancelled]

def NodeOutcome.members : List NodeOutcome := [.success, .failure, .approved, .rejected]

/-- `WorkflowRequestContext.__post_init__`. -/
def WorkflowRequestContext.postInit (context : WorkflowRequestContext) :
    Except WorkflowDefinitionError Unit :=
  raiseIf (Text.isBlank context.projectKey ∨ Text.isBlank context.projectName ∨
      Text.isBlank context.repositoryUrl ∨ Text.isBlank context.defaultBranch ∨
      Text.isBlank context.prompt)
    ⟨"workflow request context fields must not be empty"⟩

end JbOrchestrator.Workflows

namespace JbOrchestrator.Serialization

open Workflows Api Json

/-! ## 1. Definitions and snapshots -/

structure Definition extends WorkflowDefinitionCreate where
  id : UUID

structure Snapshot where
  id : UUID
  runId : UUID
  definitionId : UUID
  definitionKey : String
  definitionVersion : ℕ
  entryNode : NodeKey
  nodes : List WorkflowNodePayload
  edges : List EdgeDefinition
  requestContext : Option WorkflowRequestContext := none
  phasePacks : List PhasePack := []
  skills : List Skill := []
  modelSelections : List NodeSelection := []
  createdAt : Datetime

def Definition.definition (definition : Definition) : WorkflowDefinition :=
  { definition.toWorkflowDefinitionCreate.definition with id := definition.id }

def Profile.profile (profile : Profile) : ModelProfile where
  key := profile.key
  version := profile.version
  name := profile.name
  provider := profile.provider
  modelId := profile.modelId
  tier := profile.tier
  contextWindow := profile.contextWindow
  inputCostPerMillion := profile.inputCostPerMillion.value
  outputCostPerMillion := profile.outputCostPerMillion.value
  enabled := profile.enabled
  capabilities := profile.capabilities
  executorKeys := profile.executorKeys

def NodeSelection.selected (value : NodeSelection) : NodeModelSelection where
  nodeKey := value.nodeKey
  selection := {
    profile := value.selection.profile.profile
    policyVersion := value.selection.policyVersion
    requiredTier := value.selection.requiredTier
    estimatedCostUsd := value.selection.estimatedCostUsd.value
    reasonCodes := value.selection.reasonCodes }

/-- The snapshot as the engine and the services see it. -/
def Snapshot.snapshot (s : Snapshot) : WorkflowSnapshot where
  entryNode := s.entryNode
  nodes := s.nodes.map WorkflowNodePayload.definition
  edges := s.edges
  runId := s.runId
  definitionId := s.definitionId
  definitionKey := s.definitionKey
  definitionVersion := s.definitionVersion
  requestContext := s.requestContext
  phasePacks := s.phasePacks.map fun pack => pack.toPhasePackDefinition
  skills := s.skills.map fun skill => skill.toSkillDefinition
  modelSelections := s.modelSelections.map NodeSelection.selected

/-! ## 2. Writing -/

def phasePackReferenceToDict (reference : PhasePackReference) : Json :=
  referenceToDict reference.key reference.version

def inputMappingToDict (mapping : NodeInputMapping) : Json :=
  .dict [("input_key", text mapping.inputKey), ("source_node", text mapping.sourceNode)]

def nodeToDict (node : WorkflowNodePayload) : JsonObject :=
  [("key", text node.key),
    ("kind", text node.kind.value),
    ("max_attempts", number node.maxAttempts),
    ("max_visits", number node.maxVisits),
    ("timeout_seconds", number node.timeoutSeconds),
    ("terminal_status", orNone (fun status => text status.value) node.terminalStatus),
    ("executor_key", orNone text node.executorKey),
    ("instructions", orNone text node.instructions),
    ("configuration", .dict node.configuration),
    ("skills", .list (node.skills.map skillReferenceToDict)),
    ("model_routing", orNone (fun request => .dict (requestToDict request)) node.modelRouting),
    ("phase_pack", orNone phasePackReferenceToDict node.phasePack),
    ("input_mappings", .list (node.inputMappings.map inputMappingToDict))]

def conditionToDict (condition : ArtifactCondition) : Json :=
  .dict [("path", text condition.path), ("equals", .scalar condition.equals)]

/-- The condition is an entry only when there is one. -/
def edgeToDict (edge : EdgeDefinition) : JsonObject :=
  [("source", text edge.source),
    ("outcome", text edge.outcome.value),
    ("target", text edge.target)] ++
  match edge.condition with
  | none => []
  | some condition => [("condition", conditionToDict condition)]

def definitionToDict (definition : Definition) : JsonObject :=
  [("id", Json.uuid definition.id),
    ("key", text definition.key),
    ("version", number definition.version),
    ("entry_node", text definition.entryNode),
    ("nodes", .list (definition.nodes.map fun node => .dict (nodeToDict node))),
    ("edges", .list (definition.edges.map fun edge => .dict (edgeToDict edge)))]

def requestContextToDict (context : WorkflowRequestContext) : JsonObject :=
  [("request_id", Json.uuid context.requestId),
    ("project_id", Json.uuid context.projectId),
    ("project_key", text context.projectKey),
    ("project_name", text context.projectName),
    ("repository_url", text context.repositoryUrl),
    ("default_branch", text context.defaultBranch),
    ("prompt", text context.prompt),
    ("title", orNone text context.title)]

def snapshotToDict (s : Snapshot) : JsonObject :=
  [("id", Json.uuid s.id),
    ("run_id", Json.uuid s.runId),
    ("definition_id", Json.uuid s.definitionId),
    ("definition_key", text s.definitionKey),
    ("definition_version", number s.definitionVersion),
    ("entry_node", text s.entryNode),
    ("nodes", .list (s.nodes.map fun node => .dict (nodeToDict node))),
    ("edges", .list (s.edges.map fun edge => .dict (edgeToDict edge))),
    ("request_context", orNone (fun context => .dict (requestContextToDict context))
      s.requestContext),
    ("phase_packs", .list (s.phasePacks.map fun value => .dict (phasePackToDict value))),
    ("created_at", datetime s.createdAt),
    ("skills", .list (s.skills.map fun skill => .dict (skillToDict skill))),
    ("model_selections", .list (s.modelSelections.map fun value =>
      .dict (nodeSelectionToDict value)))]

/-! ## 3. Reading -/

def refusingDefinition {α : Type} (x : Except WorkflowDefinitionError α) : Except ReadError α :=
  refusing (x.mapError WorkflowDefinitionError.message)

section

variable (conv : Conversions)

def phasePackReferenceFromDict (data : JsonObject) : Except ReadError PhasePackReference := do
  let key ← readText conv data "key"
  let version ← readNat conv data "version"
  let reference : PhasePackReference := ⟨key, version⟩
  refusing (phasePackReferencePostInit reference)
  pure reference

def inputMappingFromDict (value : Json) : Except ReadError NodeInputMapping := do
  let data ← value.object .typeError
  let inputKey ← readText conv data "input_key"
  let sourceNode ← readText conv data "source_node"
  let mapping : NodeInputMapping := ⟨inputKey, sourceNode⟩
  refusingDefinition mapping.postInit
  pure mapping

def nodeFromDict (value : Json) : Except ReadError WorkflowNodePayload := do
  let data ← value.object .attributeError
  let terminal := getD data "terminal_status"
  let routing := getD data "model_routing"
  let phasePack := getD data "phase_pack"
  let key ← readText conv data "key"
  let kind ← readMember conv NodeKind.members NodeKind.value data "kind"
  let maxAttempts ← readNat conv data "max_attempts"
  let maxVisits ← readNat conv data "max_visits"
  let timeoutSeconds ← readNat conv data "timeout_seconds"
  let terminalStatus ← readIfTruthy terminal fun terminal =>
    enumOf WorkflowStatus.members WorkflowStatus.value (conv.toStr terminal)
  let executorKey ← readFilled conv data "executor_key"
  let instructions ← readFilled conv data "instructions"
  let configuration ← conv.toDict (getD data "configuration" (.dict []))
  let skills ← (getD data "skills" (.list [])).items
  let skills ← skills.mapM (skillReferenceFromDict conv)
  let modelRouting ← readNotNone routing fun routing => do
    let routing ← conv.toDict routing
    requestFromDict conv routing
  let phasePack ← readIfDict phasePack (phasePackReferenceFromDict conv)
  let inputMappings ← (getD data "input_mappings" (.list [])).items
  let inputMappings ← inputMappings.mapM (inputMappingFromDict conv)
  let node : WorkflowNodePayload := {
    key, kind, maxAttempts, maxVisits, timeoutSeconds, terminalStatus, executorKey, instructions,
    configuration, skills, modelRouting, phasePack, inputMappings }
  refusingDefinition node.definition.postInit
  pure node

/-- `condition.get("equals")`; a list or an object there is refused by the constructor. -/
def scalarOf : Json → Except ReadError Scalar
  | .scalar value => .ok value
  | _ => .error (.refused "artifact condition value must be a finite JSON scalar")

def conditionFromDict (data : JsonObject) : Except ReadError ArtifactCondition := do
  let path ← readText conv data "path"
  let equals ← scalarOf (getD data "equals")
  let condition : ArtifactCondition := ⟨path, equals⟩
  refusingDefinition condition.postInit
  pure condition

def edgeFromDict (value : Json) : Except ReadError EdgeDefinition := do
  let data ← value.object .attributeError
  let condition := getD data "condition"
  let source ← readText conv data "source"
  let outcome ← readMember conv NodeOutcome.members NodeOutcome.value data "outcome"
  let target ← readText conv data "target"
  let condition ← readIfDict condition (conditionFromDict conv)
  pure ⟨source, outcome, target, condition⟩

def definitionFromDict (data : JsonObject) : Except ReadError Definition := do
  let id ← readId conv data "id"
  let key ← readText conv data "key"
  let version ← readNat conv data "version"
  let entryNode ← readText conv data "entry_node"
  let nodes ← subscript data "nodes"
  let nodes ← nodes.items
  let nodes ← nodes.mapM (nodeFromDict conv)
  let edges ← subscript data "edges"
  let edges ← edges.items
  let edges ← edges.mapM (edgeFromDict conv)
  let definition : Definition := { id, key, version, entryNode, nodes, edges }
  refusingDefinition definition.definition.postInit
  pure definition

def requestContextFromDict (data : JsonObject) : Except ReadError WorkflowRequestContext := do
  let requestId ← readId conv data "request_id"
  let projectId ← readId conv data "project_id"
  let projectKey ← readText conv data "project_key"
  let projectName ← readText conv data "project_name"
  let repositoryUrl ← readText conv data "repository_url"
  let defaultBranch ← readText conv data "default_branch"
  let prompt ← readText conv data "prompt"
  let title ← readNotNone (getD data "title") fun title => pure (conv.toStr title)
  let context : WorkflowRequestContext := {
    requestId, projectId, projectKey, projectName, repositoryUrl, defaultBranch, prompt, title }
  refusingDefinition context.postInit
  pure context

def snapshotFromDict (data : JsonObject) : Except ReadError Snapshot := do
  let requestContext := getD data "request_context"
  let id ← readId conv data "id"
  let runId ← readId conv data "run_id"
  let definitionId ← readId conv data "definition_id"
  let definitionKey ← readText conv data "definition_key"
  let definitionVersion ← readNat conv data "definition_version"
  let entryNode ← readText conv data "entry_node"
  let nodes ← subscript data "nodes"
  let nodes ← nodes.items
  let nodes ← nodes.mapM (nodeFromDict conv)
  let edges ← subscript data "edges"
  let edges ← edges.items
  let edges ← edges.mapM (edgeFromDict conv)
  let requestContext ← readIfDict requestContext (requestContextFromDict conv)
  let phasePacks ← (getD data "phase_packs" (.list [])).items
  let phasePacks ← phasePacks.mapM (phasePackFromDict conv)
  let createdAt ← readDatetime conv data "created_at"
  let skills ← (getD data "skills" (.list [])).items
  let skills ← skills.mapM (skillFromDict conv)
  let modelSelections ← (getD data "model_selections" (.list [])).items
  let modelSelections ← modelSelections.mapM (nodeSelectionFromDict conv)
  let s : Snapshot := {
    id, runId, definitionId, definitionKey, definitionVersion, entryNode, nodes, edges,
    requestContext, phasePacks, createdAt, skills, modelSelections }
  refusingDefinition s.snapshot.postInit
  pure s

end

/-! ## 4. Columns -/

/-- What a JSON column holds of an object. -/
def column (style : JsonText.Style) (data : JsonObject) : List Char :=
  JsonText.dumps style (.dict data)

/-- The object that a JSON column answers. -/
def fromColumn (style : JsonText.Style) (chars : List Char) : Except ReadError JsonObject :=
  match JsonText.loads style chars with
  | some value => value.object .typeError
  | none => .error .valueError

end JbOrchestrator.Serialization
