import JbOrchestrator.Api.Catalogs
import JbOrchestrator.Lib.JsonReading

/-!
# Records — catalog records as JSON

The serializers of `model_routing/serialization.py`, `skills/serialization.py` and
`phase_packs/serialization.py`.  The payload types of the API carry the columns of a record; its
identifier and its time of creation come on top.  A reader takes the fields in the order of the source
and calls the constructor.
-/

open Lib

namespace JbOrchestrator

/-! ## 1. Enumerations -/

def ModelTier.value : ModelTier → String
  | .economy => "economy"
  | .balanced => "balanced"
  | .advanced => "advanced"

def ModelTier.members : List ModelTier := [.economy, .balanced, .advanced]

def RequirementLevel.value : RequirementLevel → String
  | .low => "low"
  | .medium => "medium"
  | .high => "high"
  | .critical => "critical"

def RequirementLevel.members : List RequirementLevel := [.low, .medium, .high, .critical]

def SkillSourceKind.value : SkillSourceKind → String
  | .local => "local"
  | .git => "git"
  | .archive => "archive"

def SkillSourceKind.members : List SkillSourceKind := [.local, .git, .archive]

end JbOrchestrator

namespace JbOrchestrator.Serialization

open Api Json

/-! ## 2. The records -/

structure Skill extends SkillCreate where
  id : UUID
  createdAt : Datetime

structure PhasePack extends PhasePackCreate where
  id : UUID
  createdAt : Datetime

structure Profile extends ModelProfileCreate where
  id : UUID
  createdAt : Datetime

structure Selection where
  profile : Profile
  policyVersion : ℕ
  requiredTier : ModelTier
  estimatedCostUsd : Numeral
  reasonCodes : List String

structure NodeSelection where
  nodeKey : String
  selection : Selection

/-! ## 3. Writing -/

def texts (values : List String) : Json := .list (values.map text)

/-- A reference to a skill or to a phase pack. -/
def referenceToDict (key : String) (version : ℕ) : Json :=
  .dict [("key", text key), ("version", number version)]

def skillReferenceToDict (reference : SkillReference) : Json :=
  referenceToDict reference.key reference.version

def profileToDict (profile : Profile) : JsonObject :=
  [("id", Json.uuid profile.id),
    ("key", text profile.key),
    ("version", number profile.version),
    ("name", text profile.name),
    ("provider", text profile.provider),
    ("model_id", text profile.modelId),
    ("tier", text profile.tier.value),
    ("context_window", number profile.contextWindow),
    ("input_cost_per_million", decimal profile.inputCostPerMillion),
    ("output_cost_per_million", decimal profile.outputCostPerMillion),
    ("enabled", flag profile.enabled),
    ("capabilities", texts profile.capabilities),
    ("executor_keys", texts profile.executorKeys),
    ("metadata", .dict profile.metadata),
    ("created_at", datetime profile.createdAt)]

def requestToDict (request : ModelRoutingPayload) : JsonObject :=
  [("complexity", text request.complexity.value),
    ("risk", text request.risk.value),
    ("quality", text request.quality.value),
    ("required_capabilities", texts request.requiredCapabilities),
    ("estimated_input_tokens", number request.estimatedInputTokens),
    ("max_output_tokens", number request.maxOutputTokens),
    ("max_cost_usd", orNone decimal request.maxCostUsd)]

def nodeSelectionToDict (value : NodeSelection) : JsonObject :=
  [("node_key", text value.nodeKey),
    ("profile", .dict (profileToDict value.selection.profile)),
    ("policy_version", number value.selection.policyVersion),
    ("required_tier", text value.selection.requiredTier.value),
    ("estimated_cost_usd", decimal value.selection.estimatedCostUsd),
    ("reason_codes", texts value.selection.reasonCodes)]

def skillToDict (skill : Skill) : JsonObject :=
  [("id", Json.uuid skill.id),
    ("key", text skill.key),
    ("version", number skill.version),
    ("name", text skill.name),
    ("description", text skill.description),
    ("source_kind", text skill.sourceKind.value),
    ("source_uri", text skill.sourceUri),
    ("content_digest", text skill.contentDigest),
    ("source_revision", orNone text skill.sourceRevision),
    ("entrypoint", text skill.entrypoint),
    ("metadata", .dict skill.metadata),
    ("created_at", datetime skill.createdAt)]

def phaseInputToDict (value : PhaseInputDefinition) : Json :=
  .dict [("key", text value.key), ("description", text value.description),
    ("required", flag value.required)]

def phasePackToDict (phasePack : PhasePack) : JsonObject :=
  [("id", Json.uuid phasePack.id),
    ("key", text phasePack.key),
    ("version", number phasePack.version),
    ("name", text phasePack.name),
    ("description", text phasePack.description),
    ("instructions", text phasePack.instructions),
    ("inputs", .list (phasePack.inputs.map phaseInputToDict)),
    ("output_contract", .dict phasePack.outputContract),
    ("skills", .list (phasePack.skills.map skillReferenceToDict)),
    ("metadata", .dict phasePack.metadata),
    ("created_at", datetime phasePack.createdAt)]

/-! ## 4. Reading -/

section

variable (conv : Conversions)

def readTexts (value : Json) : Except ReadError (List String) := do
  let values ← value.items
  pure (values.map conv.toStr)

/-- `data[key]` as a text. -/
def readText (data : JsonObject) (key : String) : Except ReadError String := do
  let value ← subscript data key
  pure (conv.toStr value)

/-- `str(data[key]) if data.get(key) else None`: an empty text is read as none. -/
def readFilled (data : JsonObject) (key : String) : Except ReadError (Option String) :=
  readIfTruthy (getD data key) fun value => pure (conv.toStr value)

def readNat (data : JsonObject) (key : String) : Except ReadError ℕ := do
  let value ← subscript data key
  conv.toNat value

def readId (data : JsonObject) (key : String) : Except ReadError UUID := do
  let value ← readText conv data key
  conv.toUuid value

def readDecimal (data : JsonObject) (key : String) : Except ReadError Numeral := do
  let value ← readText conv data key
  conv.toDecimal value

def readDatetime (data : JsonObject) (key : String) : Except ReadError Datetime := do
  let value ← readText conv data key
  conv.toDatetime value

def readMember {α : Type} (members : List α) (value : α → String) (data : JsonObject)
    (key : String) : Except ReadError α := do
  let name ← readText conv data key
  enumOf members value name

/-- A level, which is medium when it is missing. -/
def readLevel (data : JsonObject) (key : String) : Except ReadError RequirementLevel :=
  enumOf RequirementLevel.members RequirementLevel.value
    (conv.toStr (getD data key (text "medium")))

def skillReferenceFromDict (value : Json) : Except ReadError SkillReference := do
  let data ← value.object .typeError
  let key ← readText conv data "key"
  let version ← readNat conv data "version"
  let reference : SkillReference := ⟨key, version⟩
  refusing (skillReferencePostInit reference)
  pure reference

def profileFromDict (data : JsonObject) : Except ReadError Profile := do
  let id ← readId conv data "id"
  let key ← readText conv data "key"
  let version ← readNat conv data "version"
  let name ← readText conv data "name"
  let provider ← readText conv data "provider"
  let modelId ← readText conv data "model_id"
  let tier ← readMember conv ModelTier.members ModelTier.value data "tier"
  let contextWindow ← readNat conv data "context_window"
  let inputCostPerMillion ← readDecimal conv data "input_cost_per_million"
  let outputCostPerMillion ← readDecimal conv data "output_cost_per_million"
  let enabled := (getD data "enabled" (flag true)).truthy
  let capabilities ← readTexts conv (getD data "capabilities" (.list []))
  let executorKeys ← readTexts conv (getD data "executor_keys" (.list []))
  let metadata ← conv.toDict (getD data "metadata" (.dict []))
  let createdAt ← readDatetime conv data "created_at"
  let profile ← refusing (ModelProfileCreate.postInit {
    key, version, name, provider, modelId, tier, contextWindow, inputCostPerMillion,
    outputCostPerMillion, enabled, capabilities, executorKeys, metadata })
  pure { profile with id, createdAt }

def requestFromDict (data : JsonObject) : Except ReadError ModelRoutingPayload := do
  let budget := getD data "max_cost_usd"
  let complexity ← readLevel conv data "complexity"
  let risk ← readLevel conv data "risk"
  let quality ← readLevel conv data "quality"
  let requiredCapabilities ← readTexts conv (getD data "required_capabilities" (.list []))
  let estimatedInputTokens ← conv.toNat (getD data "estimated_input_tokens" (number 0))
  let maxOutputTokens ← conv.toNat (getD data "max_output_tokens" (number 4096))
  let maxCostUsd ← readNotNone budget fun budget => conv.toDecimal (conv.toStr budget)
  let request : ModelRoutingPayload := {
    complexity, risk, quality, requiredCapabilities, estimatedInputTokens, maxOutputTokens,
    maxCostUsd }
  refusing request.postInit
  pure request.normalized

/-- `NodeModelSelection.__post_init__`. -/
def nodeSelectionPostInit (value : NodeSelection) : Except String Unit :=
  Workflows.raiseIf (Text.isBlank value.nodeKey) "model selection node_key must not be empty"

def nodeSelectionFromDict (value : Json) : Except ReadError NodeSelection := do
  let data ← value.object .typeError
  let nodeKey ← readText conv data "node_key"
  let profile ← subscript data "profile"
  let profile ← conv.toDict profile
  let profile ← profileFromDict conv profile
  let policyVersion ← readNat conv data "policy_version"
  let requiredTier ← readMember conv ModelTier.members ModelTier.value data "required_tier"
  let estimatedCostUsd ← readDecimal conv data "estimated_cost_usd"
  let reasonCodes ← readTexts conv (getD data "reason_codes" (.list []))
  let value : NodeSelection :=
    ⟨nodeKey, ⟨profile, policyVersion, requiredTier, estimatedCostUsd, reasonCodes⟩⟩
  refusing (nodeSelectionPostInit value)
  pure value

def skillFromDict (value : Json) : Except ReadError Skill := do
  let data ← value.object .typeError
  let id ← readId conv data "id"
  let key ← readText conv data "key"
  let version ← readNat conv data "version"
  let name ← readText conv data "name"
  let description ← readText conv data "description"
  let sourceKind ← readMember conv SkillSourceKind.members SkillSourceKind.value data "source_kind"
  let sourceUri ← readText conv data "source_uri"
  let contentDigest ← readText conv data "content_digest"
  let sourceRevision ← readFilled conv data "source_revision"
  let entrypoint ← readText conv data "entrypoint"
  let metadata ← conv.toDict (getD data "metadata" (.dict []))
  let createdAt ← readDatetime conv data "created_at"
  let skill ← refusing (SkillCreate.postInit {
    key, version, name, description, sourceKind, sourceUri, contentDigest, sourceRevision,
    entrypoint, metadata })
  pure { skill with id, createdAt }

def phaseInputFromDict (value : Json) : Except ReadError PhaseInputDefinition := do
  let data ← value.object .typeError
  let key ← readText conv data "key"
  let description ← readText conv data "description"
  let required := (getD data "required" (flag true)).truthy
  let input : PhaseInputDefinition := ⟨key, description, required⟩
  refusing (phaseInputPostInit input)
  pure input

def phasePackFromDict (value : Json) : Except ReadError PhasePack := do
  let data ← value.object .typeError
  let createdAt ← readDatetime conv data "created_at"
  -- a naive time is taken to be in UTC
  let createdAt := { createdAt with offset := createdAt.offset <|> some 0 }
  let id ← readId conv data "id"
  let key ← readText conv data "key"
  let version ← readNat conv data "version"
  let name ← readText conv data "name"
  let description ← readText conv data "description"
  let instructions ← readText conv data "instructions"
  let inputs ← (getD data "inputs" (.list [])).items
  let inputs ← inputs.mapM (phaseInputFromDict conv)
  let outputContract ← conv.toDict (getD data "output_contract" (.dict []))
  let skills ← (getD data "skills" (.list [])).items
  let skills ← skills.mapM (skillReferenceFromDict conv)
  let metadata ← conv.toDict (getD data "metadata" (.dict []))
  let phasePack ← refusing (PhasePackCreate.postInit {
    key, version, name, description, instructions, inputs, outputContract, skills, metadata })
  pure { phasePack with id, createdAt }

end

end JbOrchestrator.Serialization
