import JbOrchestrator.Lib.Numeral
import JbOrchestrator.Workflows.Definition

/-!
# Schemas — the payloads of the catalog and how two of them compare

The request schemas of `api/schemas.py` for the six kinds of resource a bundle holds.  A response
repeats the fields of its request, so one type serves for both.  Amounts are numerals: their text is
what JSON carries.  `contains` is `_contains_expected` on the JSON dumps of two payloads, field by
field with Python's `==`.
-/

open Lib

namespace JbOrchestrator.Api

open Workflows

/-! ## 1. Payloads -/

structure ProjectCreate where
  key : String
  name : String
  repositoryUrl : String
  defaultBranch : String := "main"
  deriving DecidableEq, Repr

structure SkillCreate extends SkillDefinition where
  metadata : JsonObject := []

structure ModelProfileCreate where
  key : String
  version : ℕ
  name : String
  provider : String
  modelId : String
  tier : ModelTier
  contextWindow : ℕ
  inputCostPerMillion : Numeral
  outputCostPerMillion : Numeral
  enabled : Bool := true
  capabilities : List String := []
  executorKeys : List String := []
  metadata : JsonObject := []

structure PhasePackCreate extends PhasePackDefinition where
  metadata : JsonObject := []

structure ModelRoutingPayload where
  complexity : RequirementLevel := .medium
  risk : RequirementLevel := .medium
  quality : RequirementLevel := .medium
  requiredCapabilities : List String := []
  estimatedInputTokens : ℕ := 0
  maxOutputTokens : ℕ := 4096
  maxCostUsd : Option Numeral := none
  deriving DecidableEq, Repr

structure WorkflowNodePayload where
  key : NodeKey
  kind : NodeKind
  maxAttempts : ℕ := 1
  maxVisits : ℕ := 1
  timeoutSeconds : ℕ := 600
  terminalStatus : Option WorkflowStatus := none
  executorKey : Option String := none
  instructions : Option String := none
  configuration : JsonObject := []
  skills : List SkillReference := []
  modelRouting : Option ModelRoutingPayload := none
  phasePack : Option PhasePackReference := none
  inputMappings : List NodeInputMapping := []

structure WorkflowDefinitionCreate where
  key : String
  version : ℕ
  entryNode : NodeKey
  nodes : List WorkflowNodePayload
  edges : List EdgeDefinition := []

/-! ## 2. Comparison -/

def ProjectCreate.contains (current expected : ProjectCreate) : Bool := decide (current = expected)

def SkillCreate.contains (current expected : SkillCreate) : Bool :=
  decide (current.key = expected.key) && decide (current.version = expected.version) &&
  decide (current.name = expected.name) && decide (current.description = expected.description) &&
  decide (current.sourceKind = expected.sourceKind) &&
  decide (current.sourceUri = expected.sourceUri) &&
  decide (current.contentDigest = expected.contentDigest) &&
  decide (current.sourceRevision = expected.sourceRevision) &&
  decide (current.entrypoint = expected.entrypoint) &&
  Json.pyEq (.dict current.metadata) (.dict expected.metadata)

def ModelProfileCreate.contains (current expected : ModelProfileCreate) : Bool :=
  decide (current.key = expected.key) && decide (current.version = expected.version) &&
  decide (current.name = expected.name) && decide (current.provider = expected.provider) &&
  decide (current.modelId = expected.modelId) && decide (current.tier = expected.tier) &&
  decide (current.contextWindow = expected.contextWindow) &&
  decide (current.inputCostPerMillion.str = expected.inputCostPerMillion.str) &&
  decide (current.outputCostPerMillion.str = expected.outputCostPerMillion.str) &&
  decide (current.enabled = expected.enabled) &&
  decide (current.capabilities = expected.capabilities) &&
  decide (current.executorKeys = expected.executorKeys) &&
  Json.pyEq (.dict current.metadata) (.dict expected.metadata)

def PhasePackCreate.contains (current expected : PhasePackCreate) : Bool :=
  decide (current.key = expected.key) && decide (current.version = expected.version) &&
  decide (current.name = expected.name) && decide (current.description = expected.description) &&
  decide (current.instructions = expected.instructions) &&
  decide (current.inputs = expected.inputs) &&
  Json.pyEq (.dict current.outputContract) (.dict expected.outputContract) &&
  decide (current.skills = expected.skills) &&
  Json.pyEq (.dict current.metadata) (.dict expected.metadata)

def ModelRoutingPayload.pyEq (a b : ModelRoutingPayload) : Bool :=
  decide (a.complexity = b.complexity) && decide (a.risk = b.risk) &&
  decide (a.quality = b.quality) && decide (a.requiredCapabilities = b.requiredCapabilities) &&
  decide (a.estimatedInputTokens = b.estimatedInputTokens) &&
  decide (a.maxOutputTokens = b.maxOutputTokens) &&
  decide (a.maxCostUsd.map Numeral.str = b.maxCostUsd.map Numeral.str)

/-- `==` on two optional values. -/
def eqOption {α : Type} (eq : α → α → Bool) : Option α → Option α → Bool
  | none, none => true
  | some a, some b => eq a b
  | _, _ => false

def WorkflowNodePayload.pyEq (a b : WorkflowNodePayload) : Bool :=
  decide (a.key = b.key) && decide (a.kind = b.kind) &&
  decide (a.maxAttempts = b.maxAttempts) && decide (a.maxVisits = b.maxVisits) &&
  decide (a.timeoutSeconds = b.timeoutSeconds) &&
  decide (a.terminalStatus = b.terminalStatus) && decide (a.executorKey = b.executorKey) &&
  decide (a.instructions = b.instructions) &&
  Json.pyEq (.dict a.configuration) (.dict b.configuration) && decide (a.skills = b.skills) &&
  eqOption ModelRoutingPayload.pyEq a.modelRouting b.modelRouting &&
  decide (a.phasePack = b.phasePack) && decide (a.inputMappings = b.inputMappings)

def WorkflowDefinitionCreate.contains (current expected : WorkflowDefinitionCreate) : Bool :=
  decide (current.key = expected.key) && decide (current.version = expected.version) &&
  decide (current.entryNode = expected.entryNode) &&
  current.nodes.isEqv expected.nodes WorkflowNodePayload.pyEq &&
  current.edges.isEqv expected.edges EdgeDefinition.pyEq

/-! ## 3. What the comparison ignores -/

theorem isEqv_map_iff {α : Type} {eq : α → α → Bool} (f : α → α) (xs : List α) :
    (xs.map f).isEqv xs eq = true ↔ ∀ x ∈ xs, eq (f x) x = true := by
  induction xs with
  | nil => simp
  | cons x xs ih =>
    rw [List.map_cons, List.isEqv, Bool.and_eq_true, ih, List.forall_mem_cons]

theorem isEqv_refl {α : Type} {eq : α → α → Bool} (h : ∀ x, eq x x = true) (xs : List α) :
    xs.isEqv xs eq = true := by
  have hmap : (xs.map id).isEqv xs eq = true := (isEqv_map_iff id xs).mpr fun x _ => h x
  rwa [List.map_id] at hmap

theorem edge_pyEq_refl (edge : EdgeDefinition) : edge.pyEq edge = true := by
  unfold EdgeDefinition.pyEq
  cases edge.condition with
  | none => simp
  | some condition => simp [ArtifactCondition.pyEq, Scalar.pyEq_refl]

theorem SkillCreate.contains_refl (skill : SkillCreate) : skill.contains skill = true := by
  simp [contains, Json.pyEq_refl]

theorem PhasePackCreate.contains_refl (pack : PhasePackCreate) : pack.contains pack = true := by
  simp [contains, Json.pyEq_refl]

end JbOrchestrator.Api
