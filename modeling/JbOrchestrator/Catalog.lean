import JbOrchestrator.Lib.Json

/-!
# Catalog — the versioned records a workflow node refers to

Skills, phase packs and model profiles are registered once and pinned by key and version.  The
workflow model only carries them: a node names references, a snapshot holds the resolved records and
a claim hands them to the worker.
-/

open Lib

namespace JbOrchestrator

abbrev UUID := ℕ

/-- A UTC instant in microseconds. -/
abbrev Instant := ℤ

abbrev Decimal := ℚ

/-! ## 1. Skills -/

inductive SkillSourceKind where
  | «local» | git | archive
  deriving DecidableEq, Repr

structure SkillReference where
  key : String
  version : ℕ
  deriving DecidableEq, Repr

structure SkillDefinition where
  key : String
  version : ℕ
  name : String
  description : String
  sourceKind : SkillSourceKind
  sourceUri : String
  contentDigest : String
  sourceRevision : Option String := none
  entrypoint : String := "SKILL.md"

def SkillDefinition.reference (skill : SkillDefinition) : SkillReference :=
  ⟨skill.key, skill.version⟩

/-! ## 2. Phase packs -/

structure PhasePackReference where
  key : String
  version : ℕ
  deriving DecidableEq, Repr

structure PhaseInputDefinition where
  key : String
  description : String
  required : Bool := true
  deriving DecidableEq, Repr

structure PhasePackDefinition where
  key : String
  version : ℕ
  name : String
  description : String
  instructions : String
  inputs : List PhaseInputDefinition := []
  outputContract : JsonObject := []
  skills : List SkillReference := []

def PhasePackDefinition.reference (pack : PhasePackDefinition) : PhasePackReference :=
  ⟨pack.key, pack.version⟩

/-! ## 3. Model routing -/

inductive ModelTier where
  | economy | balanced | advanced
  deriving DecidableEq, Repr

inductive RequirementLevel where
  | low | medium | high | critical
  deriving DecidableEq, Repr

structure ModelProfile where
  key : String
  version : ℕ
  name : String
  provider : String
  modelId : String
  tier : ModelTier
  contextWindow : ℕ
  inputCostPerMillion : Decimal
  outputCostPerMillion : Decimal
  enabled : Bool := true
  capabilities : List String := []
  executorKeys : List String := []

structure ModelRoutingRequest where
  complexity : RequirementLevel := .medium
  risk : RequirementLevel := .medium
  quality : RequirementLevel := .medium
  requiredCapabilities : List String := []
  estimatedInputTokens : ℕ := 0
  maxOutputTokens : ℕ := 4096
  maxCostUsd : Option Decimal := none
  deriving DecidableEq, Repr

structure ModelSelection where
  profile : ModelProfile
  policyVersion : ℕ
  requiredTier : ModelTier
  estimatedCostUsd : Decimal
  reasonCodes : List String

structure NodeModelSelection where
  nodeKey : String
  selection : ModelSelection

end JbOrchestrator
