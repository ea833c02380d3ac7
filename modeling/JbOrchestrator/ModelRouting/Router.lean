import JbOrchestrator.Catalog

/-!
# Router — the deterministic model routing policy

`DeterministicModelRouter.route`: the profiles that satisfy a request, and the least of them by tier,
cost, key and version.
-/

namespace JbOrchestrator.ModelRouting

inductive ModelRoutingError where
  | noProfile (message : String)
  deriving DecidableEq, Repr

def policyVersion : ℕ := 1

/-- `_TIER_RANK`. -/
def tierRank : ModelTier → ℕ
  | .economy => 0
  | .balanced => 1
  | .advanced => 2

/-- `_LEVEL_RANK`. -/
def levelRank : RequirementLevel → ℕ
  | .low => 0
  | .medium => 1
  | .high => 2
  | .critical => 2

def tierValue : ModelTier → String
  | .economy => "economy"
  | .balanced => "balanced"
  | .advanced => "advanced"

def requiredTier (request : ModelRoutingRequest) : ModelTier :=
  match max (max (levelRank request.complexity) (levelRank request.risk))
    (levelRank request.quality) with
  | 0 => .economy
  | 1 => .balanced
  | _ => .advanced

def estimateCost (profile : ModelProfile) (request : ModelRoutingRequest) : Decimal :=
  (request.estimatedInputTokens * profile.inputCostPerMillion +
    request.maxOutputTokens * profile.outputCostPerMillion) / 1000000

def requiredContext (request : ModelRoutingRequest) : ℕ :=
  request.estimatedInputTokens + request.maxOutputTokens

/-- The profile passes the checks of the candidate loop. -/
def feasible (request : ModelRoutingRequest) (executorKey : String) (profile : ModelProfile) : Bool :=
  profile.enabled &&
    decide (tierRank (requiredTier request) ≤ tierRank profile.tier) &&
    (profile.executorKeys.isEmpty || profile.executorKeys.contains executorKey) &&
    request.requiredCapabilities.all profile.capabilities.contains &&
    decide (requiredContext request ≤ profile.contextWindow) &&
    request.maxCostUsd.all fun budget => decide (estimateCost profile request ≤ budget)

/-- The order of the `min` key `(tier, cost, key, -version)`; a later candidate wins only when it is
strictly smaller. -/
def precedes (request : ModelRoutingRequest) (a b : ModelProfile) : Bool :=
  if tierRank a.tier ≠ tierRank b.tier then decide (tierRank a.tier < tierRank b.tier)
  else if estimateCost a request ≠ estimateCost b request then
    decide (estimateCost a request < estimateCost b request)
  else if a.key ≠ b.key then decide (a.key < b.key)
  else decide (b.version < a.version)

def best (request : ModelRoutingRequest) : List ModelProfile → Option ModelProfile
  | [] => none
  | profile :: rest =>
    some (rest.foldl (fun chosen other => if precedes request other chosen then other else chosen)
      profile)

def reasons (request : ModelRoutingRequest) (executorKey : String) (profile : ModelProfile) :
    List String :=
  ["required_tier:" ++ tierValue (requiredTier request),
    "selected_tier:" ++ tierValue profile.tier,
    "executor:" ++ executorKey] ++
  (if request.requiredCapabilities.isEmpty then []
    else ["capabilities:" ++ ",".intercalate request.requiredCapabilities]) ++
  (if request.maxCostUsd.isSome then ["budget_satisfied"] else [])

def route (request : ModelRoutingRequest) (profiles : List ModelProfile) (executorKey : String) :
    Except ModelRoutingError ModelSelection :=
  match best request (profiles.filter (feasible request executorKey)) with
  | none => .error (.noProfile
    "no model profile satisfies tier, executor, capability, context, and budget constraints")
  | some profile => .ok {
      profile := profile
      policyVersion := policyVersion
      requiredTier := requiredTier request
      estimatedCostUsd := estimateCost profile request
      reasonCodes := reasons request executorKey profile }

end JbOrchestrator.ModelRouting
