import JbOrchestrator.Api.Catalogs
import Mathlib.Data.List.MinMax
import Mathlib.Data.Prod.Lex
import Mathlib.Data.String.Basic
import Mathlib.Tactic.IntervalCases

/-!
# Optimality — which profile the router chooses

The candidate loop keeps the feasible profiles, and `min` takes the first of them in a strict order.
Profiles that differ in key or version are never tied, so the order of the list does not matter.
-/

open Lib

namespace JbOrchestrator

open Workflows

/-- What `ModelProfile.__post_init__` admits of the prices. -/
structure ModelProfile.Accepted (profile : ModelProfile) : Prop where
  inputCost : 0 ≤ profile.inputCostPerMillion
  outputCost : 0 ≤ profile.outputCostPerMillion

/-- The profile of a payload. -/
def Api.ModelProfileCreate.profile (model : Api.ModelProfileCreate) : ModelProfile where
  key := model.key
  version := model.version
  name := model.name
  provider := model.provider
  modelId := model.modelId
  tier := model.tier
  contextWindow := model.contextWindow
  inputCostPerMillion := model.inputCostPerMillion.value
  outputCostPerMillion := model.outputCostPerMillion.value
  enabled := model.enabled
  capabilities := model.capabilities
  executorKeys := model.executorKeys

theorem Api.value_nonneg {cost : Numeral} (h : Api.isBelowZero cost = false) : 0 ≤ cost.value := by
  unfold Numeral.value
  by_cases hnegative : cost.negative = true
  · -- only zero may carry the sign
    have hzero : cost.coefficient = 0 := by simpa [Api.isBelowZero, hnegative] using h
    rw [hzero, Nat.cast_zero, zero_mul, mul_zero]
  · rw [if_neg hnegative, one_mul]
    exact mul_nonneg (Nat.cast_nonneg _) (zpow_nonneg (by norm_num) _)

/-- The constructor lets no profile with a negative price through. -/
theorem Api.ModelProfileCreate.postInit_accepted {model checked : Api.ModelProfileCreate}
    (h : model.postInit = .ok checked) : checked.profile.Accepted := by
  unfold Api.ModelProfileCreate.postInit at h
  simp only [check_bind_eq_ok, raiseIf_eq_ok, not_or, Bool.not_eq_true] at h
  obtain ⟨-, -, -, -, ⟨hinput, houtput⟩, -, -, hchecked⟩ := h
  obtain rfl := Except.ok.inj hchecked
  exact ⟨Api.value_nonneg hinput, Api.value_nonneg houtput⟩

def ModelProfile.reference (profile : ModelProfile) : String × ℕ := (profile.key, profile.version)

/-- The levels in the order of their definition. -/
def RequirementLevel.position : RequirementLevel → ℕ
  | .low => 0
  | .medium => 1
  | .high => 2
  | .critical => 3

namespace ModelRouting

/-! ## 1. Feasible profiles -/

structure Feasible (request : ModelRoutingRequest) (executorKey : String) (profile : ModelProfile) :
    Prop where
  enabled : profile.enabled = true
  tier : max (max (levelRank request.complexity) (levelRank request.risk))
    (levelRank request.quality) ≤ tierRank profile.tier
  executor : profile.executorKeys = [] ∨ executorKey ∈ profile.executorKeys
  capabilities : request.requiredCapabilities ⊆ profile.capabilities
  context : request.estimatedInputTokens + request.maxOutputTokens ≤ profile.contextWindow
  cost : ∀ budget, request.maxCostUsd = some budget → estimateCost profile request ≤ budget

theorem levelRank_le (level : RequirementLevel) : levelRank level ≤ 2 := by
  cases level <;> decide

/-- The three tiers are enough for the three ranks. -/
theorem tierRank_requiredTier (request : ModelRoutingRequest) :
    tierRank (requiredTier request) =
      max (max (levelRank request.complexity) (levelRank request.risk))
        (levelRank request.quality) := by
  have hle : max (max (levelRank request.complexity) (levelRank request.risk))
      (levelRank request.quality) ≤ 2 :=
    max_le (max_le (levelRank_le _) (levelRank_le _)) (levelRank_le _)
  unfold requiredTier
  generalize max (max (levelRank request.complexity) (levelRank request.risk))
    (levelRank request.quality) = needed at hle ⊢
  interval_cases needed <;> rfl

theorem feasible_iff {request : ModelRoutingRequest} {executorKey : String}
    {profile : ModelProfile} :
    feasible request executorKey profile = true ↔ Feasible request executorKey profile := by
  have hcapabilities : request.requiredCapabilities.all profile.capabilities.contains = true ↔
      request.requiredCapabilities ⊆ profile.capabilities := by
    simp [List.all_eq_true, List.subset_def]
  have hcost : (request.maxCostUsd.all fun budget => decide (estimateCost profile request ≤ budget)) =
      true ↔ ∀ budget, request.maxCostUsd = some budget → estimateCost profile request ≤ budget := by
    cases request.maxCostUsd <;> simp
  unfold feasible
  simp only [Bool.and_eq_true, Bool.or_eq_true, decide_eq_true_eq, List.isEmpty_iff,
    List.contains_iff_mem, hcapabilities, hcost, tierRank_requiredTier]
  constructor
  · rintro ⟨⟨⟨⟨⟨henabled, htier⟩, hexecutor⟩, hcaps⟩, hcontext⟩, hbudget⟩
    exact ⟨henabled, htier, hexecutor, hcaps, hcontext, hbudget⟩
  · intro h
    exact ⟨⟨⟨⟨⟨h.enabled, h.tier⟩, h.executor⟩, h.capabilities⟩, h.context⟩, h.cost⟩

/-! ## 2. The order of the choice -/

/-- Tier, estimated cost, key, and the newest version first. -/
abbrev Rank := ℕ ×ₗ ℚ ×ₗ String ×ₗ ℕᵒᵈ

def rank (request : ModelRoutingRequest) (profile : ModelProfile) : Rank :=
  toLex (tierRank profile.tier, toLex (estimateCost profile request,
    toLex (profile.key, OrderDual.toDual profile.version)))

theorem precedes_iff {request : ModelRoutingRequest} {a b : ModelProfile} :
    precedes request a b = true ↔ rank request a < rank request b := by
  unfold precedes rank
  simp only [Prod.Lex.toLex_lt_toLex, OrderDual.toDual_lt_toDual]
  by_cases htier : tierRank a.tier = tierRank b.tier
  · by_cases hcost : estimateCost a request = estimateCost b request
    · by_cases hkey : a.key = b.key
      · simp [htier, hcost, hkey]
      · simp [htier, hcost, hkey]
    · simp [htier, hcost]
  · simp [htier]

/-- The rank tells profiles apart as far as the key and the version do. -/
theorem reference_eq_of_rank_eq {request : ModelRoutingRequest} {a b : ModelProfile}
    (h : rank request a = rank request b) : a.reference = b.reference := by
  have hpair := congrArg (fun r : Rank => (ofLex (ofLex (ofLex r).2).2)) h
  have hkey : a.key = b.key := congrArg Prod.fst hpair
  have hversion : a.version = b.version := OrderDual.toDual_inj.mp (congrArg Prod.snd hpair)
  show (a.key, a.version) = (b.key, b.version)
  rw [hkey, hversion]

/-- The loop of `min` is the least argument of the rank. -/
theorem best_eq_argmin (request : ModelRoutingRequest) (profiles : List ModelProfile) :
    best request profiles = profiles.argmin (rank request) := by
  cases profiles with
  | nil => rfl
  | cons first rest =>
    show some _ = rest.foldl _ (some first)
    induction rest generalizing first with
    | nil => rfl
    | cons other rest ih =>
      rw [List.foldl_cons, List.foldl_cons, ih]
      congr 1
      show some _ = if rank request other < rank request first then some other else some first
      by_cases h : precedes request other first = true
      · rw [if_pos h, if_pos (precedes_iff.mp h)]
      · rw [if_neg h, if_neg (mt precedes_iff.mpr h)]

/-- The profile is the only least one among the feasible profiles of the list. -/
structure Optimal (request : ModelRoutingRequest) (executorKey : String)
    (profiles : List ModelProfile) (profile : ModelProfile) : Prop where
  mem : profile ∈ profiles
  feasible : Feasible request executorKey profile
  least : ∀ other ∈ profiles, Feasible request executorKey other → other ≠ profile →
    rank request profile < rank request other

section

variable {request : ModelRoutingRequest} {executorKey : String} {profiles : List ModelProfile}
  {profile : ModelProfile}

theorem mem_candidates :
    profile ∈ profiles.filter (feasible request executorKey) ↔
      profile ∈ profiles ∧ Feasible request executorKey profile := by
  rw [List.mem_filter, feasible_iff]

theorem Optimal.unique {other : ModelProfile} (h : Optimal request executorKey profiles profile)
    (h' : Optimal request executorKey profiles other) : profile = other := by
  by_contra hne
  have hlt := h.least other h'.mem h'.feasible (Ne.symm hne)
  exact lt_asymm hlt (h'.least profile h.mem h.feasible hne)

theorem best_optimal (hreferences : (profiles.map ModelProfile.reference).Nodup)
    (h : best request (profiles.filter (feasible request executorKey)) = some profile) :
    Optimal request executorKey profiles profile := by
  rw [best_eq_argmin] at h
  obtain ⟨hmem, hfeasible⟩ := mem_candidates.mp (List.argmin_mem h)
  refine ⟨hmem, hfeasible, ?_⟩
  intro other hother hotherFeasible hne
  apply lt_of_le_of_ne (List.le_of_mem_argmin (mem_candidates.mpr ⟨hother, hotherFeasible⟩) h)
  intro hrank
  -- profiles of one rank have one reference, and the references of the list are distinct
  exact hne (List.inj_on_of_nodup_map hreferences hother hmem (reference_eq_of_rank_eq hrank.symm))

theorem best_eq_none_iff :
    best request (profiles.filter (feasible request executorKey)) = none ↔
      ∀ profile ∈ profiles, ¬Feasible request executorKey profile := by
  rw [best_eq_argmin, List.argmin_eq_none, List.filter_eq_nil_iff]
  apply forall₂_congr
  intro profile _
  rw [feasible_iff]

/-! ## 3. The route -/

/-- The selection of a profile. -/
def selectionOf (request : ModelRoutingRequest) (executorKey : String) (profile : ModelProfile) :
    ModelSelection where
  profile := profile
  policyVersion := policyVersion
  requiredTier := requiredTier request
  estimatedCostUsd := estimateCost profile request
  reasonCodes := reasons request executorKey profile

theorem route_ok_iff {selection : ModelSelection} :
    route request profiles executorKey = .ok selection ↔
      ∃ profile, best request (profiles.filter (feasible request executorKey)) = some profile ∧
        selection = selectionOf request executorKey profile := by
  unfold route
  split
  · rename_i hnone
    simp [hnone]
  · rename_i profile hsome
    simp only [hsome, Option.some.injEq, exists_eq_left', Except.ok.injEq]
    exact eq_comm

theorem route_error_iff :
    (∃ error, route request profiles executorKey = .error error) ↔
      ∀ profile ∈ profiles, ¬Feasible request executorKey profile := by
  rw [← best_eq_none_iff]
  unfold route
  split
  · rename_i hnone
    simp [hnone]
  · rename_i profile hsome
    simp [hsome]

theorem best_perm {profiles' : List ModelProfile}
    (hreferences : (profiles.map ModelProfile.reference).Nodup) (hperm : profiles'.Perm profiles) :
    best request (profiles'.filter (feasible request executorKey)) =
      best request (profiles.filter (feasible request executorKey)) := by
  have hreferences' : (profiles'.map ModelProfile.reference).Nodup :=
    (hperm.map ModelProfile.reference).nodup_iff.mpr hreferences
  cases hbest : best request (profiles.filter (feasible request executorKey)) with
  | none =>
    rw [best_eq_none_iff] at hbest ⊢
    intro profile hmem
    exact hbest profile (hperm.subset hmem)
  | some profile =>
    have hoptimal := best_optimal hreferences hbest
    cases hbest' : best request (profiles'.filter (feasible request executorKey)) with
    | none =>
      rw [best_eq_none_iff] at hbest'
      exact absurd hoptimal.feasible (hbest' profile (hperm.symm.subset hoptimal.mem))
    | some profile' =>
      obtain ⟨hmem, hfeasible, hleast⟩ := best_optimal hreferences' hbest'
      have hoptimal' : Optimal request executorKey profiles profile' := by
        refine ⟨hperm.subset hmem, hfeasible, ?_⟩
        intro other hother
        exact hleast other (hperm.symm.subset hother)
      rw [hoptimal'.unique hoptimal]

end

/-! ## 4. Stronger requests -/

/-- No requirement of the first request is above that of the second. -/
structure Strengthens (weak strong : ModelRoutingRequest) : Prop where
  complexity : weak.complexity.position ≤ strong.complexity.position
  risk : weak.risk.position ≤ strong.risk.position
  quality : weak.quality.position ≤ strong.quality.position
  capabilities : weak.requiredCapabilities ⊆ strong.requiredCapabilities
  inputTokens : weak.estimatedInputTokens ≤ strong.estimatedInputTokens
  outputTokens : weak.maxOutputTokens ≤ strong.maxOutputTokens
  budget : ∀ budget, weak.maxCostUsd = some budget →
    ∃ smaller, strong.maxCostUsd = some smaller ∧ smaller ≤ budget

theorem levelRank_mono {a b : RequirementLevel} (h : a.position ≤ b.position) :
    levelRank a ≤ levelRank b := by
  revert h
  cases a <;> cases b <;> decide

/-- The cost grows with the token counts, as no price is negative. -/
theorem tokenCost_mono {profile : ModelProfile} (haccepted : profile.Accepted)
    {input output input' output' : ℕ} (hinput : input ≤ input') (houtput : output ≤ output') :
    (input * profile.inputCostPerMillion + output * profile.outputCostPerMillion) / 1000000 ≤
      (input' * profile.inputCostPerMillion + output' * profile.outputCostPerMillion) /
        1000000 := by
  have hin : (input : ℚ) * profile.inputCostPerMillion ≤ input' * profile.inputCostPerMillion :=
    mul_le_mul_of_nonneg_right (by exact_mod_cast hinput) haccepted.inputCost
  have hout : (output : ℚ) * profile.outputCostPerMillion ≤ output' * profile.outputCostPerMillion :=
    mul_le_mul_of_nonneg_right (by exact_mod_cast houtput) haccepted.outputCost
  exact div_le_div_of_nonneg_right (add_le_add hin hout) (by norm_num)

section

variable {weak strong : ModelRoutingRequest}

theorem Strengthens.rank_le (h : Strengthens weak strong) :
    max (max (levelRank weak.complexity) (levelRank weak.risk)) (levelRank weak.quality) ≤
      max (max (levelRank strong.complexity) (levelRank strong.risk))
        (levelRank strong.quality) := by
  have hcomplexity := levelRank_mono h.complexity
  have hrisk := levelRank_mono h.risk
  have hquality := levelRank_mono h.quality
  omega

theorem Strengthens.feasible (h : Strengthens weak strong) {executorKey : String}
    {profile : ModelProfile} (haccepted : profile.Accepted)
    (hfeasible : Feasible strong executorKey profile) : Feasible weak executorKey profile where
  enabled := hfeasible.enabled
  tier := h.rank_le.trans hfeasible.tier
  executor := hfeasible.executor
  capabilities := List.Subset.trans h.capabilities hfeasible.capabilities
  context := (Nat.add_le_add h.inputTokens h.outputTokens).trans hfeasible.context
  cost := by
    intro budget hbudget
    obtain ⟨smaller, hsmaller, hle⟩ := h.budget budget hbudget
    have hcost := hfeasible.cost smaller hsmaller
    exact (tokenCost_mono haccepted h.inputTokens h.outputTokens).trans (hcost.trans hle)

end

def sampleProfile (key : String) (version : ℕ) (tier : ModelTier) (price : Decimal) :
    ModelProfile where
  key := key
  version := version
  name := key
  provider := "acme"
  modelId := key
  tier := tier
  contextWindow := 8000
  inputCostPerMillion := price
  outputCostPerMillion := price

def sampleProfiles : List ModelProfile :=
  [sampleProfile "small" 1 .economy 1, sampleProfile "plain" 1 .balanced 3,
    sampleProfile "plain" 2 .balanced 3, sampleProfile "large" 1 .advanced 2]

end ModelRouting

end JbOrchestrator
