import JbOrchestrator.Application.Records
import JbOrchestrator.Lib.SortBy
import JbOrchestrator.Lib.Text
import Mathlib.Data.List.Infix
import Mathlib.Data.Prod.Lex
import Mathlib.Data.String.Basic
import Mathlib.Tactic.SplitIfs

/-!
# Recommendations — the deterministic workflow recommendation policy

`recommend_workflows` scores the workflows by the terms and the intents they share with a prompt, ranks
them and says how far the first may be trusted.  The runner-up is looked up behind the cut at `limit`.
-/

open Lib

namespace JbOrchestrator.Recommendations

def policyVersion : String := "workflow-keyword-v1"

/-! ## 1. Terms and intents -/

/-- `[가-힣]`. -/
def isHangul (c : Char) : Bool := 0xAC00 ≤ c.toNat && c.toNat ≤ 0xD7A3

/-- `[0-9a-zA-Z가-힣]`. -/
def isTokenChar (c : Char) : Bool :=
  Text.isDigit c || (97 ≤ c.toNat && c.toNat ≤ 122) || (65 ≤ c.toNat && c.toNat ≤ 90) || isHangul c

/-- `TOKEN_PATTERN.findall`: the longest runs of token characters. -/
def findTokens (value : String) : List String :=
  ((value.toList.splitOnP fun c => !isTokenChar c).filter fun run => !run.isEmpty).map String.ofList

/-- The set of terms, without duplicates. -/
def tokenize (value : String) : List String :=
  (((findTokens value).map String.toLower).filter fun token => 1 < token.length).dedup

/-- `INTENT_ALIASES`. -/
def intentAliases : List (String × List String) := [
  ("planning", ["기획", "계획", "설계", "요구사항", "분석", "architecture", "design", "plan",
    "planning"]),
  ("implementation", ["개발", "구현", "코드", "기능", "버그", "implement", "implementation",
    "develop", "code"]),
  ("verification", ["검증", "테스트", "리뷰", "품질", "보안", "verify", "verification", "test",
    "review", "quality", "security"]),
  ("repair", ["수정", "복구", "개선", "고쳐", "fix", "repair", "recover", "improve"]),
  ("research", ["조사", "검색", "비교", "입증", "타당성", "research", "search", "compare",
    "evidence"])]

/-- A term stands for an alias; a Korean alias may be a part of the term. -/
def standsFor (word term : String) : Bool :=
  word = term || (word.toList.any isHangul && decide (word.toList <:+: term.toList))

/-- `_intents`. -/
def intents (terms : List String) : List String :=
  (intentAliases.filter fun entry =>
    entry.2.any fun word => terms.any (standsFor word)).map Prod.fst

/-! ## 2. Ranking -/

inductive RecommendationConfidence where
  | high | medium | low
  deriving DecidableEq, Repr

structure WorkflowRecommendationInput where
  key : String
  version : ℤ
  searchableText : String
  isDefault : Bool := false

def WorkflowRecommendationInput.reference (workflow : WorkflowRecommendationInput) : String × ℤ :=
  (workflow.key, workflow.version)

structure WorkflowRecommendationCandidate where
  definitionKey : String
  definitionVersion : ℤ
  score : ℤ
  matchedTerms : List String
  matchedIntents : List String
  isDefault : Bool

def WorkflowRecommendationCandidate.reference (candidate : WorkflowRecommendationCandidate) :
    String × ℤ :=
  (candidate.definitionKey, candidate.definitionVersion)

structure WorkflowRecommendation where
  policyVersion : String
  confidence : RecommendationConfidence
  requiresConfirmation : Bool
  candidates : List WorkflowRecommendationCandidate

/-- `recommended`. -/
def WorkflowRecommendation.recommended (recommendation : WorkflowRecommendation) :
    Option WorkflowRecommendationCandidate :=
  recommendation.candidates.head?

/-- `sorted(left & right)` of two sets. -/
def common (left right : List String) : List String :=
  (left.filter fun x => x ∈ right).insertionSort (· ≤ ·)

def matchedTerms (prompt : String) (workflow : WorkflowRecommendationInput) : List String :=
  common (tokenize prompt) (tokenize workflow.searchableText)

def matchedIntents (prompt : String) (workflow : WorkflowRecommendationInput) : List String :=
  common (intents (tokenize prompt)) (intents (tokenize workflow.searchableText))

def score (prompt : String) (workflow : WorkflowRecommendationInput) : ℤ :=
  (matchedTerms prompt workflow).length * 4 + (matchedIntents prompt workflow).length * 6 +
    if workflow.isDefault then 1 else 0

/-- The candidate that the loop appends. -/
def candidate (prompt : String) (workflow : WorkflowRecommendationInput) :
    WorkflowRecommendationCandidate where
  definitionKey := workflow.key
  definitionVersion := workflow.version
  score := score prompt workflow
  matchedTerms := matchedTerms prompt workflow
  matchedIntents := matchedIntents prompt workflow
  isDefault := workflow.isDefault

/-- The `key` of the sort. -/
def sortKey (candidate : WorkflowRecommendationCandidate) : ℤ ×ₗ Bool ×ₗ String ×ₗ ℤ :=
  toLex (-candidate.score, toLex (!candidate.isDefault,
    toLex (candidate.definitionKey, -candidate.definitionVersion)))

def ranked (prompt : String) (workflows : List WorkflowRecommendationInput) :
    List WorkflowRecommendationCandidate :=
  sortBy sortKey (workflows.map (candidate prompt))

/-- The thresholds of the policy. -/
def grade (topScore runnerUp : ℤ) : RecommendationConfidence :=
  if 10 ≤ topScore ∧ 4 ≤ topScore - runnerUp then .high
  else if 6 ≤ topScore ∧ runnerUp < topScore then .medium
  else .low

/-- The score at a position, zero behind the end. -/
def scoreAt (candidates : List WorkflowRecommendationCandidate) (i : ℕ) : ℤ :=
  (candidates[i]?.map WorkflowRecommendationCandidate.score).getD 0

def recommendWorkflows (prompt : String) (workflows : List WorkflowRecommendationInput)
    (limit : ℕ) : WorkflowRecommendation :=
  let candidates := (ranked prompt workflows).take limit
  let confidence := grade (scoreAt candidates 0) (scoreAt candidates 1)
  { policyVersion := policyVersion
    confidence := confidence
    requiresConfirmation := confidence ≠ .high
    candidates := candidates }

/-! ## 3. The ranking -/

theorem score_nonneg (prompt : String) (workflow : WorkflowRecommendationInput) :
    0 ≤ score prompt workflow := by
  unfold score
  split <;> omega

theorem reference_of_sortKey_eq {a b : WorkflowRecommendationCandidate}
    (h : sortKey a = sortKey b) : a.reference = b.reference := by
  have hpair := congrArg (fun k : ℤ ×ₗ Bool ×ₗ String ×ₗ ℤ => (ofLex (ofLex k).2).2) h
  have hkey : a.definitionKey = b.definitionKey := congrArg (fun p => (ofLex p).1) hpair
  have hversion : -a.definitionVersion = -b.definitionVersion :=
    congrArg (fun p => (ofLex p).2) hpair
  show (a.definitionKey, a.definitionVersion) = (b.definitionKey, b.definitionVersion)
  rw [hkey, Int.neg_inj.mp hversion]

theorem score_le_of_sortKey_lt {a b : WorkflowRecommendationCandidate} (h : sortKey a < sortKey b) :
    b.score ≤ a.score := by
  unfold sortKey at h
  rw [Prod.Lex.toLex_lt_toLex] at h
  rcases h with h | ⟨h, -⟩
  · dsimp only at h
    omega
  · dsimp only at h
    omega

section

variable {prompt : String} {workflows workflows' : List WorkflowRecommendationInput}

theorem candidates_nodup (prompt : String)
    (h : (workflows.map WorkflowRecommendationInput.reference).Nodup) :
    ((workflows.map (candidate prompt)).map sortKey).Nodup := by
  rw [List.map_map]
  refine List.Nodup.map_on ?_ h.of_map
  intro a ha b hb hkey
  -- distinct references make the keys distinct
  exact List.inj_on_of_nodup_map h ha hb (reference_of_sortKey_eq hkey)

theorem ranked_perm (h : (workflows.map WorkflowRecommendationInput.reference).Nodup)
    (hperm : workflows'.Perm workflows) : ranked prompt workflows' = ranked prompt workflows :=
  SortBy.eq_of_perm (candidates_nodup prompt h) (hperm.map _)

theorem mem_ranked {c : WorkflowRecommendationCandidate} :
    c ∈ ranked prompt workflows ↔ ∃ workflow ∈ workflows, candidate prompt workflow = c := by
  unfold ranked
  rw [SortBy.mem_iff, List.mem_map]

theorem ranked_pairwise (prompt : String)
    (h : (workflows.map WorkflowRecommendationInput.reference).Nodup) :
    (ranked prompt workflows).Pairwise fun a b => b.score ≤ a.score :=
  (SortBy.pairwise (candidates_nodup prompt h)).imp score_le_of_sortKey_lt

/-- Every workflow has its place in the ranking, and its score is at most that of the places before. -/
theorem ranked_cases (h : (workflows.map WorkflowRecommendationInput.reference).Nodup)
    {first second : WorkflowRecommendationCandidate} {rest : List WorkflowRecommendationCandidate}
    (hranked : ranked prompt workflows = first :: second :: rest)
    {workflow : WorkflowRecommendationInput} (hmem : workflow ∈ workflows) :
    workflow.reference = first.reference ∧ score prompt workflow = first.score ∨
      score prompt workflow ≤ second.score := by
  have hplace : candidate prompt workflow ∈ first :: second :: rest := by
    rw [← hranked]
    exact mem_ranked.mpr ⟨workflow, hmem, rfl⟩
  have hsorted := ranked_pairwise prompt h
  rw [hranked, List.pairwise_cons, List.pairwise_cons] at hsorted
  rcases List.mem_cons.mp hplace with hfirst | hplace
  · left
    rw [← hfirst]
    exact ⟨rfl, rfl⟩
  · right
    rcases List.mem_cons.mp hplace with hsecond | hrest
    · rw [← hsecond]
      exact le_rfl
    · exact hsorted.2.1 _ hrest

end

/-! ## 4. The verdict -/

/-- What a caller goes by: the recommended workflow and how far it may be trusted. -/
def WorkflowRecommendation.verdict (recommendation : WorkflowRecommendation) :
    Option WorkflowRecommendationCandidate × RecommendationConfidence × Bool :=
  (recommendation.recommended, recommendation.confidence, recommendation.requiresConfirmation)

def verdictOf (candidates : List WorkflowRecommendationCandidate) (runnerUp : ℤ) :
    Option WorkflowRecommendationCandidate × RecommendationConfidence × Bool :=
  (candidates.head?, grade (scoreAt candidates 0) runnerUp,
    grade (scoreAt candidates 0) runnerUp ≠ .high)

/-- From the given limit on: neither the limit nor the order of the workflows changes the verdict, and a
recommendation is taken without confirmation only far ahead of every other workflow. -/
structure StableFrom (least : ℕ) (prompt : String) (workflows : List WorkflowRecommendationInput) :
    Prop where
  verdict : ∀ limit limit' workflows', least ≤ limit → least ≤ limit' →
    workflows'.Perm workflows → (recommendWorkflows prompt workflows' limit').verdict =
      (recommendWorkflows prompt workflows limit).verdict
  margin : ∀ limit, least ≤ limit →
    (recommendWorkflows prompt workflows limit).requiresConfirmation = false →
      ∃ top, (recommendWorkflows prompt workflows limit).recommended = some top ∧
        10 ≤ top.score ∧ ∀ workflow ∈ workflows, workflow.reference ≠ top.reference →
          score prompt workflow + 4 ≤ top.score

/-- A workflow of the highest score is far enough from every other one for the grade that it gets
alone. -/
def Separated (prompt : String) (workflows : List WorkflowRecommendationInput) : Prop :=
  ∀ top ∈ workflows, (∀ workflow ∈ workflows, score prompt workflow ≤ score prompt top) →
    ∀ other ∈ workflows, other.reference ≠ top.reference →
      score prompt top < 6 ∨
        (score prompt top < 10 ∧ score prompt other < score prompt top) ∨
          score prompt other + 4 ≤ score prompt top

theorem grade_high_iff {topScore runnerUp : ℤ} :
    grade topScore runnerUp = .high ↔ 10 ≤ topScore ∧ 4 ≤ topScore - runnerUp := by
  unfold grade
  split_ifs with hhigh hmedium
  · simp [hhigh]
  · simp [hhigh]
  · simp [hhigh]

/-- When the runner-up matters. -/
theorem grade_eq_iff {topScore runnerUp : ℤ} :
    grade topScore runnerUp = grade topScore 0 ↔
      topScore < 6 ∨ (topScore < 10 ∧ runnerUp < topScore) ∨ runnerUp + 4 ≤ topScore := by
  unfold grade
  split_ifs <;> simp <;> omega

section

variable {prompt : String} {workflows : List WorkflowRecommendationInput} {limit : ℕ}

theorem scoreAt_take {candidates : List WorkflowRecommendationCandidate} {i : ℕ} (h : i < limit) :
    scoreAt (candidates.take limit) i = scoreAt candidates i := by
  unfold scoreAt
  rw [List.getElem?_take_of_lt h]

theorem scoreAt_one_take_one {candidates : List WorkflowRecommendationCandidate} :
    scoreAt (candidates.take 1) 1 = 0 := by
  unfold scoreAt
  rw [List.getElem?_take_eq_none le_rfl]
  rfl

theorem head?_take {candidates : List WorkflowRecommendationCandidate} (h : 1 ≤ limit) :
    (candidates.take limit).head? = candidates.head? := by
  rw [List.head?_take, if_neg (by omega)]

/-- With a limit of one nobody comes second. -/
theorem verdict_one : (recommendWorkflows prompt workflows 1).verdict =
    verdictOf (ranked prompt workflows) 0 := by
  unfold WorkflowRecommendation.verdict recommendWorkflows verdictOf
    WorkflowRecommendation.recommended
  dsimp only
  rw [head?_take le_rfl, scoreAt_take (by decide), scoreAt_one_take_one]

theorem verdict_of_two_le (h : 2 ≤ limit) : (recommendWorkflows prompt workflows limit).verdict =
    verdictOf (ranked prompt workflows) (scoreAt (ranked prompt workflows) 1) := by
  unfold WorkflowRecommendation.verdict recommendWorkflows verdictOf
    WorkflowRecommendation.recommended
  dsimp only
  rw [head?_take (by omega), scoreAt_take (by omega), scoreAt_take (by omega)]

/-- What stands behind a verdict that needs no confirmation. -/
theorem margin_of_verdict {runnerUp : ℤ}
    (hverdict : (recommendWorkflows prompt workflows limit).verdict =
      verdictOf (ranked prompt workflows) runnerUp)
    (h : (recommendWorkflows prompt workflows limit).requiresConfirmation = false) :
    10 ≤ scoreAt (ranked prompt workflows) 0 ∧
      4 ≤ scoreAt (ranked prompt workflows) 0 - runnerUp ∧
      ∃ top rest, ranked prompt workflows = top :: rest ∧
        (recommendWorkflows prompt workflows limit).recommended = some top := by
  obtain ⟨hrecommended, hrest⟩ := Prod.mk.inj hverdict
  have hconfirmation := (Prod.mk.inj hrest).2
  rw [h] at hconfirmation
  have hhigh : grade (scoreAt (ranked prompt workflows) 0) runnerUp = .high := by
    simpa using hconfirmation.symm
  obtain ⟨hten, hmargin⟩ := grade_high_iff.mp hhigh
  refine ⟨hten, hmargin, ?_⟩
  cases hranked : ranked prompt workflows with
  | nil =>
    rw [hranked] at hten
    exact absurd hten (by decide)
  | cons top rest =>
    rw [hranked] at hrecommended
    exact ⟨top, rest, rfl, hrecommended⟩

/-- The condition read off the first two places. -/
theorem separated_iff (h : (workflows.map WorkflowRecommendationInput.reference).Nodup)
    {first second : WorkflowRecommendationCandidate} {rest : List WorkflowRecommendationCandidate}
    (hranked : ranked prompt workflows = first :: second :: rest) :
    Separated prompt workflows ↔ first.score < 6 ∨
      (first.score < 10 ∧ second.score < first.score) ∨ second.score + 4 ≤ first.score := by
  have hsorted := ranked_pairwise prompt h
  rw [hranked, List.pairwise_cons, List.pairwise_cons] at hsorted
  have hle : second.score ≤ first.score := hsorted.1 second List.mem_cons_self
  obtain ⟨top, htop, rfl⟩ := mem_ranked.mp (hranked ▸ List.mem_cons_self)
  obtain ⟨next, hnext, rfl⟩ := mem_ranked.mp (hranked ▸ List.mem_cons_of_mem _ List.mem_cons_self)
  have hbest : ∀ workflow ∈ workflows, score prompt workflow ≤ score prompt top := by
    intro workflow hmem
    rcases ranked_cases h hranked hmem with ⟨-, hsame⟩ | hlower
    · exact hsame.le
    · exact hlower.trans hle
  have hdistinct : next.reference ≠ top.reference := by
    intro hsame
    have hkeys := SortBy.pairwise (candidates_nodup prompt h)
    change (ranked prompt workflows).Pairwise _ at hkeys
    rw [hranked, List.pairwise_cons] at hkeys
    have hequal := List.inj_on_of_nodup_map h hnext htop hsame
    exact absurd (hkeys.1 _ List.mem_cons_self) (by rw [hequal]; exact lt_irrefl _)
  constructor
  · intro hseparated
    exact hseparated top htop hbest next hnext hdistinct
  · intro hcondition best hmem hmax other hother hne
    have hbestScore : score prompt best = score prompt top :=
      le_antisymm (hbest best hmem) (hmax top htop)
    have hcondition' : score prompt top < 6 ∨
        (score prompt top < 10 ∧ score prompt next < score prompt top) ∨
          score prompt next + 4 ≤ score prompt top := hcondition
    rw [hbestScore]
    rcases ranked_cases h hranked hother with ⟨hreference, hsame⟩ | hlower
    · -- the other is the first, so the best is a tie further down
      have hsame' : score prompt other = score prompt top := hsame
      rcases ranked_cases h hranked hmem with ⟨hbestReference, -⟩ | hbestLower
      · exact absurd (hreference.trans hbestReference.symm) hne
      · have hbestLower' : score prompt best ≤ score prompt next := hbestLower
        omega
    · have hlower' : score prompt other ≤ score prompt next := hlower
      omega

/-- The condition in terms of the grades. -/
theorem separated_iff_grade (h : (workflows.map WorkflowRecommendationInput.reference).Nodup) :
    Separated prompt workflows ↔
      grade (scoreAt (ranked prompt workflows) 0) (scoreAt (ranked prompt workflows) 1) =
        grade (scoreAt (ranked prompt workflows) 0) 0 := by
  rcases hranked : ranked prompt workflows with _ | ⟨first, _ | ⟨second, rest⟩⟩
  · -- no workflow at all
    refine iff_of_true ?_ rfl
    intro top htop
    have hplace : candidate prompt top ∈ ranked prompt workflows := mem_ranked.mpr ⟨top, htop, rfl⟩
    rw [hranked] at hplace
    exact absurd hplace List.not_mem_nil
  · -- a single one has no other beside it
    refine iff_of_true ?_ rfl
    intro top htop _ other hother hne
    have hfirst : ∀ workflow ∈ workflows, candidate prompt workflow = first := by
      intro workflow hmem
      rw [← List.mem_singleton, ← hranked]
      exact mem_ranked.mpr ⟨workflow, hmem, rfl⟩
    have hsame : candidate prompt other = candidate prompt top :=
      (hfirst other hother).trans (hfirst top htop).symm
    exact absurd (congrArg WorkflowRecommendationCandidate.reference hsame) hne
  · rw [separated_iff h hranked]
    exact grade_eq_iff.symm

/-- A verdict that knows the runner-up keeps the margin. -/
theorem margin_of_runnerUp (h : (workflows.map WorkflowRecommendationInput.reference).Nodup)
    (hverdict : (recommendWorkflows prompt workflows limit).verdict =
      verdictOf (ranked prompt workflows) (scoreAt (ranked prompt workflows) 1))
    (hconfirmed : (recommendWorkflows prompt workflows limit).requiresConfirmation = false) :
    ∃ top, (recommendWorkflows prompt workflows limit).recommended = some top ∧
      10 ≤ top.score ∧ ∀ workflow ∈ workflows, workflow.reference ≠ top.reference →
        score prompt workflow + 4 ≤ top.score := by
  obtain ⟨hten, hmargin, top, rest, hranked, hrecommended⟩ := margin_of_verdict hverdict hconfirmed
  rw [hranked] at hten hmargin
  refine ⟨top, hrecommended, hten, ?_⟩
  intro workflow hmem hne
  cases rest with
  | nil =>
    have hsingle : candidate prompt workflow ∈ ranked prompt workflows :=
      mem_ranked.mpr ⟨workflow, hmem, rfl⟩
    rw [hranked, List.mem_singleton] at hsingle
    exact absurd (congrArg WorkflowRecommendationCandidate.reference hsingle) hne
  | cons second rest =>
    have hmargin' : 4 ≤ top.score - second.score := hmargin
    rcases ranked_cases h hranked hmem with ⟨hsame, -⟩ | hlower
    · exact absurd hsame hne
    · omega

theorem stableFrom_of_verdict (h : (workflows.map WorkflowRecommendationInput.reference).Nodup)
    {least : ℕ} (hverdict : ∀ workflows' limit, workflows'.Perm workflows → least ≤ limit →
      (recommendWorkflows prompt workflows' limit).verdict =
        verdictOf (ranked prompt workflows) (scoreAt (ranked prompt workflows) 1)) :
    StableFrom least prompt workflows where
  verdict limit limit' workflows' hlimit hlimit' hperm := by
    rw [hverdict workflows' limit' hperm hlimit', hverdict workflows limit (.refl _) hlimit]
  margin limit hlimit hconfirmed :=
    margin_of_runnerUp h (hverdict workflows limit (.refl _) hlimit) hconfirmed

theorem stableFrom_two (h : (workflows.map WorkflowRecommendationInput.reference).Nodup) :
    StableFrom 2 prompt workflows := by
  apply stableFrom_of_verdict h
  intro workflows' limit hperm hlimit
  rw [verdict_of_two_le hlimit, ranked_perm h hperm]

theorem stableFrom_one_iff (h : (workflows.map WorkflowRecommendationInput.reference).Nodup) :
    StableFrom 1 prompt workflows ↔ Separated prompt workflows := by
  rw [separated_iff_grade h]
  constructor
  · intro hstable
    -- the limits one and two already tell the grades apart
    have hverdict := hstable.verdict 1 2 workflows le_rfl (by omega) (.refl _)
    rw [verdict_one, verdict_of_two_le le_rfl] at hverdict
    exact congrArg (fun verdict => verdict.2.1) hverdict
  · intro hgrade
    apply stableFrom_of_verdict h
    intro workflows' limit hperm hlimit
    rcases hlimit.eq_or_lt with rfl | hlimit
    · rw [verdict_one, ranked_perm h hperm]
      unfold verdictOf
      rw [hgrade]
    · rw [verdict_of_two_le hlimit, ranked_perm h hperm]

end

/-! ## 5. The recorded recommendation -/

section

open Application

variable {δ : Type} [DecidableEq δ]

/-- The event `project.workflow_recommended`. -/
structure RecordedWorkflowRecommendation (δ : Type) where
  projectId : UUID
  promptDigest : δ
  recommendation : WorkflowRecommendation

/-- `RequestDispatchService.recommend_workflows` over the workflows of `list_workflow_options`. -/
def recommendService (promptDigest : String → δ) (options : List WorkflowRecommendationInput)
    (projectId : UUID) (prompt : String) (limit : ℕ) :
    Except ServiceError (RecordedWorkflowRecommendation δ) :=
  if Text.strip prompt = "" then
    .error (.resourceConflict "workflow recommendation prompt must not be empty")
  else if limit < 1 ∨ 10 < limit then
    .error (.resourceConflict "workflow recommendation limit must be between 1 and 10")
  else
    .ok
      { projectId := projectId
        promptDigest := promptDigest (Text.strip prompt)
        recommendation := recommendWorkflows (Text.strip prompt) options limit }

inductive SelectionSource where
  | policyRecommendation | confirmedRecommendation
  deriving DecidableEq, Repr

/-- The workflow that `dispatch` takes from a recommendation: its first candidate, or the one that the
request names. -/
def selectRecommended (promptDigest : String → δ)
    (event : Option (RecordedWorkflowRecommendation δ)) (recommendationId projectId : UUID)
    (prompt : String) (definition : Option (String × ℤ)) :
    Except ServiceError ((String × ℤ) × SelectionSource) :=
  match event.filter fun event => event.projectId = projectId with
  | none => .error (notFound "workflow recommendation" recommendationId)
  | some event =>
    if event.promptDigest ≠ promptDigest (Text.strip prompt) then
      .error (.resourceConflict "workflow recommendation prompt does not match request")
    else
      match definition with
      | none =>
        if event.recommendation.requiresConfirmation then
          .error (.resourceConflict "workflow recommendation requires confirmation")
        else
          -- an empty recommendation is of low confidence and does not get here
          match event.recommendation.recommended with
          | none => .error (.resourceConflict "workflow recommendation has no candidate")
          | some recommended => .ok (recommended.reference, .policyRecommendation)
      | some selected =>
        if selected ∈ event.recommendation.candidates.map
            WorkflowRecommendationCandidate.reference then
          .ok (selected, .confirmedRecommendation)
        else
          .error (.resourceConflict "selected workflow is not a recommendation candidate")

variable {promptDigest : String → δ} {event : RecordedWorkflowRecommendation δ}
  {recommendationId projectId : UUID} {prompt : String} {definition : Option (String × ℤ)}
  {selected : String × ℤ}

/-- Only a recommendation that needs no confirmation is taken as it is. -/
theorem policy_selection (h : selectRecommended promptDigest (some event) recommendationId projectId
      prompt definition = .ok (selected, .policyRecommendation)) :
    event.recommendation.requiresConfirmation = false ∧
      ∃ recommended, event.recommendation.recommended = some recommended ∧
        recommended.reference = selected := by
  unfold selectRecommended at h
  by_cases hproject : event.projectId = projectId
  · rw [Option.filter_some_pos (by simpa using hproject)] at h
    dsimp only at h
    split at h
    · cases h
    · cases definition with
      | none =>
        dsimp only at h
        split at h
        · cases h
        · rename_i hconfirmed
          refine ⟨by simpa using hconfirmed, ?_⟩
          split at h
          · cases h
          · rename_i recommended hrecommended
            cases h
            exact ⟨recommended, hrecommended, rfl⟩
      | some named =>
        dsimp only at h
        split at h <;> cases h
  · rw [Option.filter_some_neg (by simpa using hproject)] at h
    cases h

/-- Of a recommendation of several candidates no near tie is taken without confirmation. -/
theorem policy_selection_margin {options : List WorkflowRecommendationInput} {limit : ℕ}
    {asked : String} (hlimit : 2 ≤ limit)
    (hdistinct : (options.map WorkflowRecommendationInput.reference).Nodup)
    (hrecorded : recommendService promptDigest options projectId asked limit = .ok event)
    (hselected : selectRecommended promptDigest (some event) recommendationId projectId prompt
      definition = .ok (selected, .policyRecommendation)) :
    ∃ top : WorkflowRecommendationCandidate, top.reference = selected ∧ 10 ≤ top.score ∧ ∀ workflow ∈ options,
      workflow.reference ≠ selected → score (Text.strip asked) workflow + 4 ≤ top.score := by
  obtain ⟨hconfirmed, recommended, hrecommended, rfl⟩ := policy_selection hselected
  unfold recommendService at hrecorded
  split at hrecorded
  · cases hrecorded
  · split at hrecorded
    · cases hrecorded
    · cases hrecorded
      obtain ⟨top, htop, hten, hmargin⟩ := (stableFrom_two hdistinct).margin limit hlimit hconfirmed
      rw [hrecommended] at htop
      cases htop
      exact ⟨recommended, rfl, hten, hmargin⟩

end

/-! ## 6. Presentation -/

/-- Over all limits a verdict is independent of the presentation if the best workflow stands out, and
over the limits from two on it always is. -/
theorem recommendation_stable_iff (prompt : String) (workflows : List WorkflowRecommendationInput)
    (h : (workflows.map WorkflowRecommendationInput.reference).Nodup) :
    (StableFrom 1 prompt workflows ↔ Separated prompt workflows) ∧
      StableFrom 2 prompt workflows :=
  ⟨stableFrom_one_iff h, stableFrom_two h⟩

def sampleWorkflows : List WorkflowRecommendationInput := [
  { key := "release", version := 1, searchableText := "review release code", isDefault := true },
  { key := "audit", version := 1, searchableText := "review code" }]

theorem recommendation_stable_iff_sample :
    (StableFrom 1 "review code" sampleWorkflows ↔ Separated "review code" sampleWorkflows) ∧
      StableFrom 2 "review code" sampleWorkflows :=
  recommendation_stable_iff "review code" sampleWorkflows (by decide)

/-- With a limit of one the workflow is taken although another one is a point behind. -/
theorem near_tie_confirmed :
    ¬ ∀ prompt workflows, (workflows.map WorkflowRecommendationInput.reference).Nodup →
      StableFrom 1 prompt workflows := by
  intro hstable
  have hverdict := (hstable "review code" sampleWorkflows (by decide)).verdict 1 2 sampleWorkflows
    le_rfl (by decide) (.refl _)
  have hconfidence := congrArg (fun verdict => verdict.2.1) hverdict
  revert hconfidence
  decide +kernel

end JbOrchestrator.Recommendations
