import JbOrchestrator.Budgets.Ledger
import JbOrchestrator.ModelRouting.Optimality

/-!
# Coverage — a reservation covers the usage it was made for

The reserved amount and the settled cost are the same formula on the estimated and on the reported
tokens, and rounding keeps their order.  While every usage stays within its estimate, no account
exceeds its limit.
-/

open Lib

namespace JbOrchestrator.Budgets

open Domain Workflows Application

/-! ## 1. Estimates -/

/-- A selection that the router made, with the request that it was made for. -/
structure Estimate where
  request : ModelRoutingRequest
  selection : ModelSelection
  routed : ∃ profiles executorKey, (∀ profile ∈ profiles, ModelProfile.Accepted profile) ∧
    ModelRouting.route request profiles executorKey = .ok selection

/-- The reported tokens stay within the estimated ones. -/
structure Estimate.Covers (estimate : Estimate) (usage : TokenUsage) : Prop where
  input : usage.inputTokens ≤ estimate.request.estimatedInputTokens
  output : usage.outputTokens ≤ estimate.request.maxOutputTokens

/-- What `reserve` takes for the selection. -/
def Estimate.amount (estimate : Estimate) : Decimal := money estimate.selection.estimatedCostUsd

theorem Estimate.accepted (estimate : Estimate) :
    estimate.selection.profile.Accepted ∧ estimate.selection.estimatedCostUsd =
      ModelRouting.estimateCost estimate.selection.profile estimate.request := by
  obtain ⟨profiles, executorKey, haccepted, hroute⟩ := estimate.routed
  obtain ⟨profile, hbest, hselection⟩ := ModelRouting.route_ok_iff.mp hroute
  rw [ModelRouting.best_eq_argmin] at hbest
  rw [hselection]
  exact ⟨haccepted profile (List.mem_of_mem_filter (List.argmin_mem hbest)), rfl⟩

/-- Settling a covered usage costs no more than was reserved. -/
theorem Estimate.actualCost_le {estimate : Estimate} {usage : TokenUsage}
    (h : estimate.Covers usage) :
    actualCost estimate.selection.profile usage ≤ estimate.amount := by
  obtain ⟨haccepted, hcost⟩ := estimate.accepted
  unfold actualCost Estimate.amount money
  rw [hcost]
  apply quantize_mono
  exact ModelRouting.tokenCost_mono haccepted h.input h.output

/-! ## 2. The invariant -/

/-- The selection is pinned: every claim under the idempotency key of a task carries it. -/
abbrev Pinned := String → Option Estimate

structure Covered (pinned : Pinned) (books : Books) : Prop where
  conserved : Conserved books
  amounts : ∀ reservation ∈ books.reservations, ∃ estimate,
    pinned reservation.idempotencyKey = some estimate ∧ reservation.reservedUsd = estimate.amount
  limits : ∀ projectId account, books.accounts.get? projectId = some account →
    account.reservedUsd + account.spentUsd ≤ account.limitUsd

/-- The worker reserves with the pinned selection and settles the reservation of the claim with a
usage within its estimate. -/
def Call.Covers (pinned : Pinned) : Call → Prop
  | .reserve _ claim _ _ =>
    claim.modelSelection = (pinned claim.idempotencyKey).map Estimate.selection
  | .settle claim reservation usage _ _ =>
    claim.modelSelection = (pinned claim.idempotencyKey).map Estimate.selection ∧
      (∀ stored, reservation = some stored → stored.idempotencyKey = claim.idempotencyKey) ∧
      ∀ reported estimate, usage = some reported → pinned claim.idempotencyKey = some estimate →
        estimate.Covers reported
  | .configure .. | .forfeit .. | .releaseRunReservations .. => True

theorem Covered.empty (pinned : Pinned) : Covered pinned {} where
  conserved := .empty
  amounts := List.forall_mem_nil _
  limits _ _ h := by simp at h

section

variable {pinned : Pinned} {books books' : Books} {account account' : BudgetAccount} {at_ : Instant}

/-- Saving an account within its limit. -/
theorem limits_saved (h : Covered pinned books)
    (haccount : account.reservedUsd + account.spentUsd ≤ account.limitUsd)
    {projectId : UUID} {stored : BudgetAccount}
    (hstored : (books.saveAccount account).accounts.get? projectId = some stored) :
    stored.reservedUsd + stored.spentUsd ≤ stored.limitUsd := by
  rw [get?_saveAccount] at hstored
  by_cases hsame : projectId = account.projectId
  · rw [if_pos hsame] at hstored
    obtain rfl := Option.some.inj hstored
    exact haccount
  · rw [if_neg hsame] at hstored
    exact h.limits projectId stored hstored

/-- Calls that open nothing keep the key and the amount of every reservation. -/
theorem Effect.exists_amount (h : Effect (fun _ => False) books books') :
    ∀ reservation ∈ books'.reservations, ∃ stored ∈ books.reservations,
      stored.idempotencyKey = reservation.idempotencyKey ∧
        stored.reservedUsd = reservation.reservedUsd := by
  induction h with
  | kept hreservations =>
    intro reservation hmem
    rw [hreservations] at hmem
    exact ⟨reservation, hmem, rfl, rfl⟩
  | opened hrun => exact hrun.elim
  | @closed books books' stored closed hmem hcloses hstatus hids hreservations =>
    intro reservation hreservation
    rw [hreservations] at hreservation
    rcases mem_put hreservation with rfl | ⟨hold, -⟩
    · exact ⟨stored, hmem, hcloses.key.symm, hcloses.amount.symm⟩
    · exact ⟨reservation, hold, rfl, rfl⟩
  | trans _ _ ih ih' =>
    intro reservation hmem
    obtain ⟨middle, hmiddle, hkey, hamount⟩ := ih' reservation hmem
    obtain ⟨stored, hstored, hkey', hamount'⟩ := ih middle hmiddle
    exact ⟨stored, hstored, hkey'.trans hkey, hamount'.trans hamount⟩

theorem Covered.amounts_of_effect (h : Covered pinned books)
    (heffect : Effect (fun _ => False) books books') :
    ∀ reservation ∈ books'.reservations, ∃ estimate,
      pinned reservation.idempotencyKey = some estimate ∧
        reservation.reservedUsd = estimate.amount := by
  intro reservation hmem
  obtain ⟨stored, hstored, hkey, hamount⟩ := heffect.exists_amount reservation hmem
  obtain ⟨estimate, hpinned, hestimate⟩ := h.amounts stored hstored
  exact ⟨estimate, hkey ▸ hpinned, hamount ▸ hestimate⟩

/-! ## 3. Services -/

theorem configure_limits {view : Surroundings} {projectId id : UUID} {limitUsd : Decimal}
    (h : Covered pinned books)
    (hconfigure : configure books view projectId limitUsd id at_ = .ok (account, books')) :
    ∀ projectId account, books'.accounts.get? projectId = some account →
      account.reservedUsd + account.spentUsd ≤ account.limitUsd := by
  unfold configure at hconfigure
  split at hconfigure
  · cases hconfigure
  split at hconfigure
  · obtain ⟨created, hcreate, hconfigure⟩ := bind_ok hconfigure
    obtain ⟨-, rfl⟩ := Prod.mk.inj (Except.ok.inj hconfigure)
    unfold Account.create at hcreate
    split at hcreate
    · cases hcreate
    · rename_i hnonneg
      obtain rfl := Except.ok.inj hcreate
      intro projectId stored hstored
      apply limits_saved h _ hstored
      show 0 + 0 ≤ money limitUsd
      rw [add_zero]
      exact not_lt.mp hnonneg
  · obtain ⟨changed, hset, hconfigure⟩ := bind_ok hconfigure
    obtain ⟨-, rfl⟩ := Prod.mk.inj (Except.ok.inj hconfigure)
    unfold Account.setLimit at hset
    split at hset
    · cases hset
    · -- a limit below the commitments was refused
      rename_i hcommitted
      obtain rfl := Except.ok.inj hset
      intro projectId stored hstored
      exact limits_saved h (not_lt.mp hcommitted) hstored

theorem openReservation_covered {projectId id : UUID} {claim : TaskClaim}
    {selection : ModelSelection} {estimate : Estimate} {reservation : BudgetReservation}
    (h : Covered pinned books) (hfound : books.accounts.get? projectId = some account)
    (hpinned : pinned claim.idempotencyKey = some estimate) (hselection : estimate.selection = selection)
    (hopen : openReservation books account projectId claim selection id at_ =
      .ok (reservation, books')) : Covered pinned books' := by
  obtain ⟨hconserved, hreservations, -, hkey, -⟩ := openReservation_spec h.conserved hfound hopen
  obtain ⟨account', hreserve, hcreate, hadd⟩ := openReservation_ok hopen
  obtain ⟨rfl, -, -⟩ := addReservation_ok hadd
  obtain ⟨-, -, -, -, -, hamount, -⟩ := Reservation.create_ok hcreate
  have hmicro : Micro (money selection.estimatedCostUsd) := micro_money _
  have hbalanced := h.conserved.balanced projectId account hfound
  obtain ⟨-, -, hlimit⟩ := Account.reserve_ok hbalanced.limit (h.conserved.reserved_micro hfound)
    (h.conserved.spent_micro hfound) hmicro hreserve
  refine ⟨hconserved, ?_, fun _ _ hstored => limits_saved h hlimit hstored⟩
  intro other hmem
  rw [hreservations] at hmem
  rcases List.mem_append.mp hmem with hold | hnew
  · exact h.amounts other hold
  · rw [List.mem_singleton.mp hnew, hkey]
    refine ⟨estimate, hpinned, ?_⟩
    rw [hamount, hmicro.money_eq, Estimate.amount, hselection]

theorem reserve_covered {view : Surroundings} {claim : TaskClaim} {id : UUID}
    {answer : Option BudgetReservation} (h : Covered pinned books)
    (hpinned : claim.modelSelection = (pinned claim.idempotencyKey).map Estimate.selection)
    (hreserve : reserve books view claim id at_ = .ok (answer, books')) : Covered pinned books' := by
  unfold reserve at hreserve
  split at hreserve
  · obtain ⟨-, rfl⟩ := Prod.mk.inj (Except.ok.inj hreserve)
    exact h
  rename_i selection hselection
  split at hreserve
  · obtain ⟨-, rfl⟩ := Prod.mk.inj (Except.ok.inj hreserve)
    exact h
  obtain ⟨projectId, -, hreserve⟩ := bind_ok hreserve
  dsimp only at hreserve
  split at hreserve
  · obtain ⟨-, rfl⟩ := Prod.mk.inj (Except.ok.inj hreserve)
    exact h
  rename_i account hfound
  obtain ⟨⟨reservation, opened⟩, hopen, hreserve⟩ := bind_ok hreserve
  obtain ⟨-, rfl⟩ := Prod.mk.inj (Except.ok.inj hreserve)
  rw [hselection] at hpinned
  obtain ⟨estimate, hestimate, hsame⟩ := Option.map_eq_some_iff.mp hpinned.symm
  exact openReservation_covered h hfound hestimate hsame hopen

theorem Account.settle_limit {reserved cost : Decimal}
    (h : Account.settle account reserved cost at_ = .ok account') :
    account'.limitUsd = account.limitUsd := by
  unfold Account.settle at h
  split at h
  · cases h
  · obtain rfl := Except.ok.inj h
    rfl

theorem Account.release_limit {amount : Decimal}
    (h : Account.release account amount at_ = .ok account') :
    account'.limitUsd = account.limitUsd := by
  unfold Account.release at h
  split at h
  · cases h
  · obtain rfl := Except.ok.inj h
    rfl

/-- A cost up to the reserved amount leaves the account within its limit. -/
theorem finalize_covered {claim : TaskClaim} {reservation : BudgetReservation} {usage : TokenUsage}
    {kind : UsageKind} {id : UUID} {record : UsageRecord} (h : Covered pinned books)
    (hcost : ∀ selection estimate, claim.modelSelection = some selection →
      pinned reservation.idempotencyKey = some estimate → kind = .actual →
        actualCost selection.profile usage ≤ estimate.amount)
    (hfinalize : finalize books claim reservation usage kind id at_ = .ok (record, books')) :
    Covered pinned books' := by
  have hspec : Conserved books' ∧ Effect (fun _ => False) books books' ∧
      books'.Finalized reservation.idempotencyKey := finalize_spec h.conserved hfinalize
  obtain ⟨hconserved, heffect, -⟩ := hspec
  refine ⟨hconserved, h.amounts_of_effect heffect, ?_⟩
  obtain ⟨selection, stored, account, hselection, hstored, hfound, hcases⟩ := finalize_ok hfinalize
  obtain ⟨hmem, hkey⟩ := reservation_some hstored
  rcases hcases with ⟨-, rfl⟩ | ⟨cost, closed, account', hclose, hsettle, hcreate, hadd⟩
  · exact h.limits
  obtain rfl := addUsage_ok hadd
  obtain ⟨estimate, hestimate, hamount⟩ := h.amounts stored hmem
  obtain ⟨hcloses, -, hmicro⟩ := closeReservation_spec (h.conserved.amounts stored hmem) hclose
  obtain ⟨settled, hsettled, hadjusts⟩ : ∃ settled,
      Account.settle account stored.reservedUsd cost at_ = .ok settled ∧
        Adjusts account settled (-stored.reservedUsd) cost :=
    account_settles h.conserved hfound hmem hcloses.reserved hmicro
  have hsame : settled = account' := Except.ok.inj (hsettled.symm.trans hsettle)
  have hbound : cost ≤ stored.reservedUsd := by
    cases kind with
    | actual =>
      obtain ⟨settledReservation, -, hclosed⟩ := bind_ok hclose
      obtain ⟨rfl, -⟩ := Prod.mk.inj (Except.ok.inj hclosed)
      rw [hamount]
      exact hcost selection estimate hselection (hkey ▸ hestimate) rfl
    | estimatedForfeit =>
      obtain ⟨forfeited, -, hclosed⟩ := bind_ok hclose
      obtain ⟨rfl, -⟩ := Prod.mk.inj (Except.ok.inj hclosed)
      exact le_rfl
  intro projectId other hother
  apply limits_saved h _ hother
  have hlimit := h.limits _ account hfound
  rw [Account.settle_limit hsettle, ← hsame, hadjusts.reserved, hadjusts.spent]
  linarith

/-- Releasing takes from what is reserved. -/
theorem releaseAll_limits {runId projectId : UUID} {reservations : List BudgetReservation}
    (hreleasing : Releasing projectId account books reservations)
    (h : releaseAll runId projectId at_ account books reservations = .ok (account', books')) :
    account'.limitUsd = account.limitUsd ∧ books'.accounts = books.accounts ∧
      account'.reservedUsd + account'.spentUsd ≤ account.reservedUsd + account.spentUsd := by
  induction reservations generalizing account books with
  | nil =>
    obtain ⟨rfl, rfl⟩ := Prod.mk.inj (Except.ok.inj h)
    exact ⟨rfl, rfl, le_rfl⟩
  | cons first reservations ih =>
    unfold releaseAll at h
    split at h
    · cases h
    rename_i hproject
    obtain ⟨next, released, hrelease, hreleased, -, -, hnext⟩ :=
      hreleasing.next at_ (not_not.mp hproject)
    simp only [hrelease, hreleased, bind, Except.bind] at h
    obtain ⟨hlimit, haccounts, hle⟩ := ih hnext h
    refine ⟨hlimit.trans (Account.release_limit hrelease), haccounts, hle.trans ?_⟩
    have hfound : (books.saveAccount account).accounts.get? account.projectId = some account := by
      rw [get?_saveAccount, if_pos rfl]
    have hmem := (hreleasing.reserved first List.mem_cons_self).1
    have hamount : Micro first.reservedUsd ∧ 0 ≤ first.reservedUsd :=
      hreleasing.conserved.amounts first hmem
    have hreserved : next.reservedUsd = money (account.reservedUsd - money first.reservedUsd) ∧
        next.spentUsd = account.spentUsd := by
      unfold Account.release at hrelease
      split at hrelease
      · cases hrelease
      · obtain rfl := Except.ok.inj hrelease
        exact ⟨rfl, rfl⟩
    rw [hreserved.1, hreserved.2, hamount.1.money_eq, Micro.money_eq
      ((hreleasing.conserved.reserved_micro hfound).sub hamount.1)]
    linarith [hamount.2]

theorem releaseRunReservations_limits {runId : UUID} {count : ℕ} (h : Covered pinned books)
    (hrelease : releaseRunReservations books runId at_ = .ok (count, books')) :
    ∀ projectId account, books'.accounts.get? projectId = some account →
      account.reservedUsd + account.spentUsd ≤ account.limitUsd := by
  unfold releaseRunReservations at hrelease
  split at hrelease
  · obtain ⟨-, rfl⟩ := Prod.mk.inj (Except.ok.inj hrelease)
    exact h.limits
  rename_i first rest hlist
  split at hrelease
  · cases hrelease
  rename_i account hfound
  obtain ⟨⟨account', released⟩, hall, hrelease⟩ := bind_ok hrelease
  obtain ⟨-, rfl⟩ := Prod.mk.inj (Except.ok.inj hrelease)
  obtain ⟨hlimit, haccounts, hle⟩ := releaseAll_limits (releasing_start h.conserved hlist hfound) hall
  have hwithin : account'.reservedUsd + account'.spentUsd ≤ account'.limitUsd := by
    rw [hlimit]
    exact hle.trans (h.limits _ account hfound)
  intro projectId stored hstored
  have hsaved : (books.saveAccount account').accounts.get? projectId = some stored := by
    rw [get?_saveAccount] at hstored ⊢
    rw [← haccounts]
    exact hstored
  exact limits_saved h hwithin hsaved

/-! ## 4. Runs -/

theorem Call.perform_covered {call : Call} {answer : Answer} (h : Covered pinned books)
    (hcovers : call.Covers pinned) (hperform : call.perform books = .ok (answer, books')) :
    Covered pinned books' := by
  obtain ⟨hconserved, heffect, -, -⟩ := Call.perform_spec h.conserved hperform
  cases call with
  | configure =>
    obtain ⟨⟨account, configured⟩, hconfigure, hperform⟩ := bind_ok hperform
    obtain ⟨-, rfl⟩ := Prod.mk.inj (Except.ok.inj hperform)
    exact ⟨hconserved, h.amounts_of_effect heffect, configure_limits h hconfigure⟩
  | reserve =>
    obtain ⟨⟨reservation, reserved⟩, hreserve, hperform⟩ := bind_ok hperform
    obtain ⟨-, rfl⟩ := Prod.mk.inj (Except.ok.inj hperform)
    exact reserve_covered h hcovers hreserve
  | settle claim reservation usage =>
    obtain ⟨⟨record, settled⟩, hsettle, hperform⟩ := bind_ok hperform
    obtain ⟨-, rfl⟩ := Prod.mk.inj (Except.ok.inj hperform)
    unfold Budgets.settle at hsettle
    split at hsettle
    · obtain ⟨-, rfl⟩ := Prod.mk.inj (Except.ok.inj hsettle)
      exact h
    · cases hsettle
    · rename_i reservation usage
      obtain ⟨⟨record, finalized⟩, hfinalize, hsettle⟩ := bind_ok hsettle
      obtain ⟨-, rfl⟩ := Prod.mk.inj (Except.ok.inj hsettle)
      obtain ⟨hpinned, hkey, husage⟩ := hcovers
      apply finalize_covered h _ hfinalize
      intro selection estimate hselection hestimate _
      rw [hkey reservation rfl] at hestimate
      rw [hestimate, hselection] at hpinned
      rw [Option.some.inj hpinned]
      exact Estimate.actualCost_le (husage usage estimate rfl hestimate)
  | forfeit claim reservation =>
    obtain ⟨⟨record, forfeited⟩, hforfeit, hperform⟩ := bind_ok hperform
    obtain ⟨-, rfl⟩ := Prod.mk.inj (Except.ok.inj hperform)
    unfold Budgets.forfeit at hforfeit
    split at hforfeit
    · obtain ⟨-, rfl⟩ := Prod.mk.inj (Except.ok.inj hforfeit)
      exact h
    · obtain ⟨⟨record, finalized⟩, hfinalize, hforfeit⟩ := bind_ok hforfeit
      obtain ⟨-, rfl⟩ := Prod.mk.inj (Except.ok.inj hforfeit)
      exact finalize_covered h (fun _ _ _ _ hkind => by cases hkind) hfinalize
  | releaseRunReservations =>
    obtain ⟨⟨count, released⟩, hrelease, hperform⟩ := bind_ok hperform
    obtain ⟨-, rfl⟩ := Prod.mk.inj (Except.ok.inj hperform)
    exact ⟨hconserved, h.amounts_of_effect heffect, releaseRunReservations_limits h hrelease⟩

theorem Call.step_covered {call : Call} (h : Covered pinned books) (hcovers : call.Covers pinned) :
    Covered pinned (call.step books).2 := by
  cases hperform : call.perform books with
  | error error =>
    rw [Call.step_error hperform]
    exact h
  | ok performed =>
    rw [Call.step_ok hperform]
    exact Call.perform_covered h hcovers hperform

end

/-- A usage within its estimate costs at most what was reserved for it; as long as every usage is,
no account commits more than its limit. -/
theorem reservations_cover_usage :
    (∀ (estimate : Estimate) (usage : TokenUsage), estimate.Covers usage →
      actualCost estimate.selection.profile usage ≤ money estimate.selection.estimatedCostUsd) ∧
    ∀ (pinned : Pinned) (calls : List Call), (∀ call ∈ calls, call.Covers pinned) →
      ∀ projectId account, (budgets.run {} calls).accounts.get? projectId = some account →
        account.reservedUsd + account.spentUsd ≤ account.limitUsd := by
  apply And.intro
  · intro estimate usage hcovers
    exact Estimate.actualCost_le hcovers
  · intro pinned calls hcalls
    have hcovered : Covered pinned (budgets.run {} calls) := by
      apply budgets.run_among (Q := Covered pinned) (Covered.empty pinned)
      intro books call hcall h
      exact Call.step_covered h (hcalls call hcall)
    exact hcovered.limits

def sampleModel : ModelProfile :=
  { ModelRouting.sampleProfile "plain" 1 .balanced 10 with
    contextWindow := 100000
    inputCostPerMillion := 5 / 4 }

/-- 8000 tokens in and 4096 out, at 1.25 and 10 dollars a million. -/
def sampleEstimate : Estimate where
  request := { estimatedInputTokens := 8000 }
  selection := ModelRouting.selectionOf { estimatedInputTokens := 8000 } "codex" sampleModel
  routed := by
    refine ⟨[sampleModel], "codex", ?_, rfl⟩
    rw [List.forall_mem_singleton]
    exact ⟨by norm_num [sampleModel], by norm_num [sampleModel, ModelRouting.sampleProfile]⟩

def sampleClaim : TaskClaim where
  executionId := 30
  runId := 20
  nodeKey := "work"
  executorKey := "codex"
  workerId := "worker"
  leaseToken := 7
  visitCount := 1
  attemptCount := 1
  timeoutSeconds := 60
  workflowKey := "routed"
  workflowVersion := 1
  instructions := none
  configuration := []
  skills := []
  phasePack := none
  context := none
  modelSelection := some sampleEstimate.selection

def sampleView : Surroundings := ⟨fun _ => some 10, fun _ => some 1, fun _ => true⟩

def samplePinned : Pinned := fun key =>
  if key = sampleClaim.idempotencyKey then some sampleEstimate else none

/-- The limit is just enough for the reservation; the whole estimate is used. -/
def sampleCalls : List Call :=
  [.configure sampleView 1 (5096 / 100000) 500 0, .reserve sampleView sampleClaim 600 1]

def sampleReport : Call :=
  .settle sampleClaim
    ((Reservation.create 600 500 1 sampleClaim sampleEstimate.amount).toOption) (some ⟨8000, 4096⟩) 700 2

theorem reservations_cover_usage_sample :
    actualCost sampleEstimate.selection.profile ⟨8000, 4096⟩ ≤
        money sampleEstimate.selection.estimatedCostUsd ∧
      (((budgets.run {} (sampleCalls ++ [sampleReport])).accounts.get? 1).any fun account =>
        account.spentUsd = 5096 / 100000 && account.reservedUsd = 0) = true ∧
      ∀ projectId account,
        (budgets.run {} (sampleCalls ++ [sampleReport])).accounts.get? projectId = some account →
          account.reservedUsd + account.spentUsd ≤ account.limitUsd := by
  have hcovers : sampleEstimate.Covers ⟨8000, 4096⟩ := ⟨le_rfl, le_rfl⟩
  refine ⟨reservations_cover_usage.1 sampleEstimate ⟨8000, 4096⟩ hcovers, by decide +kernel, ?_⟩
  apply reservations_cover_usage.2 samplePinned
  have hpinned : samplePinned sampleClaim.idempotencyKey = some sampleEstimate := if_pos rfl
  intro call hcall
  simp only [sampleCalls, sampleReport, List.cons_append, List.nil_append, List.mem_cons,
    List.not_mem_nil, or_false] at hcall
  rcases hcall with rfl | rfl | rfl
  · trivial
  · show sampleClaim.modelSelection = (samplePinned sampleClaim.idempotencyKey).map _
    rw [hpinned]
    rfl
  · refine ⟨?_, ?_, ?_⟩
    · rw [hpinned]
      rfl
    · intro stored hstored
      unfold Reservation.create at hstored
      split at hstored
      · cases hstored
      split at hstored
      · cases hstored
      · obtain rfl := Option.some.inj hstored
        rfl
    · intro reported estimate hreported hestimate
      obtain rfl := Option.some.inj hreported
      obtain rfl := Option.some.inj (hpinned.symm.trans hestimate)
      exact hcovers

end JbOrchestrator.Budgets
