import JbOrchestrator.Budgets.Services
import Mathlib.Algebra.Order.BigOperators.Group.List

/-!
# Conservation — the budget ledger over whole runs

`Conserved` relates the amounts of the accounts to the reservations and to the usage records.  Opening a
reservation, finalizing it and releasing it each keep it; every call is one of these.
-/

open Lib

namespace JbOrchestrator.Budgets

open Domain Workflows Application

/-! ## 1. The invariant -/

/-- The sum over the open reservations of a project. -/
def reservedTotal (reservations : List BudgetReservation) (projectId : UUID) : Decimal :=
  ((reservations.filter fun reservation =>
    reservation.projectId = projectId ∧ reservation.status = .reserved).map
      BudgetReservation.reservedUsd).sum

/-- The sum over the usage records of a project. -/
def spentTotal (usage : List UsageRecord) (projectId : UUID) : Decimal :=
  ((usage.filter fun record => record.projectId = projectId).map UsageRecord.costUsd).sum

/-- The amounts of an account are those of its reservations and of its usage records. -/
structure Balanced (books : Books) (projectId : UUID) (account : BudgetAccount) : Prop where
  project : account.projectId = projectId
  limit : Micro account.limitUsd
  reserved : account.reservedUsd = reservedTotal books.reservations projectId
  spent : account.spentUsd = spentTotal books.usage projectId

structure Conserved (books : Books) : Prop where
  balanced : ∀ projectId account, books.accounts.get? projectId = some account →
    Balanced books projectId account
  ids : (books.reservations.map BudgetReservation.id).Nodup
  keys : (books.reservations.map BudgetReservation.idempotencyKey).Nodup
  accounts : ∀ reservation ∈ books.reservations, ∃ account,
    books.accounts.get? reservation.projectId = some account ∧ account.id = reservation.accountId
  amounts : ∀ reservation ∈ books.reservations,
    Micro reservation.reservedUsd ∧ 0 ≤ reservation.reservedUsd
  recorded : ∀ reservation ∈ books.reservations,
    (∃ record ∈ books.usage, record.reservationId = reservation.id) ↔
      reservation.status = .settled ∨ reservation.status = .forfeited
  once : (books.usage.map UsageRecord.reservationId).Nodup
  costs : ∀ record ∈ books.usage, Micro record.costUsd ∧ 0 ≤ record.costUsd
  owned : ∀ record ∈ books.usage, ∃ reservation ∈ books.reservations,
    reservation.id = record.reservationId ∧ reservation.projectId = record.projectId

theorem Conserved.empty : Conserved {} where
  balanced _ _ h := by simp at h
  ids := List.nodup_nil
  keys := List.nodup_nil
  accounts := List.forall_mem_nil _
  amounts := List.forall_mem_nil _
  recorded := List.forall_mem_nil _
  once := List.nodup_nil
  costs := List.forall_mem_nil _
  owned := List.forall_mem_nil _

/-! ## 2. Sums -/

section

variable {reservations : List BudgetReservation} {usage : List UsageRecord}
  {reservation closed : BudgetReservation} {projectId : UUID}

theorem reservedTotal_append (hstatus : reservation.status = .reserved) :
    reservedTotal (reservations ++ [reservation]) projectId =
      reservedTotal reservations projectId +
        if reservation.projectId = projectId then reservation.reservedUsd else 0 := by
  unfold reservedTotal
  rw [List.filter_append, List.map_append, List.sum_append]
  by_cases h : reservation.projectId = projectId <;> simp [h, hstatus]

/-- Closing a reservation takes its amount out of the sum. -/
theorem reservedTotal_put (hids : (reservations.map BudgetReservation.id).Nodup)
    (hmem : reservation ∈ reservations) (hstatus : reservation.status = .reserved)
    (hid : closed.id = reservation.id) (hclosed : closed.status ≠ .reserved) :
    reservedTotal (put BudgetReservation.id closed reservations) projectId =
      reservedTotal reservations projectId -
        if reservation.projectId = projectId then reservation.reservedUsd else 0 := by
  unfold reservedTotal
  rw [sum_map_filter, sum_map_filter, sum_put _ hids hmem hid.symm]
  by_cases h : reservation.projectId = projectId <;> simp [h, hstatus, hclosed]

theorem spentTotal_append {record : UsageRecord} :
    spentTotal (usage ++ [record]) projectId =
      spentTotal usage projectId + if record.projectId = projectId then record.costUsd else 0 := by
  unfold spentTotal
  rw [List.filter_append, List.map_append, List.sum_append]
  by_cases h : record.projectId = projectId <;> simp [h]

end

namespace Conserved

variable {books : Books} (h : Conserved books) {projectId : UUID} {account : BudgetAccount}
  {reservation : BudgetReservation}
include h

theorem reserved_nonneg (haccount : books.accounts.get? projectId = some account) :
    0 ≤ account.reservedUsd := by
  rw [(h.balanced projectId account haccount).reserved]
  apply List.sum_nonneg
  intro amount hamount
  obtain ⟨reservation, hmem, rfl⟩ := List.mem_map.mp hamount
  exact (h.amounts reservation (List.mem_of_mem_filter hmem)).2

theorem spent_nonneg (haccount : books.accounts.get? projectId = some account) :
    0 ≤ account.spentUsd := by
  rw [(h.balanced projectId account haccount).spent]
  apply List.sum_nonneg
  intro cost hcost
  obtain ⟨record, hmem, rfl⟩ := List.mem_map.mp hcost
  exact (h.costs record (List.mem_of_mem_filter hmem)).2

theorem reserved_micro (haccount : books.accounts.get? projectId = some account) :
    Micro account.reservedUsd := by
  rw [(h.balanced projectId account haccount).reserved]
  apply Exact.sum
  intro amount hamount
  obtain ⟨reservation, hmem, rfl⟩ := List.mem_map.mp hamount
  exact (h.amounts reservation (List.mem_of_mem_filter hmem)).1

theorem spent_micro (haccount : books.accounts.get? projectId = some account) :
    Micro account.spentUsd := by
  rw [(h.balanced projectId account haccount).spent]
  apply Exact.sum
  intro cost hcost
  obtain ⟨record, hmem, rfl⟩ := List.mem_map.mp hcost
  exact (h.costs record (List.mem_of_mem_filter hmem)).1

/-- An account has at least what one of its open reservations holds. -/
theorem reserved_le (haccount : books.accounts.get? reservation.projectId = some account)
    (hmem : reservation ∈ books.reservations) (hstatus : reservation.status = .reserved) :
    reservation.reservedUsd ≤ account.reservedUsd := by
  rw [(h.balanced reservation.projectId account haccount).reserved]
  apply List.single_le_sum
  · intro amount hamount
    obtain ⟨other, hother, rfl⟩ := List.mem_map.mp hamount
    exact (h.amounts other (List.mem_of_mem_filter hother)).2
  · apply List.mem_map_of_mem
    rw [List.mem_filter]
    exact ⟨hmem, by simp [hstatus]⟩

end Conserved

/-! ## 3. What keeps the invariant -/

/-- A new state of an account, with what it holds and has spent in addition. -/
structure Adjusts (account account' : BudgetAccount) (reserved spent : Decimal) : Prop where
  id : account'.id = account.id
  projectId : account'.projectId = account.projectId
  limit : Micro account'.limitUsd
  reserved : account'.reservedUsd = account.reservedUsd + reserved
  spent : account'.spentUsd = account.spentUsd + spent

theorem get?_saveAccount (books : Books) (account : BudgetAccount) (projectId : UUID) :
    (books.saveAccount account).accounts.get? projectId =
      if projectId = account.projectId then some account else books.accounts.get? projectId :=
  Dict.get?_set ..

/-- Saving an account keeps the accounts of the reservations. -/
theorem account_saved {books : Books} {account account' : BudgetAccount} {projectId accountId : UUID}
    (hfound : books.accounts.get? account.projectId = some account) (hid : account'.id = account.id)
    (hproject : account'.projectId = account.projectId)
    (h : ∃ stored, books.accounts.get? projectId = some stored ∧ stored.id = accountId) :
    ∃ stored, (books.saveAccount account').accounts.get? projectId = some stored ∧
      stored.id = accountId := by
  obtain ⟨stored, hstored, hstoredId⟩ := h
  rw [get?_saveAccount, hproject]
  by_cases hsame : projectId = account.projectId
  · rw [hsame] at hstored
    rw [if_pos hsame]
    have hold : stored = account := Option.some.inj (hstored.symm.trans hfound)
    exact ⟨account', rfl, by rw [hid, ← hold, hstoredId]⟩
  · rw [if_neg hsame]
    exact ⟨stored, hstored, hstoredId⟩

/-- The accounts after a change of one project's reservations and records by the given amounts. -/
theorem balanced_saved {books books' : Books} {account account' : BudgetAccount}
    {reserved spent : Decimal} (hconserved : Conserved books)
    (hfound : books.accounts.get? account.projectId = some account)
    (hadjusts : Adjusts account account' reserved spent)
    (haccounts : books'.accounts = (books.saveAccount account').accounts)
    (hreserved : ∀ projectId, reservedTotal books'.reservations projectId =
      reservedTotal books.reservations projectId +
        if account.projectId = projectId then reserved else 0)
    (hspent : ∀ projectId, spentTotal books'.usage projectId =
      spentTotal books.usage projectId + if account.projectId = projectId then spent else 0) :
    ∀ projectId stored, books'.accounts.get? projectId = some stored →
      Balanced books' projectId stored := by
  intro projectId stored hstored
  rw [haccounts, get?_saveAccount, hadjusts.projectId] at hstored
  by_cases hsame : projectId = account.projectId
  · rw [if_pos hsame] at hstored
    obtain rfl := Option.some.inj hstored
    have hold := hconserved.balanced _ _ hfound
    subst hsame
    refine ⟨hadjusts.projectId, hadjusts.limit, ?_, ?_⟩
    · rw [hadjusts.reserved, hreserved, if_pos rfl, hold.reserved]
    · rw [hadjusts.spent, hspent, if_pos rfl, hold.spent]
  · rw [if_neg hsame] at hstored
    have hold := hconserved.balanced _ _ hstored
    refine ⟨hold.project, hold.limit, ?_, ?_⟩
    · rw [hreserved, if_neg (Ne.symm hsame), add_zero, hold.reserved]
    · rw [hspent, if_neg (Ne.symm hsame), add_zero, hold.spent]

/-- A closed reservation and the open one it was. -/
structure Closes (reservation closed : BudgetReservation) : Prop where
  id : closed.id = reservation.id
  accountId : closed.accountId = reservation.accountId
  projectId : closed.projectId = reservation.projectId
  key : closed.idempotencyKey = reservation.idempotencyKey
  amount : closed.reservedUsd = reservation.reservedUsd
  reserved : reservation.status = .reserved

/-- What closing a reservation writes: nothing where it is released, one record of its cost else. -/
inductive Records (closed : BudgetReservation) : List UsageRecord → Decimal → Prop where
  | released (hstatus : closed.status = .released) : Records closed [] 0
  | finalized {record : UsageRecord} (hstatus : closed.status = .settled ∨ closed.status = .forfeited)
    (hid : record.reservationId = closed.id) (hproject : record.projectId = closed.projectId)
    (hcost : Micro record.costUsd ∧ 0 ≤ record.costUsd) :
    Records closed [record] record.costUsd

section

variable {books : Books} (h : Conserved books) {account account' : BudgetAccount}
  (hfound : books.accounts.get? account.projectId = some account)
include h hfound

/-- A new reservation adds its amount to the account. -/
theorem Conserved.opened {reservation : BudgetReservation}
    (hadjusts : Adjusts account account' reservation.reservedUsd 0)
    (hproject : reservation.projectId = account.projectId)
    (haccount : reservation.accountId = account.id) (hstatus : reservation.status = .reserved)
    (hamount : Micro reservation.reservedUsd ∧ 0 ≤ reservation.reservedUsd)
    (hid : reservation.id ∉ books.reservations.map BudgetReservation.id)
    (hkey : reservation.idempotencyKey ∉ books.reservations.map BudgetReservation.idempotencyKey) :
    Conserved ⟨(books.saveAccount account').accounts, books.reservations ++ [reservation],
      books.usage⟩ where
  balanced := by
    refine balanced_saved h hfound hadjusts rfl ?_ ?_
    · intro projectId
      rw [reservedTotal_append hstatus, hproject]
    · intro projectId
      show spentTotal books.usage projectId = _
      simp
  ids := by
    rw [List.map_append, List.map_singleton]
    exact h.ids.append (List.nodup_singleton _) (by simpa using hid)
  keys := by
    rw [List.map_append, List.map_singleton]
    exact h.keys.append (List.nodup_singleton _) (by simpa using hkey)
  accounts := by
    intro other hother
    apply account_saved hfound hadjusts.id hadjusts.projectId
    rcases List.mem_append.mp hother with hold | hnew
    · exact h.accounts other hold
    · rw [List.mem_singleton.mp hnew, hproject, haccount]
      exact ⟨account, hfound, rfl⟩
  amounts := by
    intro other hother
    rcases List.mem_append.mp hother with hold | hnew
    · exact h.amounts other hold
    · rw [List.mem_singleton.mp hnew]
      exact hamount
  recorded := by
    intro other hother
    rcases List.mem_append.mp hother with hold | hnew
    · exact h.recorded other hold
    · rw [List.mem_singleton.mp hnew, hstatus]
      apply iff_of_false
      · -- a usage record belongs to a reservation that is already there
        rintro ⟨record, hrecord, hrecordId⟩
        obtain ⟨owner, howner, hownerId, -⟩ := h.owned record hrecord
        exact hid (List.mem_map.mpr ⟨owner, howner, hownerId.trans hrecordId⟩)
      · simp
  once := h.once
  costs := h.costs
  owned := by
    intro record hrecord
    obtain ⟨owner, howner, hids⟩ := h.owned record hrecord
    exact ⟨owner, List.mem_append_left _ howner, hids⟩

/-- Closing a reservation takes its amount out of the account and adds its cost. -/
theorem Conserved.closed {reservation closed : BudgetReservation} {records : List UsageRecord}
    {cost : Decimal} (hmem : reservation ∈ books.reservations)
    (hproject : reservation.projectId = account.projectId) (hcloses : Closes reservation closed)
    (hrecords : Records closed records cost)
    (hadjusts : Adjusts account account' (-reservation.reservedUsd) cost) :
    Conserved ⟨(books.saveAccount account').accounts,
      put BudgetReservation.id closed books.reservations, books.usage ++ records⟩ where
  balanced := by
    refine balanced_saved h hfound hadjusts rfl ?_ ?_
    · intro projectId
      have hstatus : closed.status ≠ .reserved := by
        cases hrecords with
        | released hstatus => simp [hstatus]
        | finalized hstatus =>
          rcases hstatus with hstatus | hstatus <;> simp [hstatus]
      rw [reservedTotal_put h.ids hmem hcloses.reserved hcloses.id hstatus, hproject, sub_eq_add_neg]
      by_cases hsame : account.projectId = projectId <;> simp [hsame]
    · intro projectId
      cases hrecords with
      | released => simp
      | finalized _ _ hrecord =>
        rw [spentTotal_append, hrecord, hcloses.projectId, hproject]
  ids := by
    rw [map_key_put]
    exact h.ids
  keys := by
    rw [map_put_of_eq h.ids hmem hcloses.id.symm hcloses.key]
    exact h.keys
  accounts := by
    intro other hother
    apply account_saved hfound hadjusts.id hadjusts.projectId
    rcases mem_put hother with rfl | ⟨hold, -⟩
    · rw [hcloses.projectId, hcloses.accountId]
      exact h.accounts reservation hmem
    · exact h.accounts other hold
  amounts := by
    intro other hother
    rcases mem_put hother with rfl | ⟨hold, -⟩
    · rw [hcloses.amount]
      exact h.amounts reservation hmem
    · exact h.amounts other hold
  recorded := by
    intro other hother
    -- before the step no record belongs to the open reservation
    have hnone : ¬∃ record ∈ books.usage, record.reservationId = reservation.id := by
      rw [h.recorded reservation hmem, hcloses.reserved]
      simp
    rcases mem_put hother with rfl | ⟨hold, hne⟩
    · cases hrecords with
      | released hstatus =>
        rw [List.append_nil, hcloses.id, hstatus]
        exact iff_of_false hnone (by simp)
      | @finalized record hstatus hid =>
        apply iff_of_true _ hstatus
        exact ⟨record, List.mem_append_right _ (List.mem_singleton_self record), hid⟩
    · rw [← h.recorded other hold]
      constructor
      · rintro ⟨record, hrecord, hrecordId⟩
        rcases List.mem_append.mp hrecord with hrecord | hrecord
        · exact ⟨record, hrecord, hrecordId⟩
        · cases hrecords with
          | released => cases hrecord
          | finalized _ hid =>
            rw [List.mem_singleton.mp hrecord, hid] at hrecordId
            exact absurd hrecordId.symm hne
      · rintro ⟨record, hrecord, hrecordId⟩
        exact ⟨record, List.mem_append_left _ hrecord, hrecordId⟩
  once := by
    cases hrecords with
    | released =>
      rw [List.append_nil]
      exact h.once
    | @finalized record _ hid =>
      rw [List.map_append, List.map_singleton]
      apply h.once.append (List.nodup_singleton _)
      rw [List.disjoint_singleton]
      intro hused
      obtain ⟨other, hother, hotherId⟩ := List.mem_map.mp hused
      have hrecorded := (h.recorded reservation hmem).mp
        ⟨other, hother, hotherId.trans (hid.trans hcloses.id)⟩
      rw [hcloses.reserved] at hrecorded
      simp at hrecorded
  costs := by
    intro record hrecord
    rcases List.mem_append.mp hrecord with hrecord | hrecord
    · exact h.costs record hrecord
    · cases hrecords with
      | released => cases hrecord
      | finalized _ _ _ hcost =>
        rw [List.mem_singleton.mp hrecord]
        exact hcost
  owned := by
    intro record hrecord
    rcases List.mem_append.mp hrecord with hrecord | hrecord
    · obtain ⟨owner, howner, hid, hownerProject⟩ := h.owned record hrecord
      by_cases hsame : owner.id = closed.id
      · have howner' : owner = reservation := eq_of_key h.ids howner hmem (hsame.trans hcloses.id)
        refine ⟨closed, mem_put_self howner hsame, hsame.symm.trans hid, ?_⟩
        rw [hcloses.projectId, ← howner', hownerProject]
      · exact ⟨owner, mem_put_of_ne howner hsame, hid, hownerProject⟩
    · cases hrecords with
      | released => cases hrecord
      | finalized _ hid hrecordProject _ =>
        rw [List.mem_singleton.mp hrecord]
        exact ⟨closed, mem_put_self hmem hcloses.id.symm, hid.symm, hrecordProject.symm⟩

/-- A new limit leaves the amounts alone. -/
theorem Conserved.limited (hadjusts : Adjusts account account' 0 0) :
    Conserved (books.saveAccount account') where
  balanced := by
    refine balanced_saved h hfound hadjusts rfl ?_ ?_
    · intro projectId
      show reservedTotal books.reservations projectId = _
      simp
    · intro projectId
      show spentTotal books.usage projectId = _
      simp
  ids := h.ids
  keys := h.keys
  accounts reservation hmem :=
    account_saved hfound hadjusts.id hadjusts.projectId (h.accounts reservation hmem)
  amounts := h.amounts
  recorded := h.recorded
  once := h.once
  costs := h.costs
  owned := h.owned

end

/-- A project without an account has neither reservations nor usage. -/
theorem Conserved.created {books : Books} (h : Conserved books) {account : BudgetAccount}
    (hnone : books.accounts.get? account.projectId = none) (hlimit : Micro account.limitUsd)
    (hreserved : account.reservedUsd = 0) (hspent : account.spentUsd = 0) :
    Conserved (books.saveAccount account) := by
  have hother : ∀ reservation ∈ books.reservations,
      reservation.projectId ≠ account.projectId := by
    intro reservation hmem hproject
    obtain ⟨stored, hstored, -⟩ := h.accounts reservation hmem
    rw [hproject, hnone] at hstored
    cases hstored
  refine ⟨?_, h.ids, h.keys, ?_, h.amounts, h.recorded, h.once, h.costs, h.owned⟩
  · intro projectId stored hstored
    rw [get?_saveAccount] at hstored
    by_cases hsame : projectId = account.projectId
    · rw [if_pos hsame] at hstored
      obtain rfl := Option.some.inj hstored
      refine ⟨hsame.symm, hlimit, ?_, ?_⟩
      · rw [hreserved, reservedTotal, List.filter_eq_nil_iff.mpr]
        · rfl
        · intro reservation hmem
          simp [hsame, hother reservation hmem]
      · rw [hspent, spentTotal, List.filter_eq_nil_iff.mpr]
        · rfl
        · intro record hmem hproject
          obtain ⟨owner, howner, -, hownerProject⟩ := h.owned record hmem
          rw [decide_eq_true_eq] at hproject
          exact hother owner howner (hownerProject.trans (hproject.trans hsame))
    · rw [if_neg hsame] at hstored
      obtain ⟨hproject, hlimit, hreserved, hspent⟩ := h.balanced projectId stored hstored
      exact ⟨hproject, hlimit, hreserved, hspent⟩
  · intro reservation hmem
    rw [get?_saveAccount, if_neg (hother reservation hmem)]
    exact h.accounts reservation hmem

/-- The invariant looks accounts up only. -/
theorem Conserved.congr {books books' : Books} (h : Conserved books)
    (haccounts : ∀ projectId, books'.accounts.get? projectId = books.accounts.get? projectId)
    (hreservations : books'.reservations = books.reservations) (husage : books'.usage = books.usage) :
    Conserved books' := by
  obtain ⟨accounts, reservations, usage⟩ := books'
  dsimp only at hreservations husage
  subst hreservations husage
  refine ⟨?_, h.ids, h.keys, ?_, h.amounts, h.recorded, h.once, h.costs, h.owned⟩
  · intro projectId account haccount
    rw [haccounts] at haccount
    obtain ⟨hproject, hlimit, hreserved, hspent⟩ := h.balanced projectId account haccount
    exact ⟨hproject, hlimit, hreserved, hspent⟩
  · intro reservation hmem
    rw [haccounts]
    exact h.accounts reservation hmem

/-! ## 4. What the methods do -/

section

variable {account : BudgetAccount} {at_ : Instant}

theorem Account.setLimit_ok {account' : BudgetAccount} {limitUsd : Decimal}
    (h : Account.setLimit account limitUsd at_ = .ok account') : Adjusts account account' 0 0 := by
  unfold Account.setLimit at h
  split at h
  · cases h
  · obtain rfl := Except.ok.inj h
    exact ⟨rfl, rfl, micro_money limitUsd, (add_zero _).symm, (add_zero _).symm⟩

/-- A reservation that an account accepts fits its limit. -/
theorem Account.reserve_ok {account' : BudgetAccount} {amount : Decimal}
    (hlimit : Micro account.limitUsd) (hreserved : Micro account.reservedUsd)
    (hspent : Micro account.spentUsd) (hamount : Micro amount)
    (h : Account.reserve account amount at_ = .ok account') :
    Adjusts account account' amount 0 ∧ 0 ≤ amount ∧
      account'.reservedUsd + account'.spentUsd ≤ account'.limitUsd := by
  unfold Account.reserve Account.availableUsd at h
  have havailable := (hlimit.sub hreserved).sub hspent
  rw [hamount.money_eq, Micro.money_eq havailable, Micro.money_eq (hreserved.add hamount)] at h
  split at h
  · cases h
  split at h
  · cases h
  · rename_i hnonneg hfits
    obtain rfl := Except.ok.inj h
    refine ⟨⟨rfl, rfl, hlimit, rfl, (add_zero _).symm⟩, not_lt.mp hnonneg, ?_⟩
    show account.reservedUsd + amount + account.spentUsd ≤ account.limitUsd
    linarith [not_lt.mp hfits]

/-- The amount check of `settle` does not fire on amounts that are there. -/
theorem Account.settle_ok {reserved cost : Decimal} (haccount : Micro account.reservedUsd)
    (hspent : Micro account.spentUsd) (hlimit : Micro account.limitUsd)
    (hreserved : Micro reserved ∧ 0 ≤ reserved) (hcost : Micro cost ∧ 0 ≤ cost)
    (hle : reserved ≤ account.reservedUsd) :
    ∃ account', Account.settle account reserved cost at_ = .ok account' ∧
      Adjusts account account' (-reserved) cost := by
  unfold Account.settle
  rw [hreserved.1.money_eq, hcost.1.money_eq, Micro.money_eq (haccount.sub hreserved.1),
    Micro.money_eq (hspent.add hcost.1)]
  rw [if_neg]
  · exact ⟨_, rfl, rfl, rfl, hlimit, sub_eq_add_neg _ _, rfl⟩
  · rw [not_or, not_or, not_lt, not_lt, not_lt]
    exact ⟨hcost.2, hreserved.2, hle⟩

/-- The amount check of `release` does not fire on amounts that are there. -/
theorem Account.release_ok {amount : Decimal} (haccount : Micro account.reservedUsd)
    (hlimit : Micro account.limitUsd) (hamount : Micro amount ∧ 0 ≤ amount)
    (hle : amount ≤ account.reservedUsd) :
    ∃ account', Account.release account amount at_ = .ok account' ∧
      Adjusts account account' (-amount) 0 := by
  unfold Account.release
  rw [hamount.1.money_eq, Micro.money_eq (haccount.sub hamount.1)]
  rw [if_neg]
  · exact ⟨_, rfl, rfl, rfl, hlimit, sub_eq_add_neg _ _, (add_zero _).symm⟩
  · rw [not_or, not_lt, not_lt]
    exact ⟨hamount.2, hle⟩

theorem Reservation.create_ok {id accountId projectId : UUID} {claim : TaskClaim}
    {amount : Decimal} {reservation : BudgetReservation}
    (h : Reservation.create id accountId projectId claim amount = .ok reservation) :
    reservation.id = id ∧ reservation.accountId = accountId ∧ reservation.projectId = projectId ∧
      reservation.runId = claim.runId ∧ reservation.idempotencyKey = claim.idempotencyKey ∧
      reservation.reservedUsd = money amount ∧ reservation.status = .reserved := by
  unfold Reservation.create at h
  split at h
  · cases h
  split at h
  · cases h
  · obtain rfl := Except.ok.inj h
    exact ⟨rfl, rfl, rfl, rfl, rfl, rfl, rfl⟩

theorem Reservation.finalize_ok {reservation closed : BudgetReservation}
    {status : BudgetReservationStatus} {actualUsd : Decimal}
    (h : Reservation.finalize reservation status actualUsd at_ = .ok closed) :
    Closes reservation closed ∧ closed.status = status ∧ 0 ≤ money actualUsd := by
  unfold Reservation.finalize at h
  split at h
  · cases h
  split at h
  · cases h
  · rename_i hstatus hamount
    obtain rfl := Except.ok.inj h
    exact ⟨⟨rfl, rfl, rfl, rfl, rfl, not_not.mp hstatus⟩, rfl, not_lt.mp hamount⟩

end

end JbOrchestrator.Budgets
