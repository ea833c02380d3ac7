import JbOrchestrator.Budgets.Conservation
import JbOrchestrator.Lib.Results

/-!
# Ledger — budget calls in any order

What each service does to the books, that it never trips over its own amount checks, and that a
repeated call changes nothing a second time.
-/

open Lib

namespace JbOrchestrator.Budgets

open Domain Workflows Application

/-! ## 1. Services -/

/-- An amount check of `BudgetAccount.settle` or of `BudgetAccount.release` fired. -/
def AmountCheck (error : BudgetError) : Prop :=
  error = validation "budget settlement amounts are invalid" ∨
    error = validation "budget release amount is invalid"

/-- What a call does to the reservations; it opens them for the given runs only. -/
inductive Effect (runs : UUID → Prop) : Books → Books → Prop where
  | kept {books books' : Books} (hreservations : books'.reservations = books.reservations) :
    Effect runs books books'
  | opened {books books' : Books} {reservation : BudgetReservation} (hrun : runs reservation.runId)
    (hreservations : books'.reservations = books.reservations ++ [reservation]) :
    Effect runs books books'
  | closed {books books' : Books} {reservation closed : BudgetReservation}
    (hmem : reservation ∈ books.reservations) (hcloses : Closes reservation closed)
    (hstatus : closed.status ≠ .reserved) (hids : (books.reservations.map BudgetReservation.id).Nodup)
    (hreservations : books'.reservations = put BudgetReservation.id closed books.reservations) :
    Effect runs books books'
  | trans {books₁ books₂ books₃ : Books} (h : Effect runs books₁ books₂)
    (h' : Effect runs books₂ books₃) : Effect runs books₁ books₃

section

variable {runs : UUID → Prop} {books books' : Books} {at_ : Instant}

theorem configure_spec {view : Surroundings} {projectId id : UUID} {limitUsd : Decimal}
    {account : BudgetAccount} (hconserved : Conserved books)
    (h : configure books view projectId limitUsd id at_ = .ok (account, books')) :
    Conserved books' ∧ books'.reservations = books.reservations := by
  unfold configure at h
  split at h
  · cases h
  split at h
  · rename_i hnone
    obtain ⟨created, hcreate, h⟩ := bind_ok h
    obtain ⟨-, rfl⟩ := Prod.mk.inj (Except.ok.inj h)
    unfold Account.create at hcreate
    split at hcreate
    · cases hcreate
    · obtain rfl := Except.ok.inj hcreate
      exact ⟨hconserved.created hnone (micro_money limitUsd) rfl rfl, rfl⟩
  · rename_i old hold
    obtain ⟨changed, hset, h⟩ := bind_ok h
    obtain ⟨-, rfl⟩ := Prod.mk.inj (Except.ok.inj h)
    have hproject := (hconserved.balanced projectId old hold).project
    exact ⟨hconserved.limited (hproject.symm ▸ hold) (Account.setLimit_ok hset), rfl⟩

theorem addReservation_ok {reservation : BudgetReservation}
    (h : books.addReservation reservation = .ok books') :
    books' = ⟨books.accounts, books.reservations ++ [reservation], books.usage⟩ ∧
      reservation.id ∉ books.reservations.map BudgetReservation.id ∧
      reservation.idempotencyKey ∉ books.reservations.map BudgetReservation.idempotencyKey := by
  unfold Books.addReservation at h
  split at h
  · cases h
  · rename_i hfree
    refine ⟨(Except.ok.inj h).symm, ?_, ?_⟩
    · intro hmem
      obtain ⟨other, hother, hid⟩ := List.mem_map.mp hmem
      exact hfree (List.any_eq_true.mpr ⟨other, hother, by simp [hid]⟩)
    · intro hmem
      obtain ⟨other, hother, hkey⟩ := List.mem_map.mp hmem
      exact hfree (List.any_eq_true.mpr ⟨other, hother, by simp [hkey]⟩)

theorem reservation_none {key : String} :
    books.reservation key = none ↔
      key ∉ books.reservations.map BudgetReservation.idempotencyKey := by
  unfold Books.reservation
  rw [List.find?_eq_none, List.mem_map]
  simp

theorem reservation_some {key : String} {stored : BudgetReservation}
    (h : books.reservation key = some stored) :
    stored ∈ books.reservations ∧ stored.idempotencyKey = key :=
  ⟨List.mem_of_find?_eq_some h, by simpa using List.find?_some h⟩

theorem openReservation_ok {account : BudgetAccount} {projectId id : UUID} {claim : TaskClaim}
    {selection : ModelSelection} {reservation : BudgetReservation}
    (h : openReservation books account projectId claim selection id at_ =
      .ok (reservation, books')) :
    ∃ account', Account.reserve account (money selection.estimatedCostUsd) at_ = .ok account' ∧
      Reservation.create id account'.id projectId claim (money selection.estimatedCostUsd) =
        .ok reservation ∧
      (books.saveAccount account').addReservation reservation = .ok books' := by
  unfold openReservation at h
  obtain ⟨account', hreserve, h⟩ := bind_ok h
  obtain ⟨created, hcreate, h⟩ := bind_ok h
  obtain ⟨added, hadd, h⟩ := bind_ok h
  obtain ⟨rfl, rfl⟩ := Prod.mk.inj (Except.ok.inj h)
  exact ⟨account', hreserve, hcreate, hadd⟩

/-- A new reservation is within the limit of its account. -/
theorem openReservation_spec {account : BudgetAccount} {projectId id : UUID} {claim : TaskClaim}
    {selection : ModelSelection} {reservation : BudgetReservation} (hconserved : Conserved books)
    (hfound : books.accounts.get? projectId = some account)
    (h : openReservation books account projectId claim selection id at_ =
      .ok (reservation, books')) :
    Conserved books' ∧ books'.reservations = books.reservations ++ [reservation] ∧
      reservation.runId = claim.runId ∧ reservation.idempotencyKey = claim.idempotencyKey ∧
      ∃ account', books'.accounts.get? reservation.projectId = some account' ∧
        account'.reservedUsd + account'.spentUsd ≤ account'.limitUsd := by
  obtain ⟨account', hreserve, hcreate, hadd⟩ := openReservation_ok h
  have hbalanced := hconserved.balanced projectId account hfound
  have hfound' : books.accounts.get? account.projectId = some account := hbalanced.project ▸ hfound
  have hmicro := micro_money selection.estimatedCostUsd
  obtain ⟨hadjusts, hnonneg, hlimit⟩ := Account.reserve_ok hbalanced.limit
    (hconserved.reserved_micro hfound) (hconserved.spent_micro hfound) hmicro hreserve
  obtain ⟨hid, haccountId, hproject, hrun, hkey, hamount, hstatus⟩ := Reservation.create_ok hcreate
  obtain ⟨rfl, hfreshId, hfreshKey⟩ := addReservation_ok hadd
  rw [hmicro.money_eq] at hamount
  rw [hadjusts.id] at haccountId
  refine ⟨?_, rfl, hrun, hkey, account', ?_, hlimit⟩
  · have hopened : Micro reservation.reservedUsd ∧ 0 ≤ reservation.reservedUsd := by
      rw [hamount]
      exact ⟨hmicro, hnonneg⟩
    exact hconserved.opened hfound' (hamount ▸ hadjusts) (hproject.trans hbalanced.project.symm)
      haccountId hstatus hopened hfreshId hfreshKey
  · show (books.saveAccount account').accounts.get? reservation.projectId = _
    rw [get?_saveAccount, hproject, hadjusts.projectId, hbalanced.project, if_pos rfl]

theorem closeReservation_spec {stored closed : BudgetReservation} {profile : ModelProfile}
    {usage : TokenUsage} {kind : UsageKind} {cost : Decimal}
    (hamount : Micro stored.reservedUsd ∧ 0 ≤ stored.reservedUsd)
    (h : closeReservation stored profile usage kind at_ = .ok (cost, closed)) :
    Closes stored closed ∧ (closed.status = .settled ∨ closed.status = .forfeited) ∧
      Micro cost ∧ 0 ≤ cost := by
  cases kind with
  | actual =>
    obtain ⟨settled, hsettle, h⟩ := bind_ok h
    obtain ⟨rfl, rfl⟩ := Prod.mk.inj (Except.ok.inj h)
    obtain ⟨hcloses, hstatus, hcost⟩ := Reservation.finalize_ok hsettle
    have hmicro : Micro (actualCost profile usage) := micro_money _
    rw [hmicro.money_eq] at hcost
    exact ⟨hcloses, .inl hstatus, hmicro, hcost⟩
  | estimatedForfeit =>
    obtain ⟨forfeited, hforfeit, h⟩ := bind_ok h
    obtain ⟨rfl, rfl⟩ := Prod.mk.inj (Except.ok.inj h)
    obtain ⟨hcloses, hstatus, -⟩ := Reservation.finalize_ok hforfeit
    exact ⟨hcloses, .inr hstatus, hamount⟩

/-- Neither closing a reservation nor recording usage is an amount check of the account. -/
theorem closeReservation_error {stored : BudgetReservation} {profile : ModelProfile}
    {usage : TokenUsage} {kind : UsageKind} {error : BudgetError}
    (h : closeReservation stored profile usage kind at_ = .error error) : ¬AmountCheck error := by
  have hfinalize : ∀ {status : BudgetReservationStatus} {actualUsd : Decimal},
      Reservation.finalize stored status actualUsd at_ = .error error → ¬AmountCheck error := by
    intro status actualUsd hfinalize
    unfold Reservation.finalize at hfinalize
    split at hfinalize
    · obtain rfl := Except.error.inj hfinalize
      simp [AmountCheck, validation]
    split at hfinalize
    · obtain rfl := Except.error.inj hfinalize
      simp [AmountCheck, validation]
    · cases hfinalize
  cases kind with
  | actual =>
    rcases bind_error h with hsettle | ⟨_, _, h⟩
    · exact hfinalize hsettle
    · cases h
  | estimatedForfeit =>
    rcases bind_error h with hforfeit | ⟨_, _, h⟩
    · exact hfinalize hforfeit
    · cases h

theorem reservation_of_mem {stored : BudgetReservation} (hconserved : Conserved books)
    (hmem : stored ∈ books.reservations) :
    books.reservation stored.idempotencyKey = some stored := by
  cases hfound : books.reservation stored.idempotencyKey with
  | none => exact absurd (List.mem_map_of_mem hmem) (reservation_none.mp hfound)
  | some other =>
    obtain ⟨hother, hkey⟩ := reservation_some hfound
    rw [eq_of_key hconserved.keys hother hmem hkey]

theorem usageOf_some {id : UUID} {record : UsageRecord} (h : books.usageOf id = some record) :
    record ∈ books.usage ∧ record.reservationId = id :=
  ⟨List.mem_of_find?_eq_some h, by simpa using List.find?_some h⟩

theorem addUsage_ok {record : UsageRecord} (h : books.addUsage record = .ok books') :
    books' = ⟨books.accounts, books.reservations, books.usage ++ [record]⟩ := by
  unfold Books.addUsage at h
  split at h
  · cases h
  · exact (Except.ok.inj h).symm

/-- An account settles what one of its open reservations holds. -/
theorem account_settles {account : BudgetAccount} {stored : BudgetReservation} {cost : Decimal}
    (hconserved : Conserved books)
    (hfound : books.accounts.get? stored.projectId = some account)
    (hmem : stored ∈ books.reservations) (hreserved : stored.status = .reserved)
    (hcost : Micro cost ∧ 0 ≤ cost) :
    ∃ account', Account.settle account stored.reservedUsd cost at_ = .ok account' ∧
      Adjusts account account' (-stored.reservedUsd) cost :=
  Account.settle_ok (hconserved.reserved_micro hfound) (hconserved.spent_micro hfound)
    (hconserved.balanced _ account hfound).limit (hconserved.amounts stored hmem) hcost
    (hconserved.reserved_le hfound hmem hreserved)

/-- The reservation under the key is no longer open. -/
def Books.Finalized (books : Books) (key : String) : Prop :=
  ∃ stored ∈ books.reservations, stored.idempotencyKey = key ∧ stored.status ≠ .reserved

/-- What `_finalize` does: it replays the recorded usage, or it closes the stored reservation. -/
theorem finalize_ok {claim : TaskClaim} {reservation : BudgetReservation} {usage : TokenUsage}
    {kind : UsageKind} {id : UUID} {record : UsageRecord}
    (h : finalize books claim reservation usage kind id at_ = .ok (record, books')) :
    ∃ selection stored account, claim.modelSelection = some selection ∧
      books.reservation reservation.idempotencyKey = some stored ∧
      books.accounts.get? stored.projectId = some account ∧
      ((books.usageOf stored.id = some record ∧ books' = books) ∨
        ∃ cost closed account',
          closeReservation stored selection.profile usage kind at_ = .ok (cost, closed) ∧
          Account.settle account stored.reservedUsd cost at_ = .ok account' ∧
          UsageRecord.create id stored kind usage cost selection.profile = .ok record ∧
          ((books.saveAccount account').saveReservation closed).addUsage record = .ok books') := by
  unfold finalize at h
  split at h
  · cases h
  rename_i selection hselection
  split at h
  · cases h
  rename_i stored hstored
  split at h
  · cases h
  rename_i account hfound
  refine ⟨selection, stored, account, hselection, hstored, hfound, ?_⟩
  split at h
  · -- the usage was recorded before
    rename_i existing hexisting
    obtain ⟨rfl, rfl⟩ := Prod.mk.inj (Except.ok.inj h)
    exact .inl ⟨hexisting, rfl⟩
  split at h
  · cases h
  obtain ⟨⟨cost, closed⟩, hclose, h⟩ := bind_ok h
  obtain ⟨account', hsettle, h⟩ := bind_ok h
  obtain ⟨created, hcreate, h⟩ := bind_ok h
  obtain ⟨added, hadd, h⟩ := bind_ok h
  obtain ⟨rfl, rfl⟩ := Prod.mk.inj (Except.ok.inj h)
  exact .inr ⟨cost, closed, account', hclose, hsettle, hcreate, hadd⟩

theorem finalize_spec {claim : TaskClaim} {reservation : BudgetReservation} {usage : TokenUsage}
    {kind : UsageKind} {id : UUID} {record : UsageRecord} (hconserved : Conserved books)
    (h : finalize books claim reservation usage kind id at_ = .ok (record, books')) :
    Conserved books' ∧ Effect runs books books' ∧ books'.Finalized reservation.idempotencyKey := by
  obtain ⟨selection, stored, account, -, hstored, hfound, hcases⟩ := finalize_ok h
  obtain ⟨hmem, hkey⟩ := reservation_some hstored
  rcases hcases with ⟨hexisting, rfl⟩ | ⟨cost, closed, account', hclose, hsettle, hcreate, hadd⟩
  · obtain ⟨hrecord, hrecordId⟩ := usageOf_some hexisting
    have hstatus := (hconserved.recorded stored hmem).mp ⟨record, hrecord, hrecordId⟩
    refine ⟨hconserved, .kept rfl, stored, hmem, hkey, ?_⟩
    rcases hstatus with hstatus | hstatus <;> simp [hstatus]
  have hamount := hconserved.amounts stored hmem
  have hbalanced := hconserved.balanced _ account hfound
  have hfound' : books.accounts.get? account.projectId = some account :=
    hbalanced.project.symm ▸ hfound
  obtain ⟨hcloses, hstatus, hcost⟩ := closeReservation_spec hamount hclose
  obtain ⟨settled, hsettled, hadjusts⟩ := account_settles hconserved hfound hmem hcloses.reserved hcost
  have hsame : settled = account' := Except.ok.inj (hsettled.symm.trans hsettle)
  subst hsame
  have hrecord : Records closed [record] cost := by
    unfold UsageRecord.create at hcreate
    split at hcreate
    · cases hcreate
    · obtain rfl := Except.ok.inj hcreate
      rw [hcost.1.money_eq]
      exact .finalized hstatus hcloses.id.symm hcloses.projectId.symm hcost
  obtain rfl := addUsage_ok hadd
  have hclosed : Conserved ⟨(books.saveAccount settled).accounts,
      put BudgetReservation.id closed books.reservations, books.usage ++ [record]⟩ :=
    hconserved.closed hfound' hmem hbalanced.project.symm hcloses hrecord hadjusts
  have hopen : closed.status ≠ .reserved := by
    rcases hstatus with hstatus | hstatus <;> simp [hstatus]
  exact ⟨hclosed, .closed hmem hcloses hopen hconserved.ids rfl, closed, mem_put_self hmem hcloses.id.symm,
    hcloses.key.trans hkey, hopen⟩

/-- Finalizing never fails an amount check of the account. -/
theorem finalize_error {claim : TaskClaim} {reservation : BudgetReservation} {usage : TokenUsage}
    {kind : UsageKind} {id : UUID} {error : BudgetError} (hconserved : Conserved books)
    (h : finalize books claim reservation usage kind id at_ = .error error) :
    ¬AmountCheck error := by
  unfold finalize at h
  split at h
  · obtain rfl := Except.error.inj h
    simp [AmountCheck, validation]
  split at h
  · obtain rfl := Except.error.inj h
    simp [AmountCheck, validation, notFound]
  rename_i stored hstored
  obtain ⟨hmem, -⟩ := reservation_some hstored
  split at h
  · obtain rfl := Except.error.inj h
    simp [AmountCheck, validation, notFound]
  rename_i account hfound
  split at h
  · cases h
  split at h
  · obtain rfl := Except.error.inj h
    simp [AmountCheck, validation]
  have hamount := hconserved.amounts stored hmem
  have hbalanced := hconserved.balanced _ account hfound
  rcases bind_error h with hclose | ⟨⟨cost, closed⟩, hclose, h⟩
  · exact closeReservation_error hclose
  obtain ⟨hcloses, hstatus, hcost⟩ := closeReservation_spec hamount hclose
  obtain ⟨settled, hsettled, hadjusts⟩ := account_settles hconserved hfound hmem hcloses.reserved hcost
  rcases bind_error h with hsettle | ⟨account', hsettle, h⟩
  · rw [hsettled] at hsettle
    cases hsettle
  rcases bind_error h with hcreate | ⟨record, hcreate, h⟩
  · unfold UsageRecord.create at hcreate
    split at hcreate
    · obtain rfl := Except.error.inj hcreate
      simp [AmountCheck, validation]
    · cases hcreate
  rcases bind_error h with hadd | ⟨added, hadd, h⟩
  · unfold Books.addUsage at hadd
    split at hadd
    · obtain rfl := Except.error.inj hadd
      simp [AmountCheck, validation]
    · cases hadd
  · cases h

/-! ## 2. Releasing the reservations of a run -/

/-- What the loop of `release_run_reservations` relies on: the account in memory goes with the books. -/
structure Releasing (projectId : UUID) (account : BudgetAccount) (books : Books)
    (reservations : List BudgetReservation) : Prop where
  conserved : Conserved (books.saveAccount account)
  project : account.projectId = projectId
  reserved : ∀ reservation ∈ reservations,
    reservation ∈ books.reservations ∧ reservation.status = .reserved
  ids : (reservations.map BudgetReservation.id).Nodup

/-- One round of the loop. -/
theorem Releasing.next (changedAt : Instant) {projectId : UUID} {account : BudgetAccount}
    {reservation : BudgetReservation} {reservations : List BudgetReservation}
    (h : Releasing projectId account books (reservation :: reservations))
    (hproject : reservation.projectId = projectId) :
    ∃ account' released, Account.release account reservation.reservedUsd changedAt = .ok account' ∧
      Reservation.release reservation changedAt = .ok released ∧ Closes reservation released ∧
      released.status = .released ∧
      Releasing projectId account' (books.saveReservation released) reservations := by
  have hfound : (books.saveAccount account).accounts.get? account.projectId = some account := by
    rw [get?_saveAccount, if_pos rfl]
  have hbalanced := h.conserved.balanced _ account hfound
  obtain ⟨hmem, hreserved⟩ := h.reserved reservation List.mem_cons_self
  have hamount : Micro reservation.reservedUsd ∧ 0 ≤ reservation.reservedUsd :=
    h.conserved.amounts reservation hmem
  have hsame : reservation.projectId = account.projectId := hproject.trans h.project.symm
  obtain ⟨account', hrelease, hadjusts⟩ : ∃ account',
      Account.release account reservation.reservedUsd changedAt = .ok account' ∧
        Adjusts account account' (-reservation.reservedUsd) 0 :=
    Account.release_ok (h.conserved.reserved_micro hfound) hbalanced.limit hamount
      (h.conserved.reserved_le (hsame ▸ hfound) hmem hreserved)
  obtain ⟨released, hreleased⟩ : ∃ released,
      Reservation.release reservation changedAt = .ok released := by
    have hzero : money 0 = 0 := Micro.money_eq Exact.zero
    unfold Reservation.release Reservation.finalize
    rw [if_neg (not_not.mpr hreserved), hzero, if_neg (lt_irrefl 0)]
    exact ⟨_, rfl⟩
  obtain ⟨hcloses, hstatus, -⟩ := Reservation.finalize_ok hreleased
  refine ⟨account', released, hrelease, hreleased, hcloses, hstatus, ?_⟩
  have hclosed := h.conserved.closed hfound hmem hsame hcloses (.released hstatus) hadjusts
  have hnodup := h.ids
  rw [List.map_cons, List.nodup_cons] at hnodup
  refine ⟨hclosed.congr ?_ rfl (List.append_nil _).symm, hadjusts.projectId.trans h.project, ?_,
    hnodup.2⟩
  · -- both accounts are saved under the same project
    intro p
    show ((books.saveReservation released).saveAccount account').accounts.get? p = _
    rw [get?_saveAccount, get?_saveAccount, get?_saveAccount, hadjusts.projectId]
    by_cases hp : p = account.projectId
    · simp [hp]
    · simp [hp, Books.saveReservation]
  · intro other hother
    obtain ⟨hotherMem, hotherReserved⟩ := h.reserved other (List.mem_cons_of_mem _ hother)
    apply And.intro _ hotherReserved
    apply mem_put_of_ne hotherMem
    intro hid
    rw [hcloses.id] at hid
    exact hnodup.1 (hid ▸ List.mem_map_of_mem hother)

/-- The loop closes its reservations and nothing else. -/
theorem releaseAll_spec {runId projectId : UUID} {account account' : BudgetAccount}
    {reservations : List BudgetReservation}
    (hreleasing : Releasing projectId account books reservations)
    (h : releaseAll runId projectId at_ account books reservations = .ok (account', books')) :
    Conserved (books'.saveAccount account') ∧ Effect runs books books' ∧
      ∀ reservation ∈ books'.reservations, reservation.status = .reserved →
        reservation ∈ books.reservations ∧
          ∀ other ∈ reservations, other.id ≠ reservation.id := by
  induction reservations generalizing account books with
  | nil =>
    obtain ⟨rfl, rfl⟩ := Prod.mk.inj (Except.ok.inj h)
    exact ⟨hreleasing.conserved, .kept rfl, fun reservation hmem _ => ⟨hmem, List.forall_mem_nil _⟩⟩
  | cons first reservations ih =>
    unfold releaseAll at h
    split at h
    · cases h
    rename_i hproject
    obtain ⟨next, released, hrelease, hreleased, hcloses, hstatus, hnext⟩ :=
      hreleasing.next at_ (not_not.mp hproject)
    simp only [hrelease, hreleased, bind, Except.bind] at h
    obtain ⟨hconserved, heffect, hrest⟩ := ih hnext h
    have hmem := (hreleasing.reserved first List.mem_cons_self).1
    have hopen : released.status ≠ .reserved := by simp [hstatus]
    refine ⟨hconserved, .trans (.closed hmem hcloses hopen hreleasing.conserved.ids rfl) heffect, ?_⟩
    intro reservation hreservation hreserved
    obtain ⟨hput, hothers⟩ := hrest reservation hreservation hreserved
    rcases mem_put hput with rfl | ⟨hold, hne⟩
    · exact absurd hreserved hopen
    · refine ⟨hold, List.forall_mem_cons.mpr ⟨?_, hothers⟩⟩
      rw [← hcloses.id]
      exact Ne.symm hne

theorem releaseAll_error {runId projectId : UUID} {account : BudgetAccount}
    {reservations : List BudgetReservation} {error : BudgetError}
    (hreleasing : Releasing projectId account books reservations)
    (h : releaseAll runId projectId at_ account books reservations = .error error) :
    ¬AmountCheck error := by
  induction reservations generalizing account books with
  | nil => cases h
  | cons first reservations ih =>
    unfold releaseAll at h
    split at h
    · obtain rfl := Except.error.inj h
      simp [AmountCheck, validation]
    rename_i hproject
    obtain ⟨next, released, hrelease, hreleased, -, -, hnext⟩ :=
      hreleasing.next at_ (not_not.mp hproject)
    simp only [hrelease, hreleased, bind, Except.bind] at h
    exact ih hnext h

/-- The account and the open reservations of a run are what the loop relies on. -/
theorem releasing_start {runId : UUID} {first : BudgetReservation} {rest : List BudgetReservation}
    {account : BudgetAccount} (hconserved : Conserved books)
    (hlist : books.reservedByRun runId = first :: rest)
    (hfound : books.accounts.get? first.projectId = some account) :
    Releasing first.projectId account books (first :: rest) where
  conserved := by
    refine hconserved.congr ?_ rfl rfl
    intro projectId
    have hproject := (hconserved.balanced _ account hfound).project
    rw [get?_saveAccount, hproject]
    by_cases hsame : projectId = first.projectId
    · rw [if_pos hsame, hsame, hfound]
    · rw [if_neg hsame]
  project := (hconserved.balanced _ account hfound).project
  reserved := by
    intro reservation hmem
    rw [← hlist] at hmem
    have hfilter := List.mem_filter.mp hmem
    simp only [decide_eq_true_eq] at hfilter
    exact ⟨hfilter.1, hfilter.2.2⟩
  ids := by
    rw [← hlist]
    exact hconserved.ids.sublist (List.filter_sublist.map BudgetReservation.id)

/-- The run has no open reservation. -/
def Books.Released (books : Books) (runId : UUID) : Prop :=
  ∀ reservation ∈ books.reservations, reservation.runId = runId → reservation.status ≠ .reserved

theorem released_iff {runId : UUID} : books.Released runId ↔ books.reservedByRun runId = [] := by
  unfold Books.Released Books.reservedByRun
  rw [List.filter_eq_nil_iff]
  simp

theorem releaseRunReservations_spec {runId : UUID} {count : ℕ} (hconserved : Conserved books)
    (h : releaseRunReservations books runId at_ = .ok (count, books')) :
    Conserved books' ∧ Effect runs books books' ∧ books'.Released runId := by
  unfold releaseRunReservations at h
  split at h
  · rename_i hnone
    obtain ⟨-, rfl⟩ := Prod.mk.inj (Except.ok.inj h)
    exact ⟨hconserved, .kept rfl, released_iff.mpr hnone⟩
  rename_i first rest hlist
  split at h
  · cases h
  rename_i account hfound
  obtain ⟨⟨account', released⟩, hrelease, h⟩ := bind_ok h
  obtain ⟨-, rfl⟩ := Prod.mk.inj (Except.ok.inj h)
  obtain ⟨hreleased, heffect, hopen⟩ :=
    releaseAll_spec (releasing_start hconserved hlist hfound) hrelease
  refine ⟨hreleased, heffect.trans (.kept rfl), ?_⟩
  intro reservation hmem hrun hreserved
  obtain ⟨hold, hothers⟩ := hopen reservation hmem hreserved
  refine hothers reservation ?_ rfl
  rw [← hlist]
  exact List.mem_filter.mpr ⟨hold, by simp [hrun, hreserved]⟩

theorem releaseRunReservations_error {runId : UUID} {error : BudgetError}
    (hconserved : Conserved books)
    (h : releaseRunReservations books runId at_ = .error error) : ¬AmountCheck error := by
  unfold releaseRunReservations at h
  split at h
  · cases h
  rename_i first rest hlist
  split at h
  · obtain rfl := Except.error.inj h
    simp [AmountCheck, validation]
  rename_i account hfound
  rcases bind_error h with hrelease | ⟨_, _, h⟩
  · exact releaseAll_error (releasing_start hconserved hlist hfound) hrelease
  · cases h

/-! ## 3. Calls -/

/-- What a call wants to happen once. -/
inductive Subject where
  | opening (idempotencyKey : String)
  | closing (idempotencyKey : String)
  | releasing (runId : UUID)

def Call.subject : Call → Option Subject
  | .configure .. => none
  | .reserve _ claim _ _ => some (.opening claim.idempotencyKey)
  | .settle _ reservation _ _ _ | .forfeit _ reservation _ _ =>
    reservation.map fun reservation => .closing reservation.idempotencyKey
  | .releaseRunReservations runId _ => some (.releasing runId)

/-- It has happened. -/
def Books.Done (books : Books) : Subject → Prop
  | .opening key => ∃ stored ∈ books.reservations, stored.idempotencyKey = key
  | .closing key => books.Finalized key
  | .releasing runId => books.Released runId

/-- The runs for which a call may open a reservation. -/
def Call.opens : Call → UUID → Prop
  | .reserve _ claim _ _ => fun runId => runId = claim.runId
  | _ => fun _ => False

/-- The call may undo what it has happened for. -/
def Call.reopens (call : Call) : Subject → Prop
  | .releasing runId => call.opens runId
  | _ => False

/-- A new reservation leaves its account within the limit. -/
def WithinLimit (books books' : Books) : Prop :=
  ∀ reservation ∈ books'.reservations,
    (∀ other ∈ books.reservations, other.id ≠ reservation.id) →
      ∃ account, books'.accounts.get? reservation.projectId = some account ∧
        account.reservedUsd + account.spentUsd ≤ account.limitUsd

theorem withinLimit_of_same (hreservations : books'.reservations = books.reservations) :
    WithinLimit books books' := by
  intro reservation hmem hnew
  rw [hreservations] at hmem
  exact absurd rfl (hnew reservation hmem)

theorem reserve_spec {view : Surroundings} {claim : TaskClaim} {id : UUID}
    {answer : Option BudgetReservation} (hconserved : Conserved books)
    (h : reserve books view claim id at_ = .ok (answer, books')) :
    Conserved books' ∧ Effect (fun runId => runId = claim.runId) books books' ∧
      WithinLimit books books' ∧ (books' = books ∨ books'.Done (.opening claim.idempotencyKey)) := by
  have hkept : Conserved books ∧ Effect (fun runId => runId = claim.runId) books books ∧
      WithinLimit books books ∧ (books = books ∨ books.Done (.opening claim.idempotencyKey)) :=
    ⟨hconserved, .kept rfl, withinLimit_of_same rfl, .inl rfl⟩
  unfold reserve at h
  split at h
  · obtain ⟨-, rfl⟩ := Prod.mk.inj (Except.ok.inj h)
    exact hkept
  split at h
  · obtain ⟨-, rfl⟩ := Prod.mk.inj (Except.ok.inj h)
    exact hkept
  obtain ⟨projectId, -, h⟩ := bind_ok h
  dsimp only at h
  split at h
  · obtain ⟨-, rfl⟩ := Prod.mk.inj (Except.ok.inj h)
    exact hkept
  rename_i account hfound
  obtain ⟨⟨reservation, opened⟩, hopen, h⟩ := bind_ok h
  obtain ⟨-, rfl⟩ := Prod.mk.inj (Except.ok.inj h)
  obtain ⟨hopened, hreservations, hrun, hkey, hlimit⟩ := openReservation_spec hconserved hfound hopen
  refine ⟨hopened, .opened hrun hreservations, ?_, .inr ⟨reservation, by simp [hreservations], hkey⟩⟩
  intro other hmem hnew
  rw [hreservations] at hmem
  rcases List.mem_append.mp hmem with hold | hadded
  · exact absurd rfl (hnew other hold)
  · rw [List.mem_singleton.mp hadded]
    exact hlimit

theorem reserve_error {view : Surroundings} {claim : TaskClaim} {id : UUID} {error : BudgetError}
    (h : reserve books view claim id at_ = .error error) : ¬AmountCheck error := by
  unfold reserve at h
  split at h
  · cases h
  split at h
  · cases h
  rcases bind_error h with hproject | ⟨projectId, -, h⟩
  · unfold Surroundings.projectId at hproject
    split at hproject
    · obtain rfl := Except.error.inj hproject
      simp [AmountCheck, validation, notFound]
    split at hproject
    · obtain rfl := Except.error.inj hproject
      simp [AmountCheck, validation, notFound]
    · cases hproject
  dsimp only at h
  split at h
  · cases h
  rcases bind_error h with hopen | ⟨_, _, h⟩
  · unfold openReservation at hopen
    rcases bind_error hopen with hreserve | ⟨account', -, hopen⟩
    · unfold Account.reserve at hreserve
      split at hreserve
      · obtain rfl := Except.error.inj hreserve
        simp [AmountCheck, validation]
      split at hreserve
      · obtain rfl := Except.error.inj hreserve
        simp [AmountCheck, validation]
      · cases hreserve
    rcases bind_error hopen with hcreate | ⟨created, -, hopen⟩
    · unfold Reservation.create at hcreate
      split at hcreate
      · obtain rfl := Except.error.inj hcreate
        simp [AmountCheck, validation]
      split at hcreate
      · obtain rfl := Except.error.inj hcreate
        simp [AmountCheck, validation]
      · cases hcreate
    rcases bind_error hopen with hadd | ⟨_, _, hopen⟩
    · unfold Books.addReservation at hadd
      split at hadd
      · obtain rfl := Except.error.inj hadd
        simp [AmountCheck, validation]
      · cases hadd
    · cases hopen
  · cases h

theorem configure_error {view : Surroundings} {projectId id : UUID} {limitUsd : Decimal}
    {error : BudgetError} (h : configure books view projectId limitUsd id at_ = .error error) :
    ¬AmountCheck error := by
  unfold configure at h
  split at h
  · obtain rfl := Except.error.inj h
    simp [AmountCheck, validation, notFound]
  split at h
  · rcases bind_error h with hcreate | ⟨_, _, h⟩
    · unfold Account.create at hcreate
      split at hcreate
      · obtain rfl := Except.error.inj hcreate
        simp [AmountCheck, validation]
      · cases hcreate
    · cases h
  · rcases bind_error h with hset | ⟨_, _, h⟩
    · unfold Account.setLimit at hset
      split at hset
      · obtain rfl := Except.error.inj hset
        simp [AmountCheck, validation]
      · cases hset
    · cases h

/-- A call that opens nothing keeps the ids. -/
theorem Effect.ids (h : Effect (fun _ => False) books books') :
    books'.reservations.map BudgetReservation.id = books.reservations.map BudgetReservation.id := by
  induction h with
  | kept hreservations => rw [hreservations]
  | opened hrun => exact hrun.elim
  | closed _ _ _ _ hreservations => rw [hreservations, map_key_put]
  | trans _ _ ih ih' => exact ih'.trans ih

theorem Effect.withinLimit (h : Effect (fun _ => False) books books') : WithinLimit books books' := by
  intro reservation hmem hnew
  have hid : reservation.id ∈ books.reservations.map BudgetReservation.id := by
    rw [← h.ids]
    exact List.mem_map_of_mem hmem
  obtain ⟨other, hother, hsame⟩ := List.mem_map.mp hid
  exact absurd hsame (hnew other hother)

/-- What a call that succeeds does. -/
theorem Call.perform_spec {call : Call} {answer : Answer} (hconserved : Conserved books)
    (h : call.perform books = .ok (answer, books')) :
    Conserved books' ∧ Effect call.opens books books' ∧ WithinLimit books books' ∧
      (books' = books ∨ ∀ subject, call.subject = some subject → books'.Done subject) := by
  cases call with
  | configure =>
    obtain ⟨⟨account, configured⟩, hconfigure, h⟩ := bind_ok h
    obtain ⟨-, rfl⟩ := Prod.mk.inj (Except.ok.inj h)
    obtain ⟨hconfigured, hreservations⟩ := configure_spec hconserved hconfigure
    refine ⟨hconfigured, .kept hreservations, withinLimit_of_same hreservations, .inr ?_⟩
    intro subject hsubject
    cases hsubject
  | reserve =>
    obtain ⟨⟨reservation, reserved⟩, hreserve, h⟩ := bind_ok h
    obtain ⟨-, rfl⟩ := Prod.mk.inj (Except.ok.inj h)
    obtain ⟨hreserved, heffect, hlimit, hdone⟩ := reserve_spec hconserved hreserve
    refine ⟨hreserved, heffect, hlimit, hdone.imp_right fun hdone => ?_⟩
    intro subject hsubject
    obtain rfl := Option.some.inj hsubject
    exact hdone
  | settle claim reservation usage =>
    obtain ⟨⟨record, settled⟩, hsettle, h⟩ := bind_ok h
    obtain ⟨-, rfl⟩ := Prod.mk.inj (Except.ok.inj h)
    unfold Budgets.settle at hsettle
    split at hsettle
    · obtain ⟨-, rfl⟩ := Prod.mk.inj (Except.ok.inj hsettle)
      exact ⟨hconserved, .kept rfl, withinLimit_of_same rfl, .inl rfl⟩
    · cases hsettle
    · obtain ⟨⟨record, finalized⟩, hfinalize, hsettle⟩ := bind_ok hsettle
      obtain ⟨-, rfl⟩ := Prod.mk.inj (Except.ok.inj hsettle)
      obtain ⟨hfinalized, heffect, hdone⟩ := finalize_spec hconserved hfinalize
      refine ⟨hfinalized, heffect, heffect.withinLimit, .inr ?_⟩
      intro subject hsubject
      obtain rfl := Option.some.inj hsubject
      exact hdone
  | forfeit claim reservation =>
    obtain ⟨⟨record, forfeited⟩, hforfeit, h⟩ := bind_ok h
    obtain ⟨-, rfl⟩ := Prod.mk.inj (Except.ok.inj h)
    unfold Budgets.forfeit at hforfeit
    split at hforfeit
    · obtain ⟨-, rfl⟩ := Prod.mk.inj (Except.ok.inj hforfeit)
      exact ⟨hconserved, .kept rfl, withinLimit_of_same rfl, .inl rfl⟩
    · obtain ⟨⟨record, finalized⟩, hfinalize, hforfeit⟩ := bind_ok hforfeit
      obtain ⟨-, rfl⟩ := Prod.mk.inj (Except.ok.inj hforfeit)
      obtain ⟨hfinalized, heffect, hdone⟩ := finalize_spec hconserved hfinalize
      refine ⟨hfinalized, heffect, heffect.withinLimit, .inr ?_⟩
      intro subject hsubject
      obtain rfl := Option.some.inj hsubject
      exact hdone
  | releaseRunReservations runId =>
    obtain ⟨⟨count, released⟩, hrelease, h⟩ := bind_ok h
    obtain ⟨-, rfl⟩ := Prod.mk.inj (Except.ok.inj h)
    obtain ⟨hreleased, heffect, hdone⟩ := releaseRunReservations_spec hconserved hrelease
    refine ⟨hreleased, heffect, heffect.withinLimit, .inr ?_⟩
    intro subject hsubject
    obtain rfl := Option.some.inj hsubject
    exact hdone

theorem Call.perform_error {call : Call} {error : BudgetError} (hconserved : Conserved books)
    (h : call.perform books = .error error) : ¬AmountCheck error := by
  cases call with
  | configure =>
    rcases bind_error h with hconfigure | ⟨_, _, h⟩
    · exact configure_error hconfigure
    · cases h
  | reserve =>
    rcases bind_error h with hreserve | ⟨_, _, h⟩
    · exact reserve_error hreserve
    · cases h
  | settle =>
    rcases bind_error h with hsettle | ⟨_, _, h⟩
    · unfold Budgets.settle at hsettle
      split at hsettle
      · cases hsettle
      · obtain rfl := Except.error.inj hsettle
        simp [AmountCheck, validation]
      · rcases bind_error hsettle with hfinalize | ⟨_, _, hsettle⟩
        · exact finalize_error hconserved hfinalize
        · cases hsettle
    · cases h
  | forfeit =>
    rcases bind_error h with hforfeit | ⟨_, _, h⟩
    · unfold Budgets.forfeit at hforfeit
      split at hforfeit
      · cases hforfeit
      · rcases bind_error hforfeit with hfinalize | ⟨_, _, hforfeit⟩
        · exact finalize_error hconserved hfinalize
        · cases hforfeit
    · cases h
  | releaseRunReservations =>
    rcases bind_error h with hrelease | ⟨_, _, h⟩
    · exact releaseRunReservations_error hconserved hrelease
    · cases h

/-! ## 4. Repeated calls -/

/-- What has happened stays so, unless a call opens a reservation for a released run. -/
theorem Effect.done {subject : Subject} (h : Effect runs books books') (hdone : books.Done subject)
    (hruns : ∀ runId, subject = .releasing runId → ¬runs runId) : books'.Done subject := by
  induction h with
  | kept hreservations =>
    cases subject with
    | opening | closing | releasing =>
      simp only [Books.Done, Books.Finalized, Books.Released, hreservations] at hdone ⊢
      exact hdone
  | opened hrun hreservations =>
    cases subject with
    | opening =>
      obtain ⟨stored, hmem, hkey⟩ := hdone
      exact ⟨stored, by simp [hreservations, hmem], hkey⟩
    | closing =>
      obtain ⟨stored, hmem, hkey⟩ := hdone
      exact ⟨stored, by simp [hreservations, hmem], hkey⟩
    | releasing runId =>
      intro reservation hmem hsame
      rw [hreservations] at hmem
      rcases List.mem_append.mp hmem with hold | hnew
      · exact hdone reservation hold hsame
      · rw [List.mem_singleton.mp hnew] at hsame
        exact absurd (hsame ▸ hrun) (hruns runId rfl)
  | @closed books books' reservation closed hmem hcloses hstatus hids hreservations =>
    -- the reservation that is closed keeps its key
    have hkeys : books'.reservations.map BudgetReservation.idempotencyKey =
        books.reservations.map BudgetReservation.idempotencyKey := by
      rw [hreservations, map_put_of_eq hids hmem hcloses.id.symm hcloses.key]
    cases subject with
    | opening key =>
      obtain ⟨stored, hstored, hkey⟩ := hdone
      have hkeyMem : key ∈ books'.reservations.map BudgetReservation.idempotencyKey := by
        rw [hkeys, ← hkey]
        exact List.mem_map_of_mem hstored
      exact List.mem_map.mp hkeyMem
    | closing key =>
      obtain ⟨stored, hstored, hkey, hfinal⟩ := hdone
      by_cases hid : stored.id = closed.id
      · -- the one that is closed was open
        have hsame : stored = reservation := eq_of_key hids hstored hmem (hid.trans hcloses.id)
        exact absurd (hsame ▸ hcloses.reserved) hfinal
      · exact ⟨stored, by rw [hreservations]; exact mem_put_of_ne hstored hid, hkey, hfinal⟩
    | releasing runId =>
      intro other hother hrun
      rw [hreservations] at hother
      rcases mem_put hother with rfl | ⟨hold, -⟩
      · exact hstatus
      · exact hdone other hold hrun
  | trans _ _ ih ih' => exact ih' (ih hdone)

/-- A closed reservation is not closed again: its usage is replayed, or the call raises. -/
theorem finalize_unchanged {claim : TaskClaim} {reservation : BudgetReservation} {usage : TokenUsage}
    {kind : UsageKind} {id : UUID} {record : UsageRecord} (hconserved : Conserved books)
    (hfinal : books.Finalized reservation.idempotencyKey)
    (h : finalize books claim reservation usage kind id at_ = .ok (record, books')) :
    books' = books := by
  obtain ⟨closed, hclosed, hkey, hstatus⟩ := hfinal
  unfold finalize at h
  split at h
  · cases h
  rw [← hkey, reservation_of_mem hconserved hclosed] at h
  dsimp only at h
  split at h
  · cases h
  split at h
  · exact (Prod.mk.inj (Except.ok.inj h)).2.symm
  · rw [if_pos hstatus] at h
    cases h

theorem Call.perform_unchanged {call : Call} {subject : Subject} {answer : Answer}
    (hconserved : Conserved books) (hsubject : call.subject = some subject)
    (hdone : books.Done subject) (h : call.perform books = .ok (answer, books')) : books' = books := by
  cases call with
  | configure => cases hsubject
  | reserve view claim =>
    obtain rfl := Option.some.inj hsubject
    obtain ⟨⟨reservation, reserved⟩, hreserve, h⟩ := bind_ok h
    obtain ⟨-, rfl⟩ := Prod.mk.inj (Except.ok.inj h)
    obtain ⟨stored, hmem, hkey⟩ := hdone
    unfold Budgets.reserve at hreserve
    split at hreserve
    · exact (Prod.mk.inj (Except.ok.inj hreserve)).2.symm
    · rw [← hkey, reservation_of_mem hconserved hmem] at hreserve
      exact (Prod.mk.inj (Except.ok.inj hreserve)).2.symm
  | settle claim reservation usage =>
    obtain ⟨reservation, rfl, rfl⟩ := Option.map_eq_some_iff.mp hsubject
    obtain ⟨⟨record, settled⟩, hsettle, h⟩ := bind_ok h
    obtain ⟨-, rfl⟩ := Prod.mk.inj (Except.ok.inj h)
    cases usage with
    | none => cases hsettle
    | some usage =>
      obtain ⟨⟨record, finalized⟩, hfinalize, hsettle⟩ := bind_ok hsettle
      obtain ⟨-, rfl⟩ := Prod.mk.inj (Except.ok.inj hsettle)
      exact finalize_unchanged hconserved hdone hfinalize
  | forfeit claim reservation =>
    obtain ⟨reservation, rfl, rfl⟩ := Option.map_eq_some_iff.mp hsubject
    obtain ⟨⟨record, forfeited⟩, hforfeit, h⟩ := bind_ok h
    obtain ⟨-, rfl⟩ := Prod.mk.inj (Except.ok.inj h)
    obtain ⟨⟨record, finalized⟩, hfinalize, hforfeit⟩ := bind_ok hforfeit
    obtain ⟨-, rfl⟩ := Prod.mk.inj (Except.ok.inj hforfeit)
    exact finalize_unchanged hconserved hdone hfinalize
  | releaseRunReservations runId =>
    obtain rfl := Option.some.inj hsubject
    obtain ⟨⟨count, released⟩, hrelease, h⟩ := bind_ok h
    obtain ⟨-, rfl⟩ := Prod.mk.inj (Except.ok.inj h)
    unfold Budgets.releaseRunReservations at hrelease
    rw [released_iff.mp hdone] at hrelease
    exact (Prod.mk.inj (Except.ok.inj hrelease)).2.symm

end

/-! ## 5. Runs -/

section

variable {books : Books} {call : Call}

theorem Call.step_ok {answer : Answer} {books' : Books}
    (h : call.perform books = .ok (answer, books')) : call.step books = (.ok answer, books') := by
  unfold Call.step
  rw [h]

theorem Call.step_error {error : BudgetError} (h : call.perform books = .error error) :
    call.step books = (.error error, books) := by
  unfold Call.step
  rw [h]

/-- What a call does to the books, also one that is rolled back. -/
theorem Call.step_spec (call : Call) (hconserved : Conserved books) :
    Conserved (call.step books).2 ∧ Effect call.opens books (call.step books).2 ∧
      WithinLimit books (call.step books).2 ∧
      (∀ error, (call.step books).1 = .error error → ¬AmountCheck error) ∧
      ((call.step books).2 = books ∨
        ∀ subject, call.subject = some subject → (call.step books).2.Done subject) := by
  cases hperform : call.perform books with
  | error error =>
    rw [Call.step_error hperform]
    refine ⟨hconserved, .kept rfl, withinLimit_of_same rfl, ?_, .inl rfl⟩
    intro raised hraised
    obtain rfl := Except.error.inj hraised
    exact Call.perform_error hconserved hperform
  | ok performed =>
    obtain ⟨answer, books'⟩ := performed
    obtain ⟨hconserved', heffect, hlimit, hdone⟩ := Call.perform_spec hconserved hperform
    rw [Call.step_ok hperform]
    refine ⟨hconserved', heffect, hlimit, ?_, hdone⟩
    intro error hraised
    cases hraised

theorem Call.step_unchanged {subject : Subject} (hconserved : Conserved books)
    (hsubject : call.subject = some subject) (hdone : books.Done subject) :
    (call.step books).2 = books := by
  cases hperform : call.perform books with
  | error error => rw [Call.step_error hperform]
  | ok performed =>
    rw [Call.step_ok hperform]
    exact Call.perform_unchanged hconserved hsubject hdone hperform

theorem Call.step_done {subject : Subject} (hconserved : Conserved books)
    (hdone : books.Done subject) (hreopens : ¬call.reopens subject) :
    (call.step books).2.Done subject := by
  apply (Call.step_spec call hconserved).2.1.done hdone
  rintro runId rfl
  exact hreopens

end

theorem run_conserved {books : Books} (hconserved : Conserved books) (calls : List Call) :
    Conserved (budgets.run books calls) :=
  budgets.run_invariant (I := Conserved) (fun _ _ h => (Call.step_spec _ h).1) hconserved calls

/-- What has happened stays so over calls that do not reopen it. -/
theorem run_done {books : Books} {subject : Subject} (hconserved : Conserved books)
    (hdone : books.Done subject) {calls : List Call}
    (hreopens : ∀ call ∈ calls, ¬call.reopens subject) :
    (budgets.run books calls).Done subject := by
  have hboth : Conserved (budgets.run books calls) ∧ (budgets.run books calls).Done subject := by
    apply budgets.run_among (Q := fun books => Conserved books ∧ books.Done subject)
      ⟨hconserved, hdone⟩
    intro books call hcall h
    exact ⟨(Call.step_spec call h.1).1, Call.step_done h.1 h.2 (hreopens call hcall)⟩
  exact hboth.2

/-- After any calls the accounts hold what the open reservations and the usage records say; no call
fails an amount check, a new reservation stays within the limit, and a repeated call changes nothing. -/
theorem ledger_conserved (calls : List Call) :
    Conserved (budgets.run {} calls) ∧
      (∀ projectId account, (budgets.run {} calls).accounts.get? projectId = some account →
        0 ≤ account.reservedUsd ∧ 0 ≤ account.spentUsd) ∧
      (∀ t ∈ budgets.trace {} calls,
        (∀ error, t.output = .error error → ¬AmountCheck error) ∧ WithinLimit t.before t.after) ∧
      ∀ (call : Call) (later : List Call) (again : Call) (subject : Subject),
        (call.step (budgets.run {} calls)).2 ≠ budgets.run {} calls →
          call.subject = some subject → again.subject = some subject →
            (∀ between ∈ later, ¬between.reopens subject) →
              (again.step (budgets.run {} (calls ++ call :: later))).2 =
                budgets.run {} (calls ++ call :: later) := by
  have hconserved := run_conserved Conserved.empty calls
  refine ⟨hconserved, ?_, ?_, ?_⟩
  · intro projectId account haccount
    exact ⟨hconserved.reserved_nonneg haccount, hconserved.spent_nonneg haccount⟩
  · intro t ht
    obtain ⟨hbefore, hfire⟩ :=
      budgets.trace_invariant (I := Conserved) (fun _ _ h => (Call.step_spec _ h).1) .empty ht
    obtain ⟨-, -, hlimit, herror, -⟩ := Call.step_spec t.input hbefore
    rw [hfire]
    exact ⟨herror, hlimit⟩
  · intro call later again subject hchanged hsubject hagain hlater
    rw [budgets.run_append]
    obtain ⟨hconserved', -, -, -, hkept | hdone⟩ := Call.step_spec call hconserved
    · exact absurd hkept hchanged
    · have hlaterDone := run_done hconserved' (hdone subject hsubject) hlater
      exact Call.step_unchanged (run_conserved hconserved' later) hagain hlaterDone

end JbOrchestrator.Budgets
