import JbOrchestrator.Worker.Runtime

/-!
# Holdings — what service calls do to the runs and reservations of claims

A claim belongs to the run of its execution.  `fail` leaves the node of its claim FAILED or its run
going on; `cancel` and `cancel_run` end one run.  A reservation that was settled or forfeited is no
longer open, and an open one can be forfeited.
-/

open Lib

namespace JbOrchestrator.Worker

open Domain Workflows Infrastructure Application
open Budgets hiding Call

/-! ## 1. The run of a claim -/

/-- The claim belongs to the run of its execution. -/
def OfRun (db : Database) (claim : TaskClaim) : Prop :=
  ∃ execution, db.executions.get? claim.executionId = some execution ∧
    execution.snapshot.runId = claim.runId

section

variable {settings : Settings} {world world' : World} {call : Call} {result : Result}

/-- No execution is lost, and a snapshot stays. -/
theorem Returns.snapshot_kept (h : Returns settings world call result world')
    (hworld : world.Consistent) {id : UUID} {execution : WorkflowExecution}
    (hrow : world.database.executions.get? id = some execution) :
    ∃ after, world'.database.executions.get? id = some after ∧
      after.snapshot = execution.snapshot := by
  obtain ⟨-, held, -, hcommits⟩ := h.commits hworld
  cases hcommits.evolves hworld trivial with
  | same hexecutions => exact ⟨execution, hexecutions ▸ hrow, rfl⟩
  | started _ hnew _ hexecutions =>
    refine ⟨execution, ?_, rfl⟩
    rw [hexecutions, Dict.get?_set_of_ne _ _ ?_, hrow]
    rintro rfl
    rw [hrow] at hnew
    cases hnew
  | @operated _ stored after _ _ _ _ _ hstored _ heffect _ hexecutions =>
    by_cases hid : id = stored.id
    · subst hid
      obtain rfl := Option.some.inj (hrow.symm.trans hstored)
      exact ⟨after, by rw [hexecutions, Dict.get?_set_self], heffect.sameShape.snapshot⟩
    · exact ⟨execution, by rw [hexecutions, Dict.get?_set_of_ne _ _ hid, hrow], rfl⟩

theorem OfRun.returns {claim : TaskClaim} (hrun : OfRun world.database claim)
    (h : Returns settings world call result world') (hworld : world.Consistent) :
    OfRun world'.database claim := by
  obtain ⟨execution, hrow, hsame⟩ := hrun
  obtain ⟨after, hafter, hsnapshot⟩ := h.snapshot_kept hworld hrow
  exact ⟨after, hafter, by rw [hsnapshot, hsame]⟩

/-- The claim that the program of `claim_next` returns belongs to the run of its execution. -/
theorem claimNext_wp (workerId : String) (executorKeys : Option (List String)) (token : UUID)
    (changedAt : Instant) (hworld : world.Consistent) :
    serial.wp settings (.claimNext workerId executorKeys token changedAt)
      (serial.fails (.claimNext workerId executorKeys token changedAt))
      (fun _ _ result world => ∀ claim, result = .claim (some claim) → OfRun world.database claim)
      (Call.program settings (.claimNext workerId executorKeys token changedAt)) ∅ {} world := by
  refine Discipline.wp_bind (Discipline.wp_bind ?_)
  unfold getReadyForUpdate
  split
  · exact fun claim h => nomatch h
  refine Discipline.wp_bind (Discipline.wp_unlocked (fun _ _ => rfl) fun world₁ hrely₁ _ => ?_)
  refine wp_candidate (hworld.rely hrely₁) (fun _ h => .inl ⟨executorKeys, h⟩) ?_ ?_
  · exact fun held world' claim h => nomatch h
  intro held unitOfWork world₂ key stored loaded hworld₂ hopened hloads _ _
  refine Discipline.wp_bind (Discipline.wp_bind (Discipline.wp_ofOption (fun definition _ => ?_)
    fun _ => Discipline.fails_of_not_transition rfl))
  refine wp_nodePhasePack hworld₂ hopened fun phasePack world₃ hworld₃ hopened₃ => ?_
  refine Discipline.wp_bind (Discipline.wp_quiet (resolveArtifactInputs_within _ _) ?_
    fun _ _ => Discipline.fails_of_not_transition)
  intro inputs world₄ hrely₄
  have hworld₄ := hworld₃.rely hrely₄
  have hopened₄ := hopened₃.rely Set.Subset.rfl hrely₄ rfl rfl rfl rfl
  have hclaims := hloads (.claimTask key workerId
    (TaskDispatchService.leaseSeconds settings definition) token changedAt) rfl
  refine wp_operate hworld₄ hopened₄ hclaims fun calls after hstep hid hsnapshot => ?_
  refine Discipline.wp_bind (Discipline.wp_ofOption (fun node hnode => ?_)
    fun _ => Discipline.fails_of_not_transition rfl)
  refine Discipline.wp_bind (Discipline.wp_ofOption (fun leaseToken hleaseToken => ?_)
    fun _ => Discipline.fails_of_not_transition rfl)
  refine Discipline.wp_bind (Discipline.wp_quiet (skills_within _ _) ?_
    fun _ _ => Discipline.fails_of_not_transition)
  intro skills world₅ hrely₅
  refine Discipline.wp_bind (Discipline.wp_unlocked (fun _ _ => rfl) fun world₆ hrely₆ _ => ?_)
  refine Discipline.wp_bind (Discipline.wp_unlocked (fun _ _ => rfl) fun world₇ hrely₇ _ => ?_)
  refine Discipline.wp_pure (Discipline.wp_pure ?_)
  rintro claim hclaim
  obtain rfl := Option.some.inj (Result.claim.inj hclaim)
  obtain rfl : world₄ = world₅ := hrely₅
  obtain rfl : world₄ = world₆ := hrely₆
  obtain rfl : world₄ = world₇ := hrely₇
  refine ⟨stored, ?_, congrArg WorkflowSnapshot.runId hsnapshot.symm⟩
  show world₄.database.executions.get? after.id = some stored
  rw [hid]
  exact hopened₄.row

theorem Returns.ofRun {workerId : String} {executorKeys : Option (List String)} {token : UUID}
    {changedAt : Instant} {claim : TaskClaim}
    (h : Returns settings world (.claimNext workerId executorKeys token changedAt)
      (.claim (some claim)) world') (hworld : world.Consistent) : OfRun world'.database claim := by
  obtain ⟨unitOfWork, hserve⟩ := h.served
  have hprogram : serial.wp settings _ _ _ (Call.program settings _) ∅ {} world :=
    claimNext_wp workerId executorKeys token changedAt hworld
  have hresult := (services settings).wp_serve (fun _ _ => rfl) (fun _ _ _ => trivial) hprogram
  rw [hserve] at hresult
  obtain ⟨held, hrun⟩ := hresult
  exact (hrun claim rfl).returns h hworld

/-! ## 2. The end of a run -/

/-- The execution of the run is terminal. -/
def Ended (db : Database) (runId : UUID) : Prop :=
  ∃ id execution, db.executions.get? id = some execution ∧ execution.snapshot.runId = runId ∧
    execution.isTerminal = true

theorem ended_of_same {db db' : Database} (hexecutions : db'.executions = db.executions)
    {runId : UUID} (h : Ended db' runId) : Ended db runId := by
  unfold Ended at h ⊢
  rw [← hexecutions]
  exact h

/-- Only the run of the execution that changes can end. -/
theorem ended_set {db db' : Database} {id : UUID} {after : WorkflowExecution}
    (hexecutions : db'.executions = db.executions.set id after) {runId : UUID}
    (h : Ended db' runId) :
    Ended db runId ∨ after.snapshot.runId = runId ∧ after.isTerminal = true := by
  obtain ⟨id', execution, hrow, hrun, hterminal⟩ := h
  rw [hexecutions, Dict.get?_set] at hrow
  split at hrow
  · obtain rfl := Option.some.inj hrow
    exact .inr ⟨hrun, hterminal⟩
  · exact .inl ⟨id', execution, hrow, hrun, hterminal⟩

theorem not_ended {db : Database} (hdb : db.Consistent) {id : UUID} {execution : WorkflowExecution}
    (hrow : db.executions.get? id = some execution) (hlive : execution.isTerminal = false) :
    ¬Ended db execution.snapshot.runId := by
  rintro ⟨id', other, hother, hrun, hterminal⟩
  obtain rfl := hdb.executionUnique id' id other execution hother hrow hrun
  obtain rfl := Option.some.inj (hother.symm.trans hrow)
  rw [hlive] at hterminal
  cases hterminal

/-- The node that has no attempt left is FAILED, and `_fail` does not cancel it. -/
theorem givenUp_node {execution : WorkflowExecution} {key : NodeKey} {node : NodeExecution}
    (hnode : execution.nodes.get? key = some node) (reason : String) (changedAt : Instant) :
    (execution.givenUp key reason changedAt).nodes.get? key = some (node.giveUp changedAt) := by
  show ((execution.nodes.modify key fun node => node.giveUp changedAt).mapValues
    fun node => node.cancel changedAt).get? key = _
  rw [Dict.get?_mapValues, Dict.get?_modify_self, hnode]
  rfl

/-- `fail` leaves the node FAILED or the run going on. -/
theorem Returns.failed {claim : TaskClaim} {reason : String} {now : Instant}
    {execution : WorkflowExecution}
    (h : Returns settings world (.fail claim reason now) (.execution execution) world')
    (hworld : world.Consistent) (hrun : OfRun world.database claim) :
    (execution.nodes.get? claim.nodeKey).map NodeExecution.status = some .failed ∨
      ¬Ended world'.database claim.runId := by
  obtain ⟨hworld', held, -, hcommits⟩ := h.commits hworld
  cases hcommits with
  | idle hresult => rcases hresult with h | h <;> cases h
  | @operated _ _ _ _ _ _ stored _ after _ _ _ _ _ hrow _ hloads hstep hperforms _ _ _ hupdates =>
    have hstored := Database.Consistent.stored hworld _ _ hrow
    obtain rfl := hloads.eq trivial hstored.keys
    have heffect := effect_of_step hstored.sound hstored.active hstep
    have hshape := heffect.sameShape
    have hexecutions := hupdates.executions
    rw [mergeExecution_self hshape.snapshot hshape.id] at hexecutions
    cases hperforms with
    | fail hid =>
      obtain ⟨owned, howned, hsame⟩ := hrun
      rw [← hid] at howned
      obtain rfl := Option.some.inj (hrow.symm.trans howned)
      cases heffect with
      | failTask hnode _ hrunning _ hhandled =>
        have hlive := hstored.active _ _ hnode (by rw [hrunning]; rfl)
        cases hhandled with
        | givenUp =>
          left
          rw [givenUp_node hnode]
          rfl
        | retried =>
          right
          intro hended
          rcases ended_set hexecutions hended with hbefore | ⟨-, hterminal⟩
          · rw [← hsame] at hbefore
            exact not_ended hworld hrow hlive hbefore
          · cases hlive.symm.trans hterminal

/-- The calls that release the reservations of a run. -/
def cancels : Call → Bool
  | .cancel _ _ | .cancelRun _ _ => true
  | _ => false

/-- A call that cancels ends no run but the one whose reservations it releases. -/
theorem Returns.cancelled (h : Returns settings world call result world') (hworld : world.Consistent)
    (hcancels : cancels call = true) :
    ∃ runId now, releasedRun call result = some (runId, now) ∧
      ∀ other, Ended world'.database other → Ended world.database other ∨ other = runId := by
  obtain ⟨-, held, -, hcommits⟩ := h.commits hworld
  have hevolves := hcommits.evolves hworld trivial
  cases call with
  | cancel executionId now =>
    obtain ⟨execution, rfl⟩ : ∃ execution, result = .execution execution := by
      apply h.yields
      exact yields_then fun value => yields_pure ⟨value, rfl⟩
    refine ⟨execution.snapshot.runId, now, rfl, fun other hended => ?_⟩
    cases hevolves with
    | same hexecutions => exact .inl (ended_of_same hexecutions hended)
    | started _ _ _ hexecutions =>
      exact (ended_set hexecutions hended).imp_right fun h => h.1.symm
    | operated _ _ _ hperforms hexecutions =>
      cases hperforms with
      | cancel => exact (ended_set hexecutions hended).imp_right fun h => h.1.symm
  | cancelRun runId now =>
    obtain ⟨run, rfl⟩ : ∃ run, result = .run run := by
      apply h.yields
      exact yields_then fun value => yields_pure ⟨value, rfl⟩
    refine ⟨runId, now, rfl, fun other hended => ?_⟩
    cases hevolves with
    | same hexecutions => exact .inl (ended_of_same hexecutions hended)
    | operated _ _ heffect hperforms hexecutions =>
      cases hperforms with
      | cancelRun =>
        rw [← heffect.sameShape.snapshot]
        exact (ended_set hexecutions hended).imp_right fun h => h.1.symm
  | _ => cases hcancels

end

/-! ## 3. Reservations -/

section

variable {books books' : Books} {claim : TaskClaim} {id : UUID} {now : Instant}

/-- An open reservation was open before, or was opened for one of the runs. -/
theorem effect_reserved {runs : UUID → Prop} (h : Budgets.Effect runs books books')
    {reservation : BudgetReservation} (hmem : reservation ∈ books'.reservations)
    (hopen : reservation.status = .reserved) :
    reservation ∈ books.reservations ∨ runs reservation.runId := by
  induction h with
  | kept hreservations => exact .inl (hreservations ▸ hmem)
  | opened hrun hreservations =>
    rw [hreservations] at hmem
    rcases List.mem_append.mp hmem with hold | hnew
    · exact .inl hold
    · rw [List.mem_singleton.mp hnew]
      exact .inr hrun
  | closed _ _ hstatus _ hreservations =>
    rw [hreservations] at hmem
    rcases mem_put hmem with rfl | ⟨hold, -⟩
    · exact absurd hopen hstatus
    · exact .inl hold
  | trans _ _ ih ih' => exact (ih' hmem).elim (fun h => ih h) .inr

/-- The reservation under the key of a claim is handed out, or opened. -/
theorem reserve_cases {view : Surroundings} {answer : Option BudgetReservation}
    (hconserved : Conserved books) (h : reserve books view claim id now = .ok (answer, books')) :
    (books' = books ∧ ∀ stored ∈ books.reservations, claim.modelSelection.isSome = true →
      stored.idempotencyKey = claim.idempotencyKey → answer = some stored) ∨
    ∃ reservation, answer = some reservation ∧ claim.modelSelection.isSome = true ∧
      reservation.runId = claim.runId ∧ reservation.idempotencyKey = claim.idempotencyKey ∧
      books'.reservations = books.reservations ++ [reservation] := by
  unfold reserve at h
  split at h
  · rename_i hselection
    obtain ⟨-, rfl⟩ := Prod.mk.inj (Except.ok.inj h)
    refine .inl ⟨rfl, fun stored _ hsome => ?_⟩
    rw [hselection] at hsome
    cases hsome
  rename_i selection hselection
  split at h
  · rename_i existing hexisting
    obtain ⟨rfl, rfl⟩ := Prod.mk.inj (Except.ok.inj h)
    refine .inl ⟨rfl, fun stored hstored _ hkey => ?_⟩
    rw [← hexisting, ← hkey, reservation_of_mem hconserved hstored]
  rename_i hnone
  obtain ⟨projectId, -, h⟩ := bind_ok h
  dsimp only at h
  split at h
  · obtain ⟨-, rfl⟩ := Prod.mk.inj (Except.ok.inj h)
    refine .inl ⟨rfl, fun stored hstored _ hkey => ?_⟩
    exact absurd (hkey ▸ List.mem_map_of_mem hstored) (reservation_none.mp hnone)
  rename_i account hfound
  obtain ⟨⟨reservation, opened⟩, hopen, h⟩ := bind_ok h
  obtain ⟨rfl, rfl⟩ := Prod.mk.inj (Except.ok.inj h)
  obtain ⟨-, hreservations, hrun, hkey, -⟩ := openReservation_spec hconserved hfound hopen
  exact .inr ⟨reservation, rfl, by rw [hselection]; rfl, hrun, hkey, hreservations⟩

/-- A claim with a reservation under its key is not refused. -/
theorem reserve_refused {view : Surroundings} {error : BudgetError}
    (h : reserve books view claim id now = .error error) :
    ∀ stored ∈ books.reservations, stored.idempotencyKey ≠ claim.idempotencyKey := by
  unfold reserve at h
  split at h
  · cases h
  split at h
  · cases h
  rename_i hnone
  intro stored hstored hkey
  exact reservation_none.mp hnone (hkey ▸ List.mem_map_of_mem hstored)

theorem settle_finalized {reservation : BudgetReservation} {usage : Option TokenUsage}
    {record : Option UsageRecord} (hconserved : Conserved books)
    (h : settle books claim (some reservation) usage id now = .ok (record, books')) :
    books'.Finalized reservation.idempotencyKey := by
  cases usage with
  | none => cases h
  | some usage =>
    obtain ⟨⟨recorded, finalized⟩, hfinalize, h⟩ := bind_ok h
    obtain ⟨-, rfl⟩ := Prod.mk.inj (Except.ok.inj h)
    have hspec : _ ∧ Budgets.Effect (fun _ => False) books finalized ∧ _ :=
      finalize_spec hconserved hfinalize
    exact hspec.2.2

theorem forfeit_finalized {reservation : BudgetReservation} {record : Option UsageRecord}
    (hconserved : Conserved books)
    (h : forfeit books claim (some reservation) id now = .ok (record, books')) :
    books'.Finalized reservation.idempotencyKey := by
  obtain ⟨⟨recorded, finalized⟩, hfinalize, h⟩ := bind_ok h
  obtain ⟨-, rfl⟩ := Prod.mk.inj (Except.ok.inj h)
  have hspec : _ ∧ Budgets.Effect (fun _ => False) books finalized ∧ _ :=
    finalize_spec hconserved hfinalize
  exact hspec.2.2

/-- `release_run_reservations` leaves no open reservation of its run, and opens none. -/
theorem release_closes {runId : UUID} {count : ℕ} (hconserved : Conserved books)
    (h : releaseRunReservations books runId now = .ok (count, books')) :
    Conserved books' ∧ (∀ reservation ∈ books'.reservations, reservation.status = .reserved →
      reservation ∈ books.reservations) ∧ books'.Released runId := by
  obtain ⟨hconserved', heffect, hreleased⟩ :
      _ ∧ Budgets.Effect (fun _ => False) books books' ∧ _ := releaseRunReservations_spec hconserved h
  exact ⟨hconserved', fun _ hmem hopen => (effect_reserved heffect hmem hopen).resolve_right fun h => h,
    hreleased⟩

/-- The reservation under a finalized key is not open. -/
theorem finalized_ne {key : String} (hconserved : Conserved books) (hfinal : books.Finalized key)
    {reservation : BudgetReservation} (hmem : reservation ∈ books.reservations)
    (hkey : reservation.idempotencyKey = key) : reservation.status ≠ .reserved := by
  obtain ⟨stored, hstored, hstoredKey, hstatus⟩ := hfinal
  obtain rfl := eq_of_key hconserved.keys hmem hstored (hkey.trans hstoredKey.symm)
  exact hstatus

/-- An open reservation can be forfeited under a new usage id. -/
theorem forfeit_ok {reservation stored : BudgetReservation} (hconserved : Conserved books)
    (hselection : claim.modelSelection.isSome = true) (hmem : stored ∈ books.reservations)
    (hopen : stored.status = .reserved)
    (hkey : reservation.idempotencyKey = stored.idempotencyKey)
    (hid : id ∉ books.usage.map UsageRecord.id) :
    ∃ performed, forfeit books claim (some reservation) id now = .ok performed := by
  obtain ⟨selection, hselected⟩ := Option.isSome_iff_exists.mp hselection
  obtain ⟨account, hfound, -⟩ := hconserved.accounts stored hmem
  have hamount := hconserved.amounts stored hmem
  have hmoney : money stored.reservedUsd = stored.reservedUsd := hamount.1.money_eq
  have hnone : ∀ record ∈ books.usage, record.reservationId ≠ stored.id := by
    intro record hrecord hsame
    have hstatus := (hconserved.recorded stored hmem).mp ⟨record, hrecord, hsame⟩
    rw [hopen] at hstatus
    rcases hstatus with h | h <;> cases h
  have husage : books.usageOf stored.id = none := by
    unfold Books.usageOf
    rw [List.find?_eq_none]
    intro record hrecord
    simpa using hnone record hrecord
  obtain ⟨closed, hclosed⟩ : ∃ closed, Reservation.forfeit stored now = .ok closed := by
    unfold Reservation.forfeit Reservation.finalize
    rw [if_neg (not_not.mpr hopen), hmoney, if_neg (not_lt.mpr hamount.2)]
    exact ⟨_, rfl⟩
  obtain ⟨settled, hsettled, -⟩ : ∃ settled,
      Account.settle account stored.reservedUsd stored.reservedUsd now = .ok settled ∧ _ :=
    account_settles hconserved hfound hmem hopen hamount
  obtain ⟨record, hrecord, hrecordId, hrecordReservation⟩ : ∃ record,
      UsageRecord.create id stored .estimatedForfeit ⟨0, 0⟩ stored.reservedUsd selection.profile =
        .ok record ∧ record.id = id ∧ record.reservationId = stored.id := by
    unfold UsageRecord.create
    rw [hmoney, if_neg (not_lt.mpr hamount.2)]
    exact ⟨_, rfl, rfl, rfl⟩
  have hadd : ∃ added, ((books.saveAccount settled).saveReservation closed).addUsage record =
      .ok added := by
    unfold Books.addUsage
    rw [if_neg]
    · exact ⟨_, rfl⟩
    · simp only [List.any_eq_true, Bool.or_eq_true, decide_eq_true_eq, not_exists, not_and]
      rintro other hother (hsame | hsame)
      · exact hid (hrecordId ▸ hsame ▸ List.mem_map_of_mem hother)
      · exact hnone other hother (hsame.trans hrecordReservation)
  obtain ⟨added, hadd⟩ := hadd
  have hfinalize : finalize books claim reservation ⟨0, 0⟩ .estimatedForfeit id now =
      .ok (record, added) := by
    unfold finalize
    rw [hselected, hkey, reservation_of_mem hconserved hmem]
    simp only [hfound, husage, if_neg (not_not.mpr hopen), closeReservation, hclosed, hsettled,
      hrecord, hadd, bind, Except.bind]
  refine ⟨(some record, added), ?_⟩
  show finalize books claim reservation ⟨0, 0⟩ .estimatedForfeit id now >>= _ = _
  rw [hfinalize]
  rfl

end

end JbOrchestrator.Worker
