import JbOrchestrator.Worker.Holdings

/-!
# Reservations — what is left of the budget when a run has ended

Only the worker that holds a claim closes its reservation.  A reservation stays open for good when the
last worker that would close it leaves after the end of the run, or when the run ends while no worker
would close it.
-/

open Lib

namespace JbOrchestrator.Worker

open Domain Workflows Infrastructure Application
open Budgets hiding Call

/-! ## 1. Who closes a reservation -/

/-- The key of the reservation that the worker has, or that `reserve` will give it. -/
def Stage.key : Stage → Option String
  | .preparing claim | .reserving claim => some claim.idempotencyKey
  | .executing _ reservation | .settling _ reservation _ _ | .failing _ reservation _
  | .forfeiting _ reservation _ => reservation.map BudgetReservation.idempotencyKey
  | .idle | .recovered | .completing _ _ | .stopped _ => none

/-- The worker is on the way to close the reservation. -/
def Answers (runtime : WorkerRuntime) (stage : Stage) (reservation : BudgetReservation) : Prop :=
  runtime.hasBudgetService = true ∧ stage.key = some reservation.idempotencyKey ∧
    ∃ claim, stage.claim = some claim ∧ claim.runId = reservation.runId ∧
      claim.modelSelection.isSome = true

/-- The actions by which a worker leaves its reservation open. -/
def Stage.leaves (books : Books) : Stage → Action → Bool
  | .stopped _, _ => false
  | _, .crash => true
  | .preparing _, .raised _ | .reserving _, .raised _ | .failing _ _ _, .raised _
  | .forfeiting _ _ _, .raised _ => true
  | .failing _ _ _, .proceed _ => true
  | .forfeiting _ _ _, .proceed id => id ∈ books.usage.map UsageRecord.id
  | _, _ => false

section

variable {settings : Settings} {runtime : WorkerRuntime} {s : System} {worker : ℕ} {now : Instant}
  {reservation : BudgetReservation}

theorem Answers.of_eq {stage stage' : Stage} (h : Answers runtime stage reservation)
    (hkey : stage'.key = stage.key) (hclaim : stage'.claim = stage.claim) :
    Answers runtime stage' reservation := by
  unfold Answers at h ⊢
  rw [hkey, hclaim]
  exact h

/-- What becomes of a worker that answers for an open reservation. -/
def Keeps (runtime : WorkerRuntime) (s : System) (worker : ℕ) (action : Action)
    (reservation : BudgetReservation) (after : System) : Prop :=
  reservation ∈ after.books.reservations → Answers runtime (after.stage worker) reservation ∨
    ¬Ended after.world.database reservation.runId ∨
      (s.stage worker).leaves s.books action = true ∧ after.world = s.world

theorem reserve_keeps (id : UUID) (hconserved : Conserved s.books) {claim : TaskClaim}
    (hstage : s.stage worker = .reserving claim) (hmem : reservation ∈ s.books.reservations)
    (hanswers : Answers runtime (s.stage worker) reservation) :
    Answers runtime ((s.proceed settings runtime worker now id).stage worker) reservation := by
  rw [hstage] at hanswers
  obtain ⟨hbudget, hkey, held, hheld, hrun, hselection⟩ := hanswers
  obtain rfl : claim = held := Option.some.inj hheld
  replace hkey : claim.idempotencyKey = reservation.idempotencyKey := Option.some.inj hkey
  unfold System.proceed
  rw [hstage]
  dsimp only
  rw [if_pos hbudget]
  rcases s.charge_cases worker (.reserve (surroundings s.world.database) claim id now) _ _ with
    ⟨answer, books, hperform, heq⟩ | ⟨error, hperform, heq⟩
  · rw [heq, System.moveTo_self]
    obtain ⟨⟨given, reserved⟩, hreserve, hperform⟩ := bind_ok hperform
    obtain ⟨rfl, rfl⟩ := Prod.mk.inj (Except.ok.inj hperform)
    obtain ⟨stored, rfl, hsame⟩ : ∃ stored, given = some stored ∧
        stored.idempotencyKey = claim.idempotencyKey := by
      rcases reserve_cases hconserved hreserve with ⟨-, hgiven⟩ | ⟨opened, hgiven, -, -, hopened, -⟩
      · exact ⟨reservation, hgiven reservation hmem hselection hkey.symm, hkey.symm⟩
      · exact ⟨opened, hgiven, hopened⟩
    exact ⟨hbudget, congrArg some (hsame.trans hkey), claim, rfl, hrun, hselection⟩
  · rcases bind_error hperform with hreserve | ⟨_, _, hperform⟩
    · exact absurd hkey.symm (reserve_refused hreserve reservation hmem)
    · cases hperform

/-- A reservation that was settled is not open any more. -/
theorem settle_keeps (id : UUID) (hconserved : Conserved s.books) {claim : TaskClaim}
    {held : Option BudgetReservation} {result : TaskResult} {usage : Option TokenUsage}
    (hstage : s.stage worker = .settling claim held result usage)
    (hopen : reservation.status = .reserved)
    (hanswers : Answers runtime (s.stage worker) reservation)
    (hmem : reservation ∈ (s.proceed settings runtime worker now id).books.reservations) :
    Answers runtime ((s.proceed settings runtime worker now id).stage worker) reservation := by
  rw [hstage] at hanswers
  obtain ⟨own, rfl, hsame⟩ := Option.map_eq_some_iff.mp hanswers.2.1
  unfold System.proceed at hmem ⊢
  rw [hstage] at hmem ⊢
  dsimp only at hmem ⊢
  rw [if_pos hanswers.1] at hmem ⊢
  rcases s.charge_cases worker (.settle claim (some own) usage id now)
      (fun _ => .completing claim result) (fun error => .failing claim (some own) (.budget error)) with
    ⟨answer, books, hperform, heq⟩ | ⟨error, -, heq⟩
  · obtain ⟨⟨record, settled⟩, hsettle, hperform'⟩ := bind_ok hperform
    obtain ⟨rfl, rfl⟩ := Prod.mk.inj (Except.ok.inj hperform')
    rw [heq] at hmem
    have hconserved' := (Budgets.Call.perform_spec hconserved hperform).1
    exact absurd hopen (finalized_ne hconserved' (settle_finalized hconserved hsettle) hmem hsame.symm)
  · rw [heq, System.moveTo_self]
    exact hanswers.of_eq rfl rfl

theorem forfeit_keeps (id : UUID) (hconserved : Conserved s.books) {claim : TaskClaim}
    {held : Option BudgetReservation} {exception : WorkerException}
    (hstage : s.stage worker = .forfeiting claim held exception)
    (hmem : reservation ∈ s.books.reservations) (hopen : reservation.status = .reserved)
    (hanswers : Answers runtime (s.stage worker) reservation)
    (hstays : reservation ∈ (s.proceed settings runtime worker now id).books.reservations) :
    id ∈ s.books.usage.map UsageRecord.id ∧
      (s.proceed settings runtime worker now id).world = s.world := by
  rw [hstage] at hanswers
  obtain ⟨-, hkey, claim', hclaim, -, hselection⟩ := hanswers
  obtain rfl : claim = claim' := Option.some.inj hclaim
  obtain ⟨own, rfl, hsame⟩ := Option.map_eq_some_iff.mp hkey
  unfold System.proceed at hstays ⊢
  rw [hstage] at hstays ⊢
  dsimp only at hstays ⊢
  refine ⟨?_, System.charge_world s worker _ _ _⟩
  rcases s.charge_cases worker (.forfeit claim (some own) id now)
      (fun _ => .handled exception) (fun error => .stopped (some (.budget error))) with
    ⟨answer, books, hperform, heq⟩ | ⟨error, hperform, heq⟩
  · obtain ⟨⟨record, forfeited⟩, hforfeit, hperform'⟩ := bind_ok hperform
    obtain ⟨rfl, rfl⟩ := Prod.mk.inj (Except.ok.inj hperform')
    rw [heq] at hstays
    have hconserved' := (Budgets.Call.perform_spec hconserved hperform).1
    exact absurd hopen
      (finalized_ne hconserved' (forfeit_finalized hconserved hforfeit) hstays hsame.symm)
  · by_contra hfresh
    obtain ⟨performed, hforfeit⟩ : ∃ performed,
        forfeit s.books claim (some own) id now = .ok performed :=
      forfeit_ok hconserved hselection hmem hopen hsame hfresh
    rcases bind_error hperform with herror | ⟨_, _, hperform⟩
    · rw [hforfeit] at herror
      cases herror
    · cases hperform

/-- A report of a failure is refused, or the worker goes on to forfeit, or the run goes on. -/
theorem fail_keeps (id : UUID) (hworld : s.world.Consistent) {claim : TaskClaim}
    {held : Option BudgetReservation} {exception : WorkerException}
    (hstage : s.stage worker = .failing claim held exception)
    (hrun : OfRun s.world.database claim)
    (hanswers : Answers runtime (s.stage worker) reservation) :
    Answers runtime ((s.proceed settings runtime worker now id).stage worker) reservation ∨
      ¬Ended (s.proceed settings runtime worker now id).world.database reservation.runId ∨
        (s.proceed settings runtime worker now id).world = s.world := by
  rw [hstage] at hanswers
  have hbudget := hanswers.1
  obtain ⟨claim', hclaim, hsame, -⟩ := hanswers.2.2
  obtain rfl : claim = claim' := Option.some.inj hclaim
  unfold System.proceed
  rw [hstage]
  dsimp only
  rcases System.serve_cases settings s worker (.fail claim (runtime.reason exception) now) _ with
    ⟨result, world, hreturns, heq⟩ | ⟨error, heq⟩
  · rw [heq, System.moveTo_self, System.moveTo_world]
    obtain ⟨execution, rfl⟩ : ∃ execution, result = .execution execution := by
      apply hreturns.yields
      exact yields_then fun value => yields_pure ⟨value, rfl⟩
    rcases hreturns.failed hworld hrun with hfailed | hgoing
    · left
      unfold WorkerRuntime.failed
      dsimp only
      rw [if_pos ⟨hfailed, hbudget⟩]
      exact hanswers.of_eq rfl rfl
    · rw [hsame] at hgoing
      exact .inr (.inl hgoing)
  · rw [heq]
    exact .inr (.inr rfl)

end

/-- What every step keeps. -/
structure Sound (s : System) : Prop where
  consistent : s.world.Consistent
  conserved : Conserved s.books
  runs : ∀ worker claim, (s.stage worker).claim = some claim → OfRun s.world.database claim

section

variable {settings : Settings} {runtimes : ℕ → WorkerRuntime} {s : System} {worker : ℕ}
  {now : Instant} {reservation : BudgetReservation}

theorem proceed_keeps (id : UUID) (hsound : Sound s)
    (hmem : reservation ∈ s.books.reservations) (hopen : reservation.status = .reserved)
    (hanswers : Answers (runtimes worker) (s.stage worker) reservation) :
    Keeps (runtimes worker) s worker (.proceed id) reservation
      (s.proceed settings (runtimes worker) worker now id) := by
  intro hstays
  cases hstage : s.stage worker with
  | idle | recovered | completing | stopped =>
    rw [hstage] at hanswers
    cases hanswers.2.1
  | preparing claim | executing claim held =>
    have hsame : s.proceed settings (runtimes worker) worker now id = s := by
      unfold System.proceed
      rw [hstage]
    rw [hsame]
    exact .inl hanswers
  | reserving claim => exact .inl (reserve_keeps id hsound.conserved hstage hmem hanswers)
  | settling claim held result usage =>
    exact .inl (settle_keeps id hsound.conserved hstage hopen hanswers hstays)
  | failing claim held exception =>
    have hrun := hsound.runs worker claim (by rw [hstage]; rfl)
    exact (fail_keeps id hsound.consistent hstage hrun hanswers).imp_right
      (Or.imp_right fun hsame => ⟨rfl, hsame⟩)
  | forfeiting claim held exception =>
    obtain ⟨hused, hsame⟩ := forfeit_keeps id hsound.conserved hstage hmem hopen hanswers hstays
    exact .inr (.inr ⟨decide_eq_true hused, hsame⟩)

/-- A step keeps a worker answering, unless the run goes on or the worker leaves. -/
theorem act_keeps (action : Action) (hsound : Sound s)
    (hmem : reservation ∈ s.books.reservations) (hopen : reservation.status = .reserved)
    (hanswers : Answers (runtimes worker) (s.stage worker) reservation) :
    Keeps (runtimes worker) s worker action reservation
      (s.act settings (runtimes worker) worker now action) := by
  cases action with
  | proceed id => exact proceed_keeps id hsound hmem hopen hanswers
  | beat cancellationError =>
    intro _
    left
    unfold System.act System.beat
    cases hstage : s.stage worker with
    | executing claim held =>
      dsimp only
      split
      · exact hanswers
      · rw [System.moveTo_self]
        exact hanswers.of_eq (by rw [hstage]; rfl) (by rw [hstage]; rfl)
    | _ => exact hanswers
  | materialized =>
    intro _
    left
    unfold System.act
    cases hstage : s.stage worker with
    | preparing claim =>
      dsimp only
      rw [System.moveTo_self]
      exact hanswers.of_eq (by rw [hstage]; rfl) (by rw [hstage]; rfl)
    | _ => exact hanswers
  | returned result usage =>
    intro _
    left
    unfold System.act
    cases hstage : s.stage worker with
    | executing claim held =>
      dsimp only
      rw [System.moveTo_self]
      exact hanswers.of_eq (by rw [hstage]; rfl) (by rw [hstage]; rfl)
    | _ => exact hanswers
  | raised exception =>
    intro _
    cases hstage : s.stage worker with
    | executing | settling =>
      left
      unfold System.act
      dsimp only
      rw [System.moveTo_self, hstage]
      exact hanswers.of_eq (by rw [hstage]; rfl) (by rw [hstage]; rfl)
    | preparing | reserving | failing | forfeiting => exact .inr (.inr ⟨rfl, rfl⟩)
    | _ =>
      rw [hstage] at hanswers
      cases hanswers.2.1
  | stop =>
    intro _
    left
    unfold System.act
    cases hstage : s.stage worker with
    | idle =>
      rw [hstage] at hanswers
      cases hanswers.2.1
    | _ => exact hanswers
  | crash =>
    intro _
    unfold System.act
    cases hstage : s.stage worker with
    | stopped =>
      rw [hstage] at hanswers
      cases hanswers.2.1
    | _ => exact .inr (.inr ⟨rfl, rfl⟩)

/-- The worker that opens a reservation answers for it. -/
theorem reserve_opens (id : UUID) (hsound : Sound s) {claim : TaskClaim}
    (hstage : s.stage worker = .reserving claim)
    (hmem : reservation ∈
      (s.proceed settings (runtimes worker) worker now id).books.reservations) :
    reservation ∈ s.books.reservations ∨ Answers (runtimes worker)
      ((s.proceed settings (runtimes worker) worker now id).stage worker) reservation := by
  unfold System.proceed at hmem ⊢
  rw [hstage] at hmem ⊢
  dsimp only at hmem ⊢
  by_cases hbudget : (runtimes worker).hasBudgetService = true
  case neg =>
    rw [if_neg hbudget] at hmem
    exact .inl hmem
  rw [if_pos hbudget] at hmem ⊢
  rcases s.charge_cases worker (.reserve (surroundings s.world.database) claim id now)
      (.reserved claim) (fun error => .failing claim none (.budget error)) with
    ⟨answer, books, hperform, heq⟩ | ⟨error, -, heq⟩
  · rw [heq] at hmem
    rw [heq, System.moveTo_self]
    obtain ⟨⟨given, reserved⟩, hreserve, hperform⟩ := bind_ok hperform
    obtain ⟨rfl, rfl⟩ := Prod.mk.inj (Except.ok.inj hperform)
    rcases reserve_cases hsound.conserved hreserve with
      ⟨rfl, -⟩ | ⟨opened, rfl, hselection, hrun, hkey, hreservations⟩
    · exact .inl hmem
    · have hlist : reservation ∈ s.books.reservations ++ [opened] := hreservations ▸ hmem
      refine (List.mem_append.mp hlist).imp_right fun hnew => ?_
      obtain rfl := List.mem_singleton.mp hnew
      exact ⟨hbudget, rfl, claim, rfl, hrun.symm, hselection⟩
  · rw [heq] at hmem
    exact .inl hmem

theorem serve_books (s : System) (worker : ℕ) (call : Call) (next : Result → Stage) :
    (s.serve settings worker call next).books = s.books := by
  rcases System.serve_cases settings s worker call next with ⟨result, world, -, heq⟩ | ⟨error, heq⟩
  · rw [heq]
    rfl
  · rw [heq]
    rfl

theorem charge_books (s : System) (worker : ℕ) (call : Budgets.Call) (next : Answer → Stage)
    (caught : BudgetError → Stage) :
    (s.charge worker call next caught).books = (call.step s.books).2 := by
  unfold System.charge
  split
  · rename_i answer books h
    rw [h]
    rfl
  · rename_i error books h
    rw [h]
    rfl

variable (settings) in
/-- A step of a worker makes at most one budget call; only a `reserving` worker opens anything. -/
theorem act_books (runtime : WorkerRuntime) (s : System) (worker : ℕ) (now : Instant)
    (action : Action) :
    (s.act settings runtime worker now action).books = s.books ∨
      ∃ call : Budgets.Call,
        (s.act settings runtime worker now action).books = (call.step s.books).2 ∧
        ((call.opens = fun _ => False) ∨
          ∃ id claim, action = .proceed id ∧ s.stage worker = .reserving claim) := by
  unfold System.act
  cases action with
  | proceed id =>
    unfold System.proceed
    cases s.stage worker with
    | reserving claim =>
      dsimp only
      split
      · exact .inr ⟨_, charge_books s worker _ _ _, .inr ⟨id, claim, rfl, rfl⟩⟩
      · exact .inl rfl
    | settling =>
      dsimp only
      split
      · exact .inr ⟨_, charge_books s worker _ _ _, .inl rfl⟩
      · exact .inl rfl
    | forfeiting => exact .inr ⟨_, charge_books s worker _ _ _, .inl rfl⟩
    | idle | recovered | completing | failing => exact .inl (serve_books s worker _ _)
    | preparing | executing | stopped => exact .inl rfl
  | beat =>
    left
    unfold System.beat
    dsimp only
    split
    · split <;> rfl
    · rfl
  | raised => exact .inl rfl
  | materialized | returned | stop | crash =>
    left
    dsimp only
    split <;> rfl

theorem act_opens (action : Action) (hsound : Sound s)
    (hopen : reservation.status = .reserved)
    (hmem : reservation ∈
      (s.act settings (runtimes worker) worker now action).books.reservations) :
    reservation ∈ s.books.reservations ∨ Answers (runtimes worker)
      ((s.act settings (runtimes worker) worker now action).stage worker) reservation := by
  rcases act_books settings (runtimes worker) s worker now action with
    hsame | ⟨call, hcall, hopens | ⟨id, claim, rfl, hstage⟩⟩
  · exact .inl (hsame ▸ hmem)
  · rw [hcall] at hmem
    have heffect := (Budgets.Call.step_spec call hsound.conserved).2.1
    rw [hopens] at heffect
    exact .inl ((effect_reserved heffect hmem hopen).resolve_right id)
  · exact reserve_opens id hsound hstage hmem

/-! ## 2. Steps -/

theorem claimed_claim (runtime : WorkerRuntime) (claim : TaskClaim) :
    (runtime.claimed claim).claim = some claim := by
  unfold WorkerRuntime.claimed
  split
  · rfl
  · split <;> rfl

theorem handled_claim (exception : WorkerException) : (Stage.handled exception).claim = none := by
  cases exception <;> rfl

theorem failed_claim {runtime : WorkerRuntime} {claim held : TaskClaim}
    {reservation : Option BudgetReservation} {exception : WorkerException} {result : Result}
    (h : (runtime.failed held reservation exception result).claim = some claim) : held = claim := by
  unfold WorkerRuntime.failed at h
  split at h
  · split at h
    · exact Option.some.inj h
    · rw [handled_claim] at h
      cases h
  · rw [handled_claim] at h
    cases h

theorem raise_claim {stage : Stage} {exception : WorkerException} {claim : TaskClaim}
    (h : (stage.raise exception).claim = some claim) : stage.claim = some claim := by
  cases stage with
  | preparing | reserving | executing | settling => exact h
  | _ => cases h

theorem serve_claim {call : Call} {next : Result → Stage} {claim : TaskClaim}
    (h : ((s.serve settings worker call next).stage worker).claim = some claim) :
    ∃ result, (next result).claim = some claim ∧
      Returns settings s.world call result (s.serve settings worker call next).world := by
  rcases System.serve_cases settings s worker call next with ⟨result, world, hreturns, heq⟩ | ⟨_, heq⟩
  · rw [heq, System.moveTo_self] at h
    rw [heq]
    exact ⟨result, h, hreturns⟩
  · rw [heq, System.moveTo_self] at h
    cases h

theorem charge_claim {call : Budgets.Call} {next : Answer → Stage} {caught : BudgetError → Stage}
    {claim : TaskClaim}
    (h : ((s.charge worker call next caught).stage worker).claim = some claim) :
    (∃ answer, (next answer).claim = some claim) ∨ ∃ error, (caught error).claim = some claim := by
  rcases s.charge_cases worker call next caught with ⟨answer, books, -, heq⟩ | ⟨error, -, heq⟩
  · rw [heq, System.moveTo_self] at h
    exact .inl ⟨answer, h⟩
  · rw [heq, System.moveTo_self] at h
    exact .inr ⟨error, h⟩

/-- The claim after a service call of a worker. -/
theorem proceed_claim (runtime : WorkerRuntime) (s : System) (worker : ℕ) (now : Instant) (id : UUID)
    {claim : TaskClaim}
    (hclaim : ((s.proceed settings runtime worker now id).stage worker).claim = some claim) :
    (s.stage worker).claim = some claim ∨
      Returns settings s.world (.claimNext runtime.workerId (some runtime.supportedKeys) id now)
        (.claim (some claim)) (s.proceed settings runtime worker now id).world := by
  unfold System.proceed at hclaim ⊢
  cases hstage : s.stage worker with
  | idle | completing =>
    rw [hstage] at hclaim
    obtain ⟨result, hnext, -⟩ := serve_claim hclaim
    cases hnext
  | recovered =>
    rw [hstage] at hclaim
    obtain ⟨result, hnext, hreturns⟩ := serve_claim hclaim
    unfold WorkerRuntime.dispatched at hnext
    split at hnext
    · rw [claimed_claim] at hnext
      obtain rfl := Option.some.inj hnext
      exact .inr hreturns
    · cases hnext
  | failing =>
    rw [hstage] at hclaim
    obtain ⟨result, hnext, -⟩ := serve_claim hclaim
    exact .inl (congrArg some (failed_claim hnext))
  | reserving | settling =>
    rw [hstage] at hclaim
    dsimp only at hclaim
    left
    split at hclaim
    · rcases charge_claim hclaim with ⟨answer, hnext⟩ | ⟨error, hnext⟩
      · cases answer <;> exact hnext
      · exact hnext
    · rw [System.moveTo_self] at hclaim
      exact hclaim
  | forfeiting =>
    rw [hstage] at hclaim
    rcases charge_claim hclaim with ⟨answer, hnext⟩ | ⟨error, hnext⟩
    · rw [handled_claim] at hnext
      cases hnext
    · cases hnext
  | preparing | executing | stopped =>
    rw [hstage] at hclaim
    left
    dsimp only at hclaim
    rw [hstage] at hclaim
    exact hclaim

/-- The claim of a worker is the one it had, or one that `claim_next` has just handed out. -/
theorem act_claim (runtime : WorkerRuntime) (s : System) (worker : ℕ) (now : Instant)
    (action : Action) {claim : TaskClaim}
    (hclaim : ((s.act settings runtime worker now action).stage worker).claim = some claim) :
    (s.stage worker).claim = some claim ∨ ∃ token,
      Returns settings s.world (.claimNext runtime.workerId (some runtime.supportedKeys) token now)
        (.claim (some claim)) (s.act settings runtime worker now action).world := by
  cases action with
  | proceed id => exact (proceed_claim runtime s worker now id hclaim).imp_right fun h => ⟨id, h⟩
  | raised exception =>
    left
    unfold System.act at hclaim
    dsimp only at hclaim
    rw [System.moveTo_self] at hclaim
    exact raise_claim hclaim
  | beat =>
    left
    unfold System.act System.beat at hclaim
    cases hstage : s.stage worker with
    | executing =>
      rw [hstage] at hclaim
      dsimp only at hclaim
      split at hclaim
      · rw [hstage] at hclaim
        exact hclaim
      · rw [System.moveTo_self] at hclaim
        exact hclaim
    | _ =>
      rw [hstage] at hclaim
      dsimp only at hclaim
      rw [hstage] at hclaim
      exact hclaim
  | materialized =>
    left
    unfold System.act at hclaim
    dsimp only at hclaim
    split at hclaim
    · rename_i held hstage
      rw [System.moveTo_self] at hclaim
      rw [hstage]
      exact hclaim
    · exact hclaim
  | returned result usage =>
    left
    unfold System.act at hclaim
    dsimp only at hclaim
    split at hclaim
    · rename_i held reservation hstage
      rw [System.moveTo_self] at hclaim
      rw [hstage]
      exact hclaim
    · exact hclaim
  | stop =>
    left
    unfold System.act at hclaim
    dsimp only at hclaim
    split at hclaim
    · rw [System.moveTo_self] at hclaim
      cases hclaim
    · exact hclaim
  | crash =>
    left
    unfold System.act at hclaim
    dsimp only at hclaim
    split at hclaim
    · exact hclaim
    · rw [System.moveTo_self] at hclaim
      cases hclaim

theorem act_stage_of_ne (runtime : WorkerRuntime) (s : System) (now : Instant) (action : Action)
    {worker other : ℕ} (h : other ≠ worker) :
    (s.act settings runtime worker now action).stage other = s.stage other := by
  have hserve : ∀ call next, (s.serve settings worker call next).stage other = s.stage other := by
    intro call next
    rcases System.serve_cases settings s worker call next with ⟨_, _, -, heq⟩ | ⟨_, heq⟩ <;>
      rw [heq, System.moveTo_of_ne _ h]
  have hcharge : ∀ call next caught, (s.charge worker call next caught).stage other =
      s.stage other := by
    intro call next caught
    rcases s.charge_cases worker call next caught with ⟨_, _, -, heq⟩ | ⟨_, -, heq⟩ <;>
      rw [heq, System.moveTo_of_ne _ h]
  unfold System.act
  cases action with
  | proceed id =>
    unfold System.proceed
    cases s.stage worker with
    | idle | recovered | completing | failing => exact hserve _ _
    | reserving | settling =>
      dsimp only
      split
      · exact hcharge _ _ _
      · exact System.moveTo_of_ne _ h _
    | forfeiting => exact hcharge _ _ _
    | preparing | executing | stopped => rfl
  | beat =>
    unfold System.beat
    dsimp only
    split
    · split
      · rfl
      · exact System.moveTo_of_ne _ h _
    · rfl
  | raised => exact System.moveTo_of_ne _ h _
  | materialized | returned | stop =>
    dsimp only
    split
    · exact System.moveTo_of_ne _ h _
    · rfl
  | crash =>
    dsimp only
    split
    · rfl
    · exact System.moveTo_of_ne _ h _

/-- What a call of somebody else does. -/
theorem request_cases (s : System) (call : Call) :
    s.request settings call = s ∨
      ∃ result, Returns settings s.world call result (s.request settings call).world ∧
        (s.request settings call).stage = s.stage ∧
        ((releasedRun call result = none ∧ (s.request settings call).books = s.books) ∨
          ∃ runId now count, releasedRun call result = some (runId, now) ∧
            releaseRunReservations s.books runId now =
              .ok (count, (s.request settings call).books)) := by
  unfold System.request
  split
  · exact .inl rfl
  · rename_i result world hreturns
    split
    · rename_i hnone
      exact .inr ⟨result, hreturns, rfl, .inl ⟨hnone, rfl⟩⟩
    · rename_i runId now hsome
      split
      · exact .inl rfl
      · rename_i count books hrelease
        exact .inr ⟨result, hreturns, rfl, .inr ⟨runId, now, count, hsome, hrelease⟩⟩

theorem step_stage_of_ne (runtimes : ℕ → WorkerRuntime) (s : System) {input : Input} {other : ℕ}
    (h : ∀ worker now action, input = .worker worker now action → other ≠ worker) :
    (s.step settings runtimes input).stage other = s.stage other := by
  cases input with
  | worker worker now action =>
    exact act_stage_of_ne (runtimes worker) s now action (h worker now action rfl)
  | configure => rfl
  | call call =>
    show (s.request settings call).stage other = _
    rcases request_cases s call with hsame | ⟨result, -, hstage, -⟩
    · rw [hsame]
    · rw [hstage]

theorem OfRun.step (runtimes : ℕ → WorkerRuntime) {claim : TaskClaim} (input : Input)
    (hworld : s.world.Consistent) (h : OfRun s.world.database claim) :
    OfRun (s.step settings runtimes input).world.database claim := by
  rcases System.step_moves runtimes s input with hsame | ⟨call, result, hreturns⟩
  · rw [hsame]
    exact h
  · exact h.returns hreturns hworld

theorem Sound.step (runtimes : ℕ → WorkerRuntime) (h : Sound s) (input : Input) :
    Sound (s.step settings runtimes input) where
  consistent := System.step_consistent runtimes h.consistent input
  conserved := by
    cases input with
    | configure => exact (Budgets.Call.step_spec _ h.conserved).1
    | worker worker now action =>
      show Conserved (s.act settings (runtimes worker) worker now action).books
      rcases act_books settings (runtimes worker) s worker now action with hsame | ⟨call, hcall, -⟩
      · rw [hsame]
        exact h.conserved
      · rw [hcall]
        exact (Budgets.Call.step_spec call h.conserved).1
    | call call =>
      show Conserved (s.request settings call).books
      rcases request_cases s call with
        hsame | ⟨result, -, -, ⟨-, hbooks⟩ | ⟨runId, now, count, -, hrelease⟩⟩
      · rw [hsame]
        exact h.conserved
      · rw [hbooks]
        exact h.conserved
      · exact (release_closes h.conserved hrelease).1
  runs := by
    intro other claim hclaim
    cases input with
    | configure => exact h.runs other claim hclaim
    | call call =>
      have hstage : (s.step settings runtimes (.call call)).stage other = s.stage other :=
        step_stage_of_ne runtimes s fun worker now action h => by cases h
      have hold : (s.stage other).claim = some claim := by
        rw [← hstage]
        exact hclaim
      exact OfRun.step runtimes (.call call) h.consistent (h.runs other claim hold)
    | worker worker now action =>
      by_cases hother : other = worker
      · subst hother
        rcases act_claim (runtimes other) s other now action hclaim with hold | ⟨token, hreturns⟩
        · exact OfRun.step runtimes (.worker other now action) h.consistent (h.runs other claim hold)
        · exact hreturns.ofRun h.consistent
      · have hold : (s.stage other).claim = some claim := by
          rw [← act_stage_of_ne (runtimes worker) s now action hother]
          exact hclaim
        exact OfRun.step runtimes (.worker worker now action) h.consistent (h.runs other claim hold)

/-! ## 3. Open reservations of ended runs -/

/-- Nobody is on the way to close the open reservation. -/
def Unanswered (runtimes : ℕ → WorkerRuntime) (s : System) (reservation : BudgetReservation) : Prop :=
  reservation ∈ s.books.reservations ∧ reservation.status = .reserved ∧
    ∀ worker, ¬Answers (runtimes worker) (s.stage worker) reservation

/-- The last worker that would close an open reservation of an ended run leaves. -/
def Abandons (runtimes : ℕ → WorkerRuntime) (t : Transition System Input Unit) : Prop :=
  ∃ worker now action reservation, t.input = .worker worker now action ∧
    (t.before.stage worker).leaves t.before.books action = true ∧
    reservation ∈ t.before.books.reservations ∧ reservation.status = .reserved ∧
    Ended t.before.world.database reservation.runId ∧
    ∀ other, Answers (runtimes other) (t.before.stage other) reservation → other = worker

/-- A run ends, other than by being cancelled, with an open reservation that nobody would close. -/
def EndsUnanswered (runtimes : ℕ → WorkerRuntime) (t : Transition System Input Unit) : Prop :=
  (∀ call, t.input = .call call → cancels call = false) ∧ ∃ reservation, Unanswered runtimes t.before reservation ∧
    ¬Ended t.before.world.database reservation.runId ∧
    Ended t.after.world.database reservation.runId

/-- Every open reservation of an ended run has a worker that is on the way to close it. -/
def Answered (runtimes : ℕ → WorkerRuntime) (s : System) : Prop :=
  ∀ reservation, Unanswered runtimes s reservation → ¬Ended s.world.database reservation.runId

theorem Answered.request (hsound : Sound s) (h : Answered runtimes s) (call : Call)
    (hends : ¬EndsUnanswered runtimes ((workers settings runtimes).fire s (.call call))) :
    Answered runtimes (s.request settings call) := by
  rintro reservation ⟨hmem, hopen, hnobody⟩ hended
  rcases request_cases s call with
    hsame | ⟨result, hreturns, hstage, ⟨hnone, hbooks⟩ | ⟨runId, now, count, hrelease, hreleased⟩⟩
  · rw [hsame] at hmem hnobody hended
    exact h reservation ⟨hmem, hopen, hnobody⟩ hended
  · rw [hbooks] at hmem
    rw [hstage] at hnobody
    have hbefore : ¬Ended s.world.database reservation.runId := h _ ⟨hmem, hopen, hnobody⟩
    refine hends ⟨?_, reservation, ⟨hmem, hopen, hnobody⟩, hbefore, hended⟩
    rintro call' hcall
    obtain rfl : call = call' := Input.call.inj hcall
    cases hcancels : cancels call with
    | false => rfl
    | true =>
      obtain ⟨runId, now, hsome, -⟩ := hreturns.cancelled hsound.consistent hcancels
      rw [hnone] at hsome
      cases hsome
  · rw [hstage] at hnobody
    obtain ⟨-, hkept, hclosed⟩ := release_closes hsound.conserved hreleased
    have hbefore : ¬Ended s.world.database reservation.runId :=
      h _ ⟨hkept reservation hmem hopen, hopen, hnobody⟩
    have hcancels : cancels call = true := by
      unfold releasedRun at hrelease
      split at hrelease
      · rfl
      · rfl
      · cases hrelease
    obtain ⟨runId', now', hsome, hothers⟩ := hreturns.cancelled hsound.consistent hcancels
    obtain ⟨rfl, rfl⟩ := Prod.mk.inj (Option.some.inj (hrelease.symm.trans hsome))
    rcases hothers _ hended with hold | hrun
    · exact hbefore hold
    · exact hclosed reservation hmem hrun hopen

theorem Answered.act (hsound : Sound s) (h : Answered runtimes s) (worker : ℕ) (now : Instant)
    (action : Action)
    (habandons : ¬Abandons runtimes ((workers settings runtimes).fire s (.worker worker now action)))
    (hends : ¬EndsUnanswered runtimes
      ((workers settings runtimes).fire s (.worker worker now action))) :
    Answered runtimes (s.act settings (runtimes worker) worker now action) := by
  rintro reservation ⟨hmem, hopen, hnobody⟩ hended
  have hbefore : reservation ∈ s.books.reservations :=
    (act_opens action hsound hopen hmem).resolve_right (hnobody worker)
  -- whoever answers before the step is the worker that takes it
  have honly : ∀ other, Answers (runtimes other) (s.stage other) reservation → other = worker := by
    intro other hanswers
    by_contra hne
    apply hnobody other
    rw [act_stage_of_ne (runtimes worker) s now action hne]
    exact hanswers
  by_cases hanswers : Answers (runtimes worker) (s.stage worker) reservation
  · have hkeeps : Keeps (runtimes worker) s worker action reservation
        (s.act settings (runtimes worker) worker now action) :=
      act_keeps action hsound hbefore hopen hanswers
    rcases hkeeps hmem with hstill | hgoing | ⟨hleaves, hsame⟩
    · exact hnobody worker hstill
    · exact hgoing hended
    · rw [hsame] at hended
      exact habandons ⟨worker, now, action, reservation, rfl, hleaves, hbefore, hopen, hended, honly⟩
  · have hunanswered : Unanswered runtimes s reservation := by
      refine ⟨hbefore, hopen, fun other hother => ?_⟩
      obtain rfl := honly other hother
      exact hanswers hother
    refine hends ⟨?_, reservation, hunanswered, h reservation hunanswered, hended⟩
    intro call hcall
    cases hcall

theorem Answered.step (hsound : Sound s) (h : Answered runtimes s) (input : Input)
    (habandons : ¬Abandons runtimes ((workers settings runtimes).fire s input))
    (hends : ¬EndsUnanswered runtimes ((workers settings runtimes).fire s input)) :
    Answered runtimes (s.step settings runtimes input) := by
  cases input with
  | worker worker now action => exact h.act hsound worker now action habandons hends
  | call call => exact h.request hsound call hends
  | configure projectId limitUsd id now =>
    rintro reservation ⟨hmem, hopen, hnobody⟩
    have heffect : Budgets.Effect (fun _ => False) s.books
        (s.step settings runtimes (.configure projectId limitUsd id now)).books :=
      (Budgets.Call.step_spec (.configure (surroundings s.world.database) projectId limitUsd id now)
        hsound.conserved).2.1
    have hbefore := (effect_reserved heffect hmem hopen).resolve_right fun h => h
    exact h reservation ⟨hbefore, hopen, hnobody⟩

/-- Once the execution of a run is terminal and no worker holds a claim of it, no reservation of the run
is open. -/
def NoLeak (s : System) : Prop :=
  ∀ runId, Ended s.world.database runId →
    (∀ worker claim, (s.stage worker).claim = some claim → claim.runId ≠ runId) →
    s.books.Released runId

theorem Answered.noLeak (h : Answered runtimes s) : NoLeak s := by
  intro runId hended hnobody reservation hmem hrun hopen
  subst hrun
  refine h reservation ⟨hmem, hopen, fun worker hanswers => ?_⟩ hended
  obtain ⟨-, -, claim, hclaim, hsame, -⟩ := hanswers
  exact hnobody worker claim hclaim hsame

end

/-- A run in which no last worker leaves an open reservation of an ended run, and which ends nothing
while an open reservation has no worker, leaks no reservation. -/
theorem no_leaked_reservation (settings : Settings) (runtimes : ℕ → WorkerRuntime) {world : World}
    (hblank : Blank world.database) (inputs : List Input)
    (hguarded : ∀ t ∈ (workers settings runtimes).trace ⟨world, {}, fun _ => .idle⟩ inputs,
      ¬Abandons runtimes t ∧ ¬EndsUnanswered runtimes t) :
    NoLeak ((workers settings runtimes).run ⟨world, {}, fun _ => .idle⟩ inputs) ∧
      ∀ t ∈ (workers settings runtimes).trace ⟨world, {}, fun _ => .idle⟩ inputs,
        NoLeak t.before ∧ NoLeak t.after := by
  have hstart : Sound ⟨world, {}, fun _ => .idle⟩ ∧ Answered runtimes ⟨world, {}, fun _ => .idle⟩ := by
    refine ⟨⟨hblank.aligned.consistent, .empty, fun worker claim h => by cases h⟩, ?_⟩
    rintro reservation ⟨hmem, -⟩
    cases hmem
  have hkeeps : ∀ t ∈ (workers settings runtimes).trace ⟨world, {}, fun _ => .idle⟩ inputs,
      Sound t.before ∧ Answered runtimes t.before → Sound t.after ∧ Answered runtimes t.after := by
    rintro t ht ⟨hsound, hanswered⟩
    obtain ⟨habandons, hends⟩ := hguarded t ht
    obtain ⟨before, input, after, -, rfl⟩ := (workers settings runtimes).mem_trace ht
    exact ⟨hsound.step runtimes input, hanswered.step hsound input habandons hends⟩
  obtain ⟨hrun, htrace⟩ := (workers settings runtimes).trace_keeps
    (Q := fun s => Sound s ∧ Answered runtimes s) hstart hkeeps
  exact ⟨hrun.2.noLeak, fun t ht => ⟨(htrace t ht).1.2.noLeak, (htrace t ht).2.2.noLeak⟩⟩

/-! ## 4. One task with a budget -/

/-- One task that is tried once on a routed model, then the end. -/
def routedTask : WorkflowDefinition where
  key := "routed-task"
  version := 1
  entryNode := "work"
  nodes := [
    { key := "work", kind := .task, maxAttempts := 1, modelRouting := some {} },
    { key := "done", kind := .terminal, terminalStatus := some .succeeded }]
  edges := [⟨"work", .success, "done", none⟩]

def balancedModel : ModelProfile where
  key := "balanced"
  version := 1
  name := "balanced"
  provider := "provider"
  modelId := "model"
  tier := .balanced
  contextWindow := 100000
  inputCostPerMillion := 1
  outputCostPerMillion := 1

/-- One project and the definition with the routed task. -/
def routedProject : World where
  database := {
    registry := {
      definitions := [⟨routedTask, by decide +kernel⟩]
      modelProfiles := [balancedModel] }
    projects := ⟨[(1, { id := 1, key := "p", name := "p", repositoryUrl := "u" })]⟩ }

theorem blank_routedProject : Blank routedProject.database := ⟨rfl, rfl, rfl, rfl⟩

def budgetWorker : WorkerRuntime := ⟨"worker", ["default"], false, true, fun _ => ""⟩

/-- The worker claims the task and reserves its cost; then the rest happens. -/
def reservedThen (rest : List Input) : List Input :=
  [.configure 1 10 500 0, .call requestTask, .call (.start 20 "routed-task" none 30 (fun _ => 0) 1),
    .worker 0 2 (.proceed 0), .worker 0 2 (.proceed 77), .worker 0 2 (.proceed 600)] ++ rest

/-- The executor reports a failure with its usage, and the worker settles and completes. -/
def completed : List Input :=
  [.worker 0 3 (.returned ⟨.failure, [], .inr rfl⟩ (some ⟨10, 10⟩)), .worker 0 3 (.proceed 601),
    .worker 0 3 (.proceed 99)]

/-- The worker dies, and its lease is recovered when it is over. -/
def crashed : List Input := [.worker 0 3 .crash, .call (.recoverExpired 100000000000)]

/-- No worker leaves, and no run ends while a reservation is open. -/
def quiet (t : Transition System Input Unit) : Bool :=
  (match t.input with
    | .worker worker _ action => !(t.before.stage worker).leaves t.before.books action
    | _ => true) &&
  (t.before.books.reservations.all (fun reservation => reservation.status ≠ .reserved) ||
    t.after.world.database.executions.keys.all fun id =>
      (t.after.world.database.executions.get? id).all fun execution => !execution.isTerminal)

theorem guarded_of_quiet (runtimes : ℕ → WorkerRuntime) {t : Transition System Input Unit}
    (h : quiet t = true) : ¬Abandons runtimes t ∧ ¬EndsUnanswered runtimes t := by
  unfold quiet at h
  rw [Bool.and_eq_true, Bool.or_eq_true] at h
  obtain ⟨hstays, hlive⟩ := h
  constructor
  · rintro ⟨worker, now, action, reservation, hinput, hleaves, -⟩
    rw [hinput] at hstays
    simp [hleaves] at hstays
  · rintro ⟨-, reservation, ⟨hmem, hopen, -⟩, -, id, execution, hrow, -, hterminal⟩
    rcases hlive with hclosed | hlive
    · simpa [hopen] using List.all_eq_true.mp hclosed reservation hmem
    · have hkey : id ∈ t.after.world.database.executions.keys :=
        (Dict.mem_keys_iff _ id).mpr (by rw [hrow]; rfl)
      simpa [hrow, hterminal] using List.all_eq_true.mp hlive id hkey

/-- The cost is settled before the run ends. -/
theorem no_leaked_reservation_completed :
    NoLeak ((workers lenient fun _ => budgetWorker).run ⟨routedProject, {}, fun _ => .idle⟩
      (reservedThen completed)) := by
  have hquiet : ∀ t ∈ (workers lenient fun _ => budgetWorker).trace
      ⟨routedProject, {}, fun _ => .idle⟩ (reservedThen completed), quiet t = true := by
    decide +kernel
  exact (no_leaked_reservation lenient (fun _ => budgetWorker) blank_routedProject _
    fun t ht => guarded_of_quiet _ (hquiet t ht)).1

/-- A worker dies with a reservation in the last attempt of the task; the recovery of its lease ends the
run, and nobody closes the reservation. -/
theorem crashed_worker_leaks :
    ¬∀ (settings : Settings) (runtimes : ℕ → WorkerRuntime) (world : World),
      Blank world.database → ∀ inputs,
        NoLeak ((workers settings runtimes).run ⟨world, {}, fun _ => .idle⟩ inputs) := by
  intro hclaim
  have hnone := hclaim lenient (fun _ => budgetWorker) routedProject blank_routedProject
    (reservedThen crashed)
  have hleaks : ∃ s, s = (workers lenient fun _ => budgetWorker).run
      ⟨routedProject, {}, fun _ => .idle⟩ (reservedThen crashed) ∧
      (s.world.database.executions.get? 30).any (fun execution =>
        execution.isTerminal && execution.snapshot.runId = 20 &&
          s.books.reservations.any fun reservation =>
            reservation.runId = 20 && reservation.status = .reserved) = true ∧
      ∀ worker, (s.stage worker).claim = none := by
    refine ⟨_, rfl, by decide +kernel, fun worker => ?_⟩
    by_cases hworker : worker = 0
    · have hzero : (((workers lenient fun _ => budgetWorker).run ⟨routedProject, {}, fun _ => .idle⟩
          (reservedThen crashed)).stage 0).claim.isNone = true := by
        decide +kernel
      rw [hworker]
      exact Option.isNone_iff_eq_none.mp hzero
    · have hidle : ((workers lenient fun _ => budgetWorker).run ⟨routedProject, {}, fun _ => .idle⟩
          (reservedThen crashed)).stage worker = .idle := by
        refine (workers lenient fun _ => budgetWorker).run_among
          (Q := fun s => s.stage worker = .idle) rfl fun s input hinput hidle => ?_
        show (s.step lenient (fun _ => budgetWorker) input).stage worker = .idle
        rw [step_stage_of_ne (fun _ => budgetWorker) s ?_, hidle]
        rintro other now action rfl
        simp only [reservedThen, crashed, List.mem_append, List.mem_cons, List.not_mem_nil,
          Input.worker.injEq, reduceCtorEq, or_false, false_or] at hinput
        rcases hinput with (⟨rfl, -⟩ | ⟨rfl, -⟩ | ⟨rfl, -⟩) | ⟨rfl, -⟩ <;> exact hworker
      rw [hidle]
      rfl
  obtain ⟨s, hs, hopen, hgone⟩ := hleaks
  rw [← hs] at hnone
  rw [Option.any_eq_true] at hopen
  obtain ⟨execution, hrow, hopen⟩ := hopen
  simp only [Bool.and_eq_true, List.any_eq_true, decide_eq_true_eq] at hopen
  obtain ⟨⟨hterminal, hrun⟩, reservation, hmem, hreservation, hreserved⟩ := hopen
  have hended : Ended s.world.database 20 := ⟨30, execution, hrow, hrun, hterminal⟩
  refine hnone 20 hended (fun worker claim hclaim => ?_) reservation hmem hreservation hreserved
  rw [hgone worker] at hclaim
  cases hclaim

end JbOrchestrator.Worker
