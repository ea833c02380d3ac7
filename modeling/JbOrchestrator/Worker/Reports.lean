import JbOrchestrator.Worker.Runtime

/-!
# Reports — workers that have lost their claims

`complete` and `fail` raise for a claim that its node does not hold any more, and `run_once` lets the
error escape.  Before that point a worker that has lost its claim goes on without harm.
-/

open Lib

namespace JbOrchestrator.Worker

open Domain Workflows Infrastructure Application
open Budgets hiding Call

/-! ## 1. Claims -/

/-- The node of the claim is leased to the claim. -/
def Owns (world : World) (claim : TaskClaim) (now : Instant) : Prop :=
  ∃ execution expiresAt, world.database.executions.get? claim.executionId = some execution ∧
    execution.LeasedTo claim.nodeKey claim.leaseToken expiresAt ∧ now < expiresAt

/-- The claim that a call presents. -/
def presented : Call → Option (TaskClaim × Instant)
  | .heartbeat claim now | .complete claim _ _ now | .fail claim _ now => some (claim, now)
  | _ => none

section

variable {settings : Settings} {world world' : World} {call : Call} {result : Result}
  {claim : TaskClaim} {now : Instant}

theorem Returns.execution (h : Returns settings world call result world')
    (hpresented : presented call = some (claim, now)) : ∃ execution, result = .execution execution := by
  apply h.yields
  cases call with
  | heartbeat | complete | fail => exact yields_then fun value => yields_pure ⟨value, rfl⟩
  | _ => cases hpresented

/-- A call that presents a claim returns only while its node is leased to the claim. -/
theorem Returns.owns (h : Returns settings world call result world') (hworld : world.Consistent)
    (hpresented : presented call = some (claim, now)) : Owns world claim now := by
  obtain ⟨execution, rfl⟩ := h.execution hpresented
  obtain ⟨-, held, -, hcommits⟩ := h.commits hworld
  cases hcommits with
  | idle hresult => rcases hresult with h | h <;> cases h
  | started => cases hpresented
  | operated hrow _ hloads hstep hperforms =>
    have hstored := Database.Consistent.stored hworld _ _ hrow
    obtain rfl := hloads.eq trivial hstored.keys
    have heffect := effect_of_step hstored.sound hstored.active hstep
    cases hperforms with
    | heartbeat hid | complete hid | fail hid =>
      obtain ⟨rfl, rfl⟩ := Prod.mk.inj (Option.some.inj hpresented)
      obtain ⟨expiresAt, hleased, hlt⟩ := heffect.presents rfl
      exact ⟨_, expiresAt, hid ▸ hrow, hleased, hlt⟩
    | _ => cases hpresented

end

/-! ## 2. Steps -/

/-- The stages whose service call reports what became of the claim. -/
def Stage.reports : Stage → Bool
  | .completing _ _ | .failing _ _ _ => true
  | _ => false

/-- A worker that has lost its claim does not change the executions, and no error of the services
escapes. -/
def Discards (t : Transition System Input Unit) : Prop :=
  ∀ worker now action claim, t.input = .worker worker now action →
    (t.before.stage worker).claim = some claim → ¬Owns t.before.world claim now →
    t.after.world.database.executions = t.before.world.database.executions ∧
      ∀ error, t.after.stage worker ≠ .stopped (some (.service error))

/-- A worker reports on a claim that it has lost. -/
def ReportsLate (t : Transition System Input Unit) : Prop :=
  ∃ worker now id claim, t.input = .worker worker now (.proceed id) ∧
    (t.before.stage worker).claim = some claim ∧ (t.before.stage worker).reports = true ∧
    ¬Owns t.before.world claim now

section

variable {settings : Settings} {s : System} {worker : ℕ} {now : Instant} {claim : TaskClaim}

/-- The error of a late report ends the worker; nothing else changes. -/
theorem proceed_late (runtime : WorkerRuntime) (id : UUID) (hworld : s.world.Consistent)
    (hclaim : (s.stage worker).claim = some claim) (hreports : (s.stage worker).reports = true)
    (hlost : ¬Owns s.world claim now) :
    ∃ error, s.proceed settings runtime worker now id =
      s.moveTo worker (.stopped (some (.service error))) := by
  have hrefused : ∀ (call : Call) (next : Result → Stage), presented call = some (claim, now) →
      ∃ error, s.serve settings worker call next =
        s.moveTo worker (.stopped (some (.service error))) := by
    intro call next hpresented
    rcases System.serve_cases settings s worker call next with ⟨result, world, h, -⟩ | h
    · exact absurd (h.owns hworld hpresented) hlost
    · exact h
  unfold System.proceed
  cases hstage : s.stage worker with
  | completing | failing =>
    rw [hstage] at hclaim
    obtain rfl := Option.some.inj hclaim
    exact hrefused _ _ rfl
  | _ =>
    rw [hstage] at hreports
    cases hreports

theorem charge_discards (call : Budgets.Call) {next : Answer → Stage} {caught : BudgetError → Stage}
    (hnext : ∀ answer error, next answer ≠ .stopped (some (.service error)))
    (hcaught : ∀ raised error, caught raised ≠ .stopped (some (.service error))) :
    (s.charge worker call next caught).world = s.world ∧
      ∀ error, (s.charge worker call next caught).stage worker ≠ .stopped (some (.service error)) := by
  rcases s.charge_cases worker call next caught with ⟨answer, books, -, h⟩ | ⟨raised, -, h⟩
  · rw [h, System.moveTo_self]
    exact ⟨rfl, hnext answer⟩
  · rw [h, System.moveTo_self]
    exact ⟨rfl, hcaught raised⟩

theorem handled_ne (exception : WorkerException) (error : ServiceError) :
    Stage.handled exception ≠ .stopped (some (.service error)) := by
  cases exception <;> simp [Stage.handled]

theorem raise_ne {stage : Stage} (exception : WorkerException) {error : ServiceError}
    (h : stage ≠ .stopped (some (.service error))) :
    stage.raise exception ≠ .stopped (some (.service error)) := by
  cases stage with
  | stopped => exact h
  | _ => exact fun h => nomatch h

theorem proceed_discards (runtime : WorkerRuntime) (id : UUID)
    (hclaim : (s.stage worker).claim = some claim) (hreports : (s.stage worker).reports = false) :
    (s.proceed settings runtime worker now id).world = s.world ∧
      ∀ error, (s.proceed settings runtime worker now id).stage worker ≠
        .stopped (some (.service error)) := by
  unfold System.proceed
  cases hstage : s.stage worker with
  | idle | recovered | stopped =>
    rw [hstage] at hclaim
    cases hclaim
  | completing | failing =>
    rw [hstage] at hreports
    cases hreports
  | preparing | executing =>
    dsimp only
    rw [hstage]
    exact ⟨rfl, fun error h => nomatch h⟩
  | reserving claim =>
    dsimp only
    split
    · apply charge_discards
      · intro answer error
        cases answer <;> exact fun h => nomatch h
      · exact fun raised error h => nomatch h
    · rw [System.moveTo_self]
      exact ⟨rfl, fun error h => nomatch h⟩
  | settling =>
    dsimp only
    split
    · apply charge_discards
      · exact fun answer error h => nomatch h
      · exact fun raised error h => nomatch h
    · rw [System.moveTo_self]
      exact ⟨rfl, fun error h => nomatch h⟩
  | forfeiting =>
    apply charge_discards
    · exact fun answer error => handled_ne _ error
    · exact fun raised error h => nomatch h

theorem beat_discards (runtime : WorkerRuntime) (cancellationError : Option String)
    (hworld : s.world.Consistent) (hclaim : (s.stage worker).claim = some claim)
    (hlost : ¬Owns s.world claim now) :
    (s.beat settings runtime worker now cancellationError).world = s.world ∧
      ∀ error, (s.beat settings runtime worker now cancellationError).stage worker ≠
        .stopped (some (.service error)) := by
  unfold System.beat
  cases hstage : s.stage worker with
  | executing held reservation =>
    rw [hstage] at hclaim
    obtain rfl := Option.some.inj hclaim
    dsimp only
    split
    · rename_i result world h
      exact absurd (Returns.owns h hworld rfl) hlost
    · rename_i error world h
      rw [serial_error h, System.moveTo_self]
      exact ⟨rfl, fun error h => nomatch h⟩
  | idle | recovered | stopped =>
    rw [hstage] at hclaim
    cases hclaim
  | _ =>
    dsimp only
    rw [hstage]
    exact ⟨rfl, fun error h => nomatch h⟩

/-- Without a report, a worker that has lost its claim does no harm. -/
theorem act_discards (runtime : WorkerRuntime) (action : Action) (hworld : s.world.Consistent)
    (hclaim : (s.stage worker).claim = some claim) (hlost : ¬Owns s.world claim now)
    (hreports : ∀ id, action = .proceed id → (s.stage worker).reports = false) :
    (s.act settings runtime worker now action).world = s.world ∧
      ∀ error, (s.act settings runtime worker now action).stage worker ≠
        .stopped (some (.service error)) := by
  have hkept : ∀ error, s.stage worker ≠ .stopped (some (.service error)) := by
    intro error h
    rw [h] at hclaim
    cases hclaim
  cases action with
  | proceed id => exact proceed_discards runtime id hclaim (hreports id rfl)
  | beat cancellationError => exact beat_discards runtime cancellationError hworld hclaim hlost
  | materialized =>
    unfold System.act
    dsimp only
    split
    · rw [System.moveTo_self]
      exact ⟨rfl, fun error h => nomatch h⟩
    · exact ⟨rfl, hkept⟩
  | returned =>
    unfold System.act
    dsimp only
    split
    · rw [System.moveTo_self]
      exact ⟨rfl, fun error h => nomatch h⟩
    · exact ⟨rfl, hkept⟩
  | raised exception =>
    unfold System.act
    dsimp only
    rw [System.moveTo_self]
    exact ⟨rfl, fun error => raise_ne exception (hkept error)⟩
  | stop =>
    unfold System.act
    dsimp only
    split
    · rw [System.moveTo_self]
      exact ⟨rfl, fun error h => nomatch h⟩
    · exact ⟨rfl, hkept⟩
  | crash =>
    unfold System.act
    dsimp only
    split
    · exact ⟨rfl, hkept⟩
    · rw [System.moveTo_self]
      exact ⟨rfl, fun error h => nomatch h⟩

/-- A step discards what is late exactly when it reports nothing late. -/
theorem discards_iff (runtimes : ℕ → WorkerRuntime) (hworld : s.world.Consistent) (input : Input) :
    Discards ((workers settings runtimes).fire s input) ↔
      ¬ReportsLate ((workers settings runtimes).fire s input) := by
  constructor
  · rintro hdiscards ⟨worker, now, id, claim, hinput, hclaim, hreports, hlost⟩
    have hkept := (hdiscards worker now _ claim hinput hclaim hlost).2
    obtain rfl : input = .worker worker now (.proceed id) := hinput
    obtain ⟨error, hstopped⟩ : ∃ error, s.proceed settings (runtimes worker) worker now id =
        s.moveTo worker (.stopped (some (.service error))) :=
      proceed_late (runtimes worker) id hworld hclaim hreports hlost
    apply hkept error
    show (s.proceed settings (runtimes worker) worker now id).stage worker = _
    rw [hstopped, System.moveTo_self]
  · intro hlate worker now action claim hinput hclaim hlost
    obtain rfl : input = .worker worker now action := hinput
    have hreports : ∀ id, action = .proceed id → (s.stage worker).reports = false := by
      rintro id rfl
      cases hstage : (s.stage worker).reports with
      | false => rfl
      | true => exact absurd ⟨worker, now, id, claim, rfl, hclaim, hstage, hlost⟩ hlate
    obtain ⟨hsame, hrun⟩ : (s.act settings (runtimes worker) worker now action).world = s.world ∧ _ :=
      act_discards (runtimes worker) action hworld hclaim hlost hreports
    exact ⟨congrArg (fun world => world.database.executions) hsame, hrun⟩

end

/-! ## 3. Runs -/

section

variable (settings : Settings) (runtimes : ℕ → WorkerRuntime) {world : World}
  (hblank : Blank world.database)
include hblank

theorem run_consistent (inputs : List Input) {t : Transition System Input Unit}
    (ht : t ∈ (workers settings runtimes).trace ⟨world, {}, fun _ => .idle⟩ inputs) :
    t.before.world.Consistent ∧ t = (workers settings runtimes).fire t.before t.input :=
  (workers settings runtimes).trace_invariant (I := fun s => s.world.Consistent)
    (fun _ input h => System.step_consistent runtimes h input) hblank.aligned.consistent ht

/-- In any interleaving, every step of a worker that has lost its claim is harmless exactly when no
worker reports late; a late report changes nothing and its error ends the worker. -/
theorem workers_discard_iff (inputs : List Input) :
    ((∀ t ∈ (workers settings runtimes).trace ⟨world, {}, fun _ => .idle⟩ inputs, Discards t) ↔
      ∀ t ∈ (workers settings runtimes).trace ⟨world, {}, fun _ => .idle⟩ inputs,
        ¬ReportsLate t) ∧
    ∀ t ∈ (workers settings runtimes).trace ⟨world, {}, fun _ => .idle⟩ inputs, ReportsLate t →
      t.after.world = t.before.world ∧ t.after.books = t.before.books ∧
        ∃ worker error, t.after.stage worker = .stopped (some (.service error)) := by
  have hiff : ∀ t ∈ (workers settings runtimes).trace ⟨world, {}, fun _ => .idle⟩ inputs,
      (Discards t ↔ ¬ReportsLate t) := by
    intro t ht
    obtain ⟨hworld, hfire⟩ := run_consistent settings runtimes hblank inputs ht
    rw [hfire]
    exact discards_iff runtimes hworld t.input
  refine ⟨forall₂_congr hiff, ?_⟩
  rintro t ht ⟨worker, now, id, claim, hinput, hclaim, hreports, hlost⟩
  obtain ⟨hworld, hfire⟩ := run_consistent settings runtimes hblank inputs ht
  obtain ⟨error, hstopped⟩ : ∃ error, t.before.proceed settings (runtimes worker) worker now id =
      t.before.moveTo worker (.stopped (some (.service error))) :=
    proceed_late (runtimes worker) id hworld hclaim hreports hlost
  have hafter : t.after = t.before.moveTo worker (.stopped (some (.service error))) := by
    rw [hfire, hinput]
    exact hstopped
  rw [hafter]
  exact ⟨rfl, rfl, worker, error, System.moveTo_self _ _ _⟩

end

/-! ## 4. One task, completed in time or late -/

/-- The checks of a report that is not late. -/
def onTime (t : Transition System Input Unit) : Bool :=
  match t.input with
  | .worker worker now (.proceed _) =>
    !(t.before.stage worker).reports || (t.before.stage worker).claim.all fun claim =>
      (t.before.world.database.executions.get? claim.executionId).any fun execution =>
        (execution.nodes.get? claim.nodeKey).any fun node =>
          node.status = .running && node.leaseToken = some claim.leaseToken &&
            node.leaseExpiresAt.any fun expiresAt => now < expiresAt
  | _ => true

theorem not_reportsLate_of_onTime {t : Transition System Input Unit} (h : onTime t = true) :
    ¬ReportsLate t := by
  rintro ⟨worker, now, id, claim, hinput, hclaim, hreports, hlost⟩
  unfold onTime at h
  simp only [hinput, hclaim, hreports, Bool.not_true, Bool.false_or, Option.all_some,
    Option.any_eq_true, Bool.and_eq_true, decide_eq_true_eq] at h
  obtain ⟨execution, hrow, node, hnode, ⟨hrunning, htoken⟩, expiresAt, hexpires, hlt⟩ := h
  exact hlost ⟨execution, expiresAt, hrow, ⟨node, hnode, hrunning, htoken, hexpires⟩, hlt⟩

/-- A worker without a materializer and without a budget service. -/
def plainWorker : WorkerRuntime := ⟨"worker", ["default"], false, false, fun _ => ""⟩

/-- The worker claims the task, something else happens, and the worker completes the task. -/
def claimedThen (between : Input) : List Input :=
  [.call requestTask, .call startTask, .worker 0 2 (.proceed 0), .worker 0 2 (.proceed 77),
    .worker 0 2 (.proceed 0), between,
    .worker 0 4 (.returned ⟨.success, [], .inl rfl⟩ none), .worker 0 4 (.proceed 0)] ++
    [.worker 0 4 (.proceed 99)]

abbrev claimedTrace (between : Input) :=
  (workers lenient fun _ => plainWorker).trace ⟨oneProject, {}, fun _ => .idle⟩ (claimedThen between)

/-- Completed after a heartbeat. -/
theorem workers_discard_iff_beat :
    ((claimedTrace (.worker 0 3 (.beat none))).any fun t => (t.before.stage 0).reports) = true ∧
      ∀ t ∈ claimedTrace (.worker 0 3 (.beat none)), Discards t := by
  refine ⟨by decide +kernel, ?_⟩
  have honTime : ∀ t ∈ claimedTrace (.worker 0 3 (.beat none)), onTime t = true := by
    decide +kernel
  exact (workers_discard_iff lenient (fun _ => plainWorker) blank_oneProject _).1.mpr
    fun t ht => not_reportsLate_of_onTime (honTime t ht)

/-- A worker reports on a task that is not running any more, and the error ends it. -/
def endsLate (t : Transition System Input Unit) (worker : ℕ) : Bool :=
  ((t.before.stage worker).claim.any fun claim =>
    (t.before.world.database.executions.get? claim.executionId).all fun execution =>
      (execution.nodes.get? claim.nodeKey).all fun node => node.status ≠ .running) &&
    match t.after.stage worker with
    | .stopped (some (.service _)) => true
    | _ => false

/-- The workflow is cancelled while the task is executed. -/
theorem cancelled_task_ends_worker :
    ¬∀ (settings : Settings) (runtimes : ℕ → WorkerRuntime) (world : World),
      Blank world.database → ∀ inputs,
        ∀ t ∈ (workers settings runtimes).trace ⟨world, {}, fun _ => .idle⟩ inputs, Discards t := by
  intro hclaim
  have hlast : ∃ t ∈ claimedTrace (.call (.cancel 30 3)),
      t.input = .worker 0 4 (.proceed 99) ∧ endsLate t 0 = true := by
    refine ⟨(claimedTrace (.call (.cancel 30 3))).getLast (by decide +kernel),
      List.getLast_mem _, rfl, by decide +kernel⟩
  obtain ⟨t, ht, hinput, hlate⟩ := hlast
  unfold endsLate at hlate
  rw [Bool.and_eq_true, Option.any_eq_true] at hlate
  obtain ⟨⟨claim, hheld, hended⟩, hstopped⟩ := hlate
  have hlost : ¬Owns t.before.world claim 4 := by
    rintro ⟨execution, expiresAt, hrow, ⟨node, hnode, hrunning, -⟩, -⟩
    simp [hrow, hnode, hrunning] at hended
  have hkept := (hclaim lenient (fun _ => plainWorker) oneProject blank_oneProject _ t ht 0 4 _ claim
    hinput hheld hlost).2
  split at hstopped
  · rename_i error hstage
    exact hkept error hstage
  · cases hstopped

end JbOrchestrator.Worker
