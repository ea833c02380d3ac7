import JbOrchestrator.Application.Pinning
import JbOrchestrator.Budgets.Ledger

/-!
# Runtime — workers over the services and the budget ledger

`WorkerRuntime.run` of `worker/runtime.py`.  A worker is at a stage of `run_once`; a step is one
service call, which is one transaction, or something that happens outside of transactions: the skills
are there, the executor returns or raises, the process dies.
-/

open Lib

namespace JbOrchestrator.Worker

open Domain Workflows Infrastructure Application
open Budgets hiding Call

/-! ## 1. Exceptions -/

/-- What the `try` block of `run_once` tells apart. -/
inductive WorkerException where
  | skillMaterialization (message : String)
  | budget (error : BudgetError)
  | timeout (message : String)
  /-- `ExecutorHeartbeatError`. -/
  | heartbeat (message : String)
  /-- `WorkerStopRequested`. -/
  | stopRequested (message : String)
  /-- `asyncio.CancelledError`. -/
  | cancelled
  | other (message : String)

/-- What ends `run`. -/
inductive Escape where
  | service (error : ServiceError)
  | budget (error : BudgetError)
  | raised (exception : WorkerException)
  | crashed

structure WorkerRuntime where
  workerId : String
  supportedKeys : List String
  hasSkillMaterializer : Bool
  hasBudgetService : Bool
  /-- `str(exc)`. -/
  text : BudgetError → String

/-- The reason that the handler of an exception reports. -/
def WorkerRuntime.reason (runtime : WorkerRuntime) : WorkerException → String
  | .skillMaterialization message => "skill materialization failed: " ++ message
  | .budget (.limitExceeded amount available) =>
    "budget reservation failed: " ++ runtime.text (.limitExceeded amount available)
  | .budget (.usageRequired message) =>
    "budget settlement failed: " ++ runtime.text (.usageRequired message)
  | .budget (.service error) => "executor failed: " ++ runtime.text (.service error)
  | .timeout message => if message = "" then "executor timed out" else message
  | .heartbeat message => message
  | .stopRequested message => message
  | .cancelled => "worker runtime cancelled"
  | .other message => "executor failed: " ++ message

/-- `_with_cancellation_error`. -/
def withCancellationError (reason : String) (cancellationError : Option String) : String :=
  match cancellationError with
  | none => reason
  | some error => if error = "" then reason else reason ++ "; " ++ error

/-! ## 2. Stages -/

/-- Where a worker is in `run`. -/
inductive Stage where
  | idle
  | recovered
  | preparing (claim : TaskClaim)
  | reserving (claim : TaskClaim)
  | executing (claim : TaskClaim) (reservation : Option BudgetReservation)
  | settling (claim : TaskClaim) (reservation : Option BudgetReservation) (result : TaskResult)
      (usage : Option TokenUsage)
  | completing (claim : TaskClaim) (result : TaskResult)
  /-- `_fail`. -/
  | failing (claim : TaskClaim) (reservation : Option BudgetReservation)
      (exception : WorkerException)
  | forfeiting (claim : TaskClaim) (reservation : Option BudgetReservation)
      (exception : WorkerException)
  /-- `run` is over, without an error after a stop request. -/
  | stopped (escape : Option Escape)

namespace Stage

/-- The claim that the worker holds. -/
def claim : Stage → Option TaskClaim
  | .idle | .recovered | .stopped _ => none
  | .preparing claim | .reserving claim | .executing claim _ | .settling claim _ _ _
  | .completing claim _ | .failing claim _ _ | .forfeiting claim _ _ => some claim

/-- `reserve` has returned. -/
def reserved (claim : TaskClaim) : Answer → Stage
  | .reservation reservation => .executing claim reservation
  | _ => .executing claim none

/-- After the handler of an exception. -/
def handled : WorkerException → Stage
  | .cancelled => .stopped (some (.raised .cancelled))
  | _ => .idle

/-- An exception that is raised while the worker is at the stage. -/
def raise (exception : WorkerException) : Stage → Stage
  | .preparing claim | .reserving claim => .failing claim none exception
  | .executing claim reservation | .settling claim reservation _ _ =>
    .failing claim reservation exception
  | .stopped escape => .stopped escape
  | .idle | .recovered | .completing _ _ | .failing _ _ _ | .forfeiting _ _ _ =>
    .stopped (some (.raised exception))

end Stage

namespace WorkerRuntime

variable (runtime : WorkerRuntime)

def claimed (claim : TaskClaim) : Stage :=
  if claim.skills.isEmpty then .reserving claim
  else if runtime.hasSkillMaterializer then .preparing claim
  else .failing claim none
    (.skillMaterialization "worker has no skill materializer configured")

/-- `claim_next` has returned. -/
def dispatched : Result → Stage
  | .claim (some claim) => runtime.claimed claim
  | _ => .idle

/-- `fail` has returned the execution. -/
def failed (claim : TaskClaim) (reservation : Option BudgetReservation)
    (exception : WorkerException) : Result → Stage
  | .execution execution =>
    if (execution.nodes.get? claim.nodeKey).map NodeExecution.status = some .failed ∧
        runtime.hasBudgetService then .forfeiting claim reservation exception
    else .handled exception
  | _ => .handled exception

end WorkerRuntime

/-! ## 3. Steps -/

/-- The workers over the committed rows.  The budget tables are those of `books`; those of the database
stay empty. -/
structure System where
  world : World
  books : Books := {}
  stage : ℕ → Stage := fun _ => .idle

/-- The rows that a budget service reads elsewhere. -/
def surroundings (db : Database) : Surroundings where
  runs id := (db.runs.get? id).map Run.requestId
  requests id := (db.requests.get? id).map UserRequest.projectId
  projects id := (db.projects.get? id).isSome

inductive Action where
  /-- The service call of the stage, with the id that it draws. -/
  | proceed (id : UUID)
  | materialized
  | beat (cancellationError : Option String)
  | returned (result : TaskResult) (usage : Option TokenUsage)
  /-- A service call that raises this way is rolled back. -/
  | raised (exception : WorkerException)
  | stop
  | crash

/-- The run and the time of the call of `release_run_reservations` inside a call. -/
def releasedRun : Call → Result → Option (UUID × Instant)
  | .cancel _ now, .execution execution => some (execution.snapshot.runId, now)
  | .cancelRun runId now, _ => some (runId, now)
  | _, _ => none

namespace System

variable (settings : Settings) (s : System)

def moveTo (worker : ℕ) (stage : Stage) : System :=
  { s with stage := Function.update s.stage worker stage }

@[simp] theorem moveTo_world (worker : ℕ) (stage : Stage) : (s.moveTo worker stage).world = s.world :=
  rfl

@[simp] theorem moveTo_books (worker : ℕ) (stage : Stage) : (s.moveTo worker stage).books = s.books :=
  rfl

@[simp] theorem moveTo_self (worker : ℕ) (stage : Stage) :
    (s.moveTo worker stage).stage worker = stage := by
  simp [moveTo]

theorem moveTo_of_ne {worker other : ℕ} (h : other ≠ worker) (stage : Stage) :
    (s.moveTo worker stage).stage other = s.stage other := by
  simp [moveTo, h]

/-- A service call of a worker; an error escapes. -/
def serve (worker : ℕ) (call : Call) (next : Result → Stage) : System :=
  match (services settings).serial.step s.world call with
  | (.ok result, world) => { s with world }.moveTo worker (next result)
  | (.error error, world) => { s with world }.moveTo worker (.stopped (some (.service error)))

/-- A call of the budget service by a worker. -/
def charge (worker : ℕ) (call : Budgets.Call) (next : Answer → Stage) (caught : BudgetError → Stage) :
    System :=
  match call.step s.books with
  | (.ok answer, books) => { s with books }.moveTo worker (next answer)
  | (.error error, books) => { s with books }.moveTo worker (caught error)

/-- The service call of the stage. -/
def proceed (runtime : WorkerRuntime) (worker : ℕ) (now : Instant) (id : UUID) : System :=
  match s.stage worker with
  | .idle => s.serve settings worker (.recoverExpired now) fun _ => .recovered
  | .recovered =>
    s.serve settings worker (.claimNext runtime.workerId (some runtime.supportedKeys) id now)
      runtime.dispatched
  | .reserving claim =>
    if runtime.hasBudgetService then
      s.charge worker (.reserve (surroundings s.world.database) claim id now) (.reserved claim)
        fun error => .failing claim none (.budget error)
    else s.moveTo worker (.executing claim none)
  | .settling claim reservation result usage =>
    if runtime.hasBudgetService then
      s.charge worker (.settle claim reservation usage id now) (fun _ => .completing claim result)
        fun error => .failing claim reservation (.budget error)
    else s.moveTo worker (.completing claim result)
  | .completing claim result => s.serve settings worker (.complete claim result id now) fun _ => .idle
  | .failing claim reservation exception =>
    s.serve settings worker (.fail claim (runtime.reason exception) now)
      (runtime.failed claim reservation exception)
  | .forfeiting claim reservation exception =>
    s.charge worker (.forfeit claim reservation id now) (fun _ => .handled exception)
      fun error => .stopped (some (.budget error))
  | .preparing _ | .executing _ _ | .stopped _ => s

/-- A heartbeat beside the executor. -/
def beat (runtime : WorkerRuntime) (worker : ℕ) (now : Instant)
    (cancellationError : Option String) : System :=
  match s.stage worker with
  | .executing claim reservation =>
    match (services settings).serial.step s.world (.heartbeat claim now) with
    | (.ok _, world) => { s with world }
    | (.error error, world) =>
      { s with world }.moveTo worker (.failing claim reservation (.heartbeat
        (withCancellationError ("executor heartbeat failed: " ++ runtime.text (.service error))
          cancellationError)))
  | _ => s

def act (runtime : WorkerRuntime) (worker : ℕ) (now : Instant) : Action → System
  | .proceed id => s.proceed settings runtime worker now id
  | .materialized =>
    match s.stage worker with
    | .preparing claim => s.moveTo worker (.reserving claim)
    | _ => s
  | .beat cancellationError => s.beat settings runtime worker now cancellationError
  | .returned result usage =>
    match s.stage worker with
    | .executing claim reservation =>
      s.moveTo worker (.settling claim reservation result usage)
    | _ => s
  | .raised exception => s.moveTo worker ((s.stage worker).raise exception)
  | .stop =>
    match s.stage worker with
    | .idle => s.moveTo worker (.stopped none)
    | _ => s
  | .crash =>
    match s.stage worker with
    | .stopped _ => s
    | _ => s.moveTo worker (.stopped (some .crashed))

/-- A call of somebody else, who may be a worker that is not followed here. -/
def request (call : Call) : System :=
  match (services settings).serial.step s.world call with
  | (.error _, _) => s
  | (.ok result, world) =>
    match releasedRun call result with
    | none => { s with world }
    | some (runId, now) =>
      match releaseRunReservations s.books runId now with
      | .error _ => s
      | .ok (_, books) => { s with world, books }

end System

inductive Input where
  | worker (worker : ℕ) (now : Instant) (action : Action)
  | call (call : Call)
  | configure (projectId : UUID) (limitUsd : Decimal) (id : UUID) (now : Instant)

def System.step (settings : Settings) (runtimes : ℕ → WorkerRuntime) (s : System) :
    Input → System
  | .worker worker now action => s.act settings (runtimes worker) worker now action
  | .call call => s.request settings call
  | .configure projectId limitUsd id now =>
    { s with books := (Budgets.Call.step s.books
        (.configure (surroundings s.world.database) projectId limitUsd id now)).2 }

def workers (settings : Settings) (runtimes : ℕ → WorkerRuntime) : Machine System Input Unit :=
  ⟨fun s input => ((), s.step settings runtimes input)⟩

/-! ## 4. What a step does -/

section

variable {settings : Settings} {world world' : World} {call : Call} {result : Result}

/-- The call commits and returns the result. -/
def Returns (settings : Settings) (world : World) (call : Call) (result : Result) (world' : World) :
    Prop :=
  (services settings).serial.step world call = (.ok result, world')

theorem Returns.commits (h : Returns settings world call result world')
    (hworld : world.Consistent) :
    world'.Consistent ∧ ∃ held, WorldCommits ⟨True, True⟩ call result held world world' := by
  obtain ⟨hconsistent, htrace⟩ := serial_spec settings hworld [call]
  have hstep := (htrace _ (List.mem_singleton_self _)).2
  unfold Returns at h
  simp only [Machine.run_cons, Machine.run_nil, h] at hconsistent
  simp only [SerialStep, Store.Serves, Machine.fire, h] at hstep
  exact ⟨hconsistent, hstep⟩

/-- The result of a call is one that its program returns on the committed rows. -/
theorem Returns.served (h : Returns settings world call result world') :
    ∃ unitOfWork, (services settings).serve (Call.program settings call) {} world =
      .ok (result, unitOfWork) := by
  unfold Returns at h
  simp only [Store.serial, Store.call] at h
  rw [show (services settings).program = Call.program settings from rfl,
    show (services settings).start = {} from rfl] at h
  cases hprogram : (services settings).serve (Call.program settings call) {} world with
  | error error =>
    rw [hprogram] at h
    cases h
  | ok returned =>
    obtain ⟨value, unitOfWork⟩ := returned
    rw [hprogram] at h
    dsimp only at h
    cases hcommit : (services settings).commit call value unitOfWork world with
    | error error =>
      rw [hcommit] at h
      cases h
    | ok committed =>
      rw [hcommit] at h
      obtain rfl := Except.ok.inj (Prod.mk.inj h).1
      exact ⟨unitOfWork, rfl⟩

/-- What holds of all that the program of a call can return holds of its result. -/
theorem Returns.yields {P : Result → Prop} (h : Returns settings world call result world')
    (hyields : Yields settings (Call.program settings call) P) : P result := by
  obtain ⟨unitOfWork, hserve⟩ := h.served
  have hresult := (services settings).wp_serve (fun _ _ => trivial) (fun _ _ _ => trivial)
    (hyields ∅ {} world)
  rw [hserve] at hresult
  obtain ⟨held, hresult⟩ := hresult
  exact hresult

theorem serial_error {error : ServiceError}
    (h : (services settings).serial.step world call = (.error error, world')) : world' = world := by
  simp only [Store.serial] at h
  split at h
  · cases h
  · exact (Prod.mk.inj h).2.symm

end

namespace System

variable {settings : Settings}

variable (settings) in
/-- A service call commits, or its error ends the worker. -/
theorem serve_cases (s : System) (worker : ℕ) (call : Call) (next : Result → Stage) :
    (∃ result world, Returns settings s.world call result world ∧
      s.serve settings worker call next = { s with world }.moveTo worker (next result)) ∨
    ∃ error, s.serve settings worker call next =
      s.moveTo worker (.stopped (some (.service error))) := by
  unfold serve Returns
  split
  · rename_i result world h
    exact .inl ⟨result, world, h, rfl⟩
  · rename_i error world h
    obtain rfl := serial_error h
    exact .inr ⟨error, rfl⟩

/-- A budget call changes the books, or its error is caught. -/
theorem charge_cases (s : System) (worker : ℕ) (call : Budgets.Call) (next : Answer → Stage)
    (caught : BudgetError → Stage) :
    (∃ answer books, call.perform s.books = .ok (answer, books) ∧
      s.charge worker call next caught = { s with books }.moveTo worker (next answer)) ∨
    ∃ error, call.perform s.books = .error error ∧
      s.charge worker call next caught = s.moveTo worker (caught error) := by
  unfold charge
  cases hperform : call.perform s.books with
  | ok performed =>
    rw [Budgets.Call.step_ok hperform]
    exact .inl ⟨_, _, rfl, rfl⟩
  | error error =>
    rw [Budgets.Call.step_error hperform]
    exact .inr ⟨error, rfl, rfl⟩

theorem charge_world (s : System) (worker : ℕ) (call : Budgets.Call) (next : Answer → Stage)
    (caught : BudgetError → Stage) : (s.charge worker call next caught).world = s.world := by
  rcases s.charge_cases worker call next caught with ⟨answer, books, -, h⟩ | ⟨error, -, h⟩
  · rw [h]
    rfl
  · rw [h]
    rfl

/-- At most one service call. -/
def Moves (settings : Settings) (world world' : World) : Prop :=
  world' = world ∨ ∃ call result, Returns settings world call result world'

theorem serve_moves (s : System) (worker : ℕ) (call : Call) (next : Result → Stage) :
    Moves settings s.world (s.serve settings worker call next).world := by
  rcases serve_cases settings s worker call next with ⟨result, world, h, heq⟩ | ⟨error, heq⟩
  · rw [heq]
    exact .inr ⟨call, result, h⟩
  · rw [heq]
    exact .inl rfl

theorem proceed_moves (runtime : WorkerRuntime) (s : System) (worker : ℕ) (now : Instant) (id : UUID) :
    Moves settings s.world (s.proceed settings runtime worker now id).world := by
  unfold proceed
  cases s.stage worker with
  | idle | recovered | completing | failing => exact serve_moves s worker _ _
  | reserving | settling =>
    dsimp only
    split
    · exact .inl (charge_world s worker _ _ _)
    · exact .inl rfl
  | forfeiting => exact .inl (charge_world s worker _ _ _)
  | preparing | executing | stopped => exact .inl rfl

theorem act_moves (runtime : WorkerRuntime) (s : System) (worker : ℕ) (now : Instant)
    (action : Action) : Moves settings s.world (s.act settings runtime worker now action).world := by
  unfold act
  cases action with
  | proceed id => exact proceed_moves runtime s worker now id
  | beat =>
    unfold beat
    dsimp only
    split
    · split
      · rename_i result world h
        exact .inr ⟨_, result, h⟩
      · rename_i error world h
        exact .inl (serial_error h)
    · exact .inl rfl
  | raised => exact .inl rfl
  | materialized | returned | stop | crash =>
    dsimp only
    split <;> exact .inl rfl

theorem request_moves (s : System) (call : Call) :
    Moves settings s.world (s.request settings call).world := by
  unfold request
  split
  · exact .inl rfl
  · rename_i result world h
    split
    · exact .inr ⟨call, result, h⟩
    · split
      · exact .inl rfl
      · exact .inr ⟨call, result, h⟩

theorem step_moves (runtimes : ℕ → WorkerRuntime) (s : System) (input : Input) :
    Moves settings s.world (s.step settings runtimes input).world := by
  cases input with
  | worker worker now action => exact act_moves (runtimes worker) s worker now action
  | call call => exact request_moves s call
  | configure => exact .inl rfl

theorem step_consistent (runtimes : ℕ → WorkerRuntime) {s : System} (h : s.world.Consistent)
    (input : Input) : (s.step settings runtimes input).world.Consistent := by
  rcases step_moves runtimes s input with hsame | ⟨call, result, hreturns⟩
  · rw [hsame]
    exact h
  · exact (hreturns.commits h).1

end System

end JbOrchestrator.Worker
