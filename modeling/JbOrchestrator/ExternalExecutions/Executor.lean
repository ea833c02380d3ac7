import JbOrchestrator.ExternalExecutions.Models
import JbOrchestrator.Lib.Coroutines

/-!
# Executor — the OpenClaw executor over the ledger and the bridge

`OpenClawExecutor.execute` and `cancel`.  Each statement is one `await` of the source.  A service call
commits or raises, and may raise after it has committed; the workspace manager and the bridge answer
whatever they like.
-/

open Lib

namespace JbOrchestrator.ExternalExecutions

open Workflows Application

/-! ## 1. Statements -/

structure StartRequest where
  message : String
  sessionKey : String
  idempotencyKey : String
  timeoutSeconds : ℕ
  agentId : Option String
  thinking : Option String
  provider : Option String
  model : Option String

inductive Statement where
  | get (idempotencyKey : String)
  | prepareWorkspace (claim : TaskClaim)
  | prepare (claim : TaskClaim) (sessionKey : String) (agentId : Option String)
      (assignment : WorkspaceAssignment)
  | accept (idempotencyKey externalRunId : String)
  | finish (idempotencyKey : String) (status : ExternalExecutionStatus)
      (terminalResult : Option JsonObject) (failureReason : Option String)
  | start (request : StartRequest)
  | wait (runId : String) (timeoutMs : ℕ)
  | cancel (runId : String)

namespace Statement

abbrev Answer : Statement → Type
  | get _ => Option ExternalExecution
  | prepareWorkspace _ => WorkspaceAssignment
  | prepare .. | accept .. | finish .. => ExternalExecution
  | start _ | wait .. | cancel _ => JsonObject

abbrev Reply (statement : Statement) : Type := Except Raised statement.Answer

/-- The statement is a call of the bridge. -/
def isBridge : Statement → Bool
  | start _ | wait .. | cancel _ => true
  | _ => false

end Statement

/-! ## 2. Functions of the standard library -/

/-- What `json.loads` raises. -/
inductive LoadsError where
  | jsonDecodeError
  /-- Any other exception: a numeral with too many digits is a `ValueError`. -/
  | otherwise (error : Raised)

/-- `json.loads` and the text that `_prompt` builds of a claim. -/
structure Surroundings where
  loads : String → Except LoadsError Json
  prompt : TaskClaim → String

/-- `c.lower()`, as far as it can be an ASCII letter: those and the Kelvin sign have one. -/
def lowerChar (c : Char) : Char := if c = '\u212a' then 'k' else c.toLower

/-- `str(terminal.get("status", "unknown")).lower()`.  The text of a value that is no string is none of
the words it is compared with. -/
def statusWord (terminal : JsonObject) : Option String :=
  match Json.lookup terminal "status" with
  | none => some "unknown"
  | some (.scalar (.str text)) => some (String.ofList (text.toList.map lowerChar))
  | some _ => none

/-! ## 3. Results -/

/-- A `TaskResult` with the usage it reports. -/
structure MeteredResult extends TaskResult where
  usage : Option Budgets.TokenUsage

/-- An exception of an `await` that goes through, or one that the executor raises itself. -/
inductive ExecuteError where
  | awaited (error : Raised)
  | raised (error : Raised)

def ExecuteError.typeName : ExecuteError → String
  | awaited error | raised error => error.typeName

/-- `_optional_string`. -/
def optionalString (configuration : JsonObject) (key : String) : Option String :=
  match Json.lookup configuration key with
  | some (.scalar (.str text)) => if Text.isBlank text then none else some (Text.strip text)
  | _ => none

/-- `_failure_reason`. -/
def failureReason (terminal : JsonObject) : String :=
  match Json.lookup terminal "error" with
  | some (.scalar (.str error)) => if error = "" then "OpenClaw run failed" else error
  | _ => "OpenClaw run failed"

def SUCCESS_STATUSES : List String := ["ok", "success", "succeeded", "completed"]

/-- `usage_data.get(camel, usage_data.get(snake))` when it is an `int`, no `bool` and not negative. -/
def tokens (usage : JsonObject) (camel snake : String) : Option ℕ :=
  match (Json.lookup usage camel).or (Json.lookup usage snake) with
  | some (.scalar (.int (.ofNat count))) => some count
  | _ => none

def usageOf (terminal : JsonObject) : Option Budgets.TokenUsage :=
  match Json.lookup terminal "usage" with
  | some (.dict usage) =>
    match tokens usage "inputTokens" "input_tokens", tokens usage "outputTokens" "output_tokens" with
    | some inputTokens, some outputTokens => some { inputTokens, outputTokens }
    | _, _ => none
  | _ => none

section

variable (env : Surroundings)

/-- The object at the end of `_artifact_output`. -/
def wrappedOutput (execution : ExternalExecution) (terminal : JsonObject) : JsonObject :=
  [("provider", .scalar (.str "openclaw")),
   ("session_key", .scalar (.str execution.externalSessionKey)),
   ("run_id", match execution.externalRunId with
      | some runId => .scalar (.str runId)
      | none => .scalar .null),
   ("terminal", .dict terminal)]

/-- `_artifact_output`. -/
def artifactOutput (execution : ExternalExecution) (terminal : JsonObject) :
    Except Raised JsonObject :=
  match Json.lookup terminal "output" with
  | some (.dict output) => .ok output
  | some (.scalar (.str output)) =>
    match env.loads output with
    | .ok (.dict parsed) => .ok parsed
    | .ok _ => .ok (wrappedOutput execution terminal)
    | .error .jsonDecodeError => .ok (wrappedOutput execution terminal)
    | .error (.otherwise error) => .error error
  | _ => .ok (wrappedOutput execution terminal)

def outcomeOf (succeeded : Bool) : NodeOutcome := if succeeded then .success else .failure

theorem outcomeOf_accepted (succeeded : Bool) :
    outcomeOf succeeded = .success ∨ outcomeOf succeeded = .failure := by
  cases succeeded
  · right
    rfl
  · left
    rfl

/-- `_result`. -/
def result (execution : ExternalExecution) (terminal : JsonObject) (succeeded : Bool) :
    Except Raised MeteredResult :=
  match artifactOutput env execution terminal with
  | .error error => .error error
  | .ok output => .ok
      { outcome := outcomeOf succeeded
        output := output
        accepted := outcomeOf_accepted succeeded
        usage := usageOf terminal }

/-- `_stored_result`. -/
def storedResult (execution : ExternalExecution) : Except Raised MeteredResult :=
  result env execution (execution.terminalResult.getD []) (decide (execution.status = .succeeded))

/-! ## 4. The executor -/

abbrev Await (α : Type) := Program Statement Statement.Reply ExecuteError α

def await (statement : Statement) : Await statement.Answer :=
  Program.perform statement >>= fun reply =>
    match reply with
    | .ok answer => .done answer
    | .error error => .raise (.awaited error)

/-- What the executor computes between two awaits. -/
def compute {α : Type} : Except Raised α → Await α
  | .ok value => .done value
  | .error error => .raise (.raised error)

/-- `_start_request`. -/
def startRequest (claim : TaskClaim) (execution : ExternalExecution) : StartRequest :=
  { message := env.prompt claim
    sessionKey := execution.externalSessionKey
    idempotencyKey := claim.idempotencyKey
    timeoutSeconds := claim.timeoutSeconds
    agentId := execution.externalAgentId
    thinking := optionalString claim.configuration "thinking"
    provider := claim.modelSelection.map fun selection => selection.profile.provider
    model := claim.modelSelection.map fun selection => selection.profile.modelId }

/-- `accepted.get("runId")`, unless it is refused. -/
def acceptedRunId (accepted : JsonObject) : Option String :=
  match Json.lookup accepted "runId" with
  | some (.scalar (.str runId)) => if runId = "" then none else some runId
  | _ => none

/-- The handler of the exceptions of `bridge.start`. -/
def startFailed (claim : TaskClaim) (error : ExecuteError) : Await ExternalExecution := do
  let _ ← await (.finish claim.idempotencyKey .failed none
    (some ("OpenClaw run start failed before acceptance (" ++ error.typeName ++ ")")))
  .raise error

/-- The `try` block of `execute`, when the execution has no run yet. -/
def ensureStarted (claim : TaskClaim) (execution : ExternalExecution) : Await ExternalExecution :=
  match execution.externalRunId with
  | some _ => .done execution
  | none => Program.perform (.start (startRequest env claim execution)) >>= fun reply =>
    match reply with
    | .error error =>
      if error.isException then startFailed claim (.awaited error) else .raise (.awaited error)
    | .ok accepted =>
      match acceptedRunId accepted with
      | none => startFailed claim
          (.raised (.runtime "OpenClaw agent response did not include runId"))
      | some runId => await (.accept claim.idempotencyKey runId)

def externalStatus (status : Option String) : ExternalExecutionStatus :=
  if status.any (SUCCESS_STATUSES.contains ·) then .succeeded
  else if status = some "cancelled" ∨ status = some "canceled" then .cancelled
  else .failed

/-- `execute` from `bridge.wait` on. -/
def conclude (claim : TaskClaim) (execution : ExternalExecution) (runId : String) :
    Await MeteredResult := do
  let terminal ← await (.wait runId (claim.timeoutSeconds * 1000))
  let status := statusWord terminal
  if status = some "timeout" then
    let _ ← await (.cancel runId)
    let _ ← await (.finish claim.idempotencyKey .cancelled (some terminal)
      (some "OpenClaw agent.wait timed out"))
    .raise (.raised (.timeout "OpenClaw agent.wait timed out and the run was cancelled"))
  else
    let succeeded := decide (externalStatus status = .succeeded)
    let _ ← await (.finish claim.idempotencyKey (externalStatus status) (some terminal)
      (if succeeded then none else some (failureReason terminal)))
    compute (result env execution terminal succeeded)

/-- A workspace for an execution that is still to be started. -/
def assign (claim : TaskClaim) (found : Option ExternalExecution) : Await WorkspaceAssignment :=
  if found.all fun execution => !execution.isTerminal && execution.externalRunId.isNone then
    await (.prepareWorkspace claim)
  else .done {}

/-- `execute` once the execution is found or created. -/
def proceed (claim : TaskClaim) (execution : ExternalExecution) : Await MeteredResult :=
  if execution.isTerminal then compute (storedResult env execution)
  else do
    let execution ← ensureStarted env claim execution
    match execution.externalRunId with
    | none => .raise (.raised (.runtime "active OpenClaw execution has no runId"))
    | some runId => conclude env claim execution runId

def sessionKey (claim : TaskClaim) (agentId : Option String) : String :=
  (optionalString claim.configuration "session_key").getD
    ("agent:" ++ agentId.getD "main" ++ ":jb:" ++ toString claim.executionId ++ ":" ++ claim.nodeKey)

/-- `execute` once the ledger is read. -/
def executeFound (claim : TaskClaim) (found : Option ExternalExecution) : Await MeteredResult := do
  let agentId := optionalString claim.configuration "agent_id"
  let assignment ← assign claim found
  match found with
  | none =>
    let execution ← await (.prepare claim (sessionKey claim agentId) agentId assignment)
    proceed env claim execution
  | some execution => proceed env claim execution

def execute (claim : TaskClaim) : Await MeteredResult := do
  let found ← await (.get claim.idempotencyKey)
  executeFound env claim found

end

/-- The end of `cancel`. -/
def cancelRun (claim : TaskClaim) (runId : String) : Await Unit := do
  let _ ← await (.cancel runId)
  let reply ← Program.perform (.finish claim.idempotencyKey .cancelled none
    (some "OpenClaw execution cancelled by worker"))
  match reply with
  | .ok _ => .done ()
  -- a terminal result won the race
  | .error (.invalidStateTransition _) => .done ()
  | .error error => .raise (.awaited error)

def cancel (claim : TaskClaim) : Await Unit := do
  let found ← await (.get claim.idempotencyKey)
  match found with
  | none => .done ()
  | some execution =>
    if execution.isTerminal then .done ()
    else
      match execution.externalRunId with
      | none => .done ()
      | some runId => cancelRun claim runId

/-! ## 5. The system -/

abbrev Ledger := String → Option ExternalExecution

/-- How a service call goes: it commits, or it raises before or after it has committed. -/
inductive ServiceChoice where
  | commits
  | fails (error : Raised) (committed : Bool)

abbrev Statement.Choice : Statement → Type
  | get _ | prepare .. | accept .. | finish .. => ServiceChoice
  | statement => statement.Reply

/-- A transaction on the row of a key. -/
def transact (idempotencyKey : String)
    (operation : Option ExternalExecution → Except Raised ExternalExecution)
    (choice : ServiceChoice) (ledger : Ledger) : Except Raised ExternalExecution × Ledger :=
  match operation (ledger idempotencyKey), choice with
  | .ok execution, .commits =>
    (.ok execution, Function.update ledger idempotencyKey (some execution))
  | .ok execution, .fails error true =>
    (.error error, Function.update ledger idempotencyKey (some execution))
  | .ok _, .fails error false => (.error error, ledger)
  | .error error, .commits => (.error error, ledger)
  | .error _, .fails error _ => (.error error, ledger)

def serve : (statement : Statement) → statement.Choice → Ledger → statement.Reply × Ledger
  | .get key, .commits, ledger => (.ok (ledger key), ledger)
  | .get _, .fails error _, ledger => (.error error, ledger)
  | .prepare claim sessionKey agentId assignment, choice, ledger =>
    transact claim.idempotencyKey
      (ExternalExecutionService.prepare claim sessionKey agentId assignment) choice ledger
  | .accept key runId, choice, ledger =>
    transact key (ExternalExecutionService.accept key runId) choice ledger
  | .finish key status terminalResult failureReason, choice, ledger =>
    transact key (ExternalExecutionService.finish key status terminalResult failureReason) choice
      ledger
  | .prepareWorkspace _, reply, ledger => (reply, ledger)
  | .start _, reply, ledger => (reply, ledger)
  | .wait .., reply, ledger => (reply, ledger)
  | .cancel _, reply, ledger => (reply, ledger)

theorem serve_get_commits (key : String) (ledger : Ledger) :
    serve (.get key) .commits ledger = (.ok (ledger key), ledger) := rfl

theorem serve_get_fails (key : String) (error : Raised) (committed : Bool) (ledger : Ledger) :
    serve (.get key) (.fails error committed) ledger = (.error error, ledger) := rfl

/-- One task executes the claims of a key at a time; any number of tasks cancel. -/
inductive Slot where
  | executor (idempotencyKey : String)
  | worker (n : ℕ)
  deriving DecidableEq, Repr

/-- The calls of `execute` return a result, those of `cancel` none. -/
def executors (env : Surroundings) :
    Coroutines Statement Statement.Reply Ledger ExecuteError Slot TaskClaim (Option MeteredResult) where
  Choice := Statement.Choice
  serve := serve
  admits slot claim :=
    match slot with
    | .executor key => decide (claim.idempotencyKey = key)
    | .worker _ => true
  program slot claim :=
    match slot with
    | .executor _ => execute env claim >>= fun value => .done (some value)
    | .worker _ => cancel claim >>= fun _ => .done none

end JbOrchestrator.ExternalExecutions
