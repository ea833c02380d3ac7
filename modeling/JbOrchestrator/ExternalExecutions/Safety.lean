import JbOrchestrator.ExternalExecutions.Rows

/-!
# Safety — every run of the executor keeps the ledger of external executions

The calls of `execute` and `cancel` for all keys interleave and stop anywhere.  A call of `execute`
meets `cancel` only, a call of `cancel` meets everything; under this each phase of a call is safe, and
so is every run.
-/

open Lib

namespace JbOrchestrator.ExternalExecutions

open Workflows Application ExternalExecutionService

/-! ## 1. What the slots rely on, guarantee and issue -/

/-- What the bridge may answer to `wait`. -/
def Answers (Good : JsonObject → Prop) : (statement : Statement) → statement.Choice → Prop
  | .wait .., reply => ∀ terminal, reply = .ok terminal → Good terminal
  | _, _ => True

def Relies : Slot → Ledger → Ledger → Prop
  | .executor key, ledger, ledger' => Interferes (ledger key) (ledger' key)
  | .worker _, ledger, ledger' => ∀ key, Evolves (ledger key) (ledger' key)

def Guarantees (Good : JsonObject → Prop) : Slot → Ledger → Ledger → Prop
  | .executor key, ledger, ledger' => Advances Good key ledger ledger'
  | .worker _, ledger, ledger' => ∀ key, Interferes (ledger key) (ledger' key)

/-- What the row of the claim is when the bridge is called. -/
def Addressed (claim : TaskClaim) (ledger : Ledger) : Statement → Prop
  | .start request => request.idempotencyKey = claim.idempotencyKey ∧
      ∃ e, ledger claim.idempotencyKey = some e ∧ e.status = .starting ∧ e.externalRunId = none ∧
        request.sessionKey = e.externalSessionKey
  | .wait runId _ | .cancel runId =>
      ∃ e, ledger claim.idempotencyKey = some e ∧ e.externalRunId = some runId
  | _ => True

/-- The row of the claim is terminal. -/
def Ended (claim : TaskClaim) (ledger : Ledger) : Prop :=
  ∃ e, ledger claim.idempotencyKey = some e ∧ e.isTerminal = true

def Issues (slot : Slot) (claim : TaskClaim) (began ledger : Ledger) (statement : Statement) : Prop :=
  Addressed claim ledger statement ∧
    ∀ key, slot = .executor key → Ended claim began → statement.isBridge = false

/-- A result for a row that is terminal.  The output is the recorded one, unless `cancel` finished the
row while the call was waiting. -/
def Left (env : Surroundings) (row : Option ExternalExecution) (value : MeteredResult) : Prop :=
  ∃ e, row = some e ∧ e.isTerminal = true ∧
    value.outcome = outcomeOf (decide (e.status = .succeeded)) ∧
    (e.terminalResult = none ∨ storedResult env e = .ok value)

/-- What `execute` ends with when the execution is terminal from the start. -/
def replay (env : Surroundings) (e : ExternalExecution) :
    Except ExecuteError (Option MeteredResult) :=
  match storedResult env e with
  | .ok value => .ok (some value)
  | .error error => .error (.raised error)

def Returns (env : Surroundings) (slot : Slot) (claim : TaskClaim) (began ledger : Ledger)
    (result : Except ExecuteError (Option MeteredResult)) : Prop :=
  ∀ key, slot = .executor key →
    (∀ e, began claim.idempotencyKey = some e → e.isTerminal = true →
      (∃ error, result = .error (.awaited error)) ∨
        (ledger claim.idempotencyKey = some e ∧ result = replay env e)) ∧
    ∀ value, result = .ok (some value) → Left env (ledger claim.idempotencyKey) value

variable (env : Surroundings) (Good : JsonObject → Prop)

theorem relies_refl (slot : Slot) (ledger : Ledger) : Relies slot ledger ledger := by
  cases slot with
  | executor key => exact .unchanged _
  | worker n => exact fun key => evolves_refl _

theorem relies_trans (slot : Slot) (ledger ledger' ledger'' : Ledger)
    (h : Relies slot ledger ledger') (h' : Relies slot ledger' ledger'') :
    Relies slot ledger ledger'' := by
  cases slot with
  | executor key => exact Interferes.trans h h'
  | worker n => exact fun key => (h key).trans (h' key)

/-- What a slot guarantees is what the others rely on. -/
theorem guarantees_relied (slot : Slot) (ledger ledger' : Ledger) (hs : Sound Good ledger)
    (h : Guarantees Good slot ledger ledger') :
    Sound Good ledger' ∧ ∀ other, other ≠ slot → Relies other ledger ledger' := by
  cases slot with
  | executor key =>
    have hadvances : Advances Good key ledger ledger' := h
    refine ⟨hadvances.sound, fun other hother => ?_⟩
    cases other with
    | executor key' =>
      have hkey : key' ≠ key := fun hsame => hother (by rw [hsame])
      show Interferes (ledger key') (ledger' key')
      rw [hadvances.others key' hkey]
      exact .unchanged _
    | worker n =>
      intro key'
      by_cases hkey : key' = key
      · rw [hkey]
        exact hadvances.evolves
      · rw [hadvances.others key' hkey]
        exact evolves_refl _
  | worker n =>
    have hinterferes : ∀ key, Interferes (ledger key) (ledger' key) := h
    refine ⟨hs.interferes hinterferes, fun other _ => ?_⟩
    cases other with
    | executor key => exact hinterferes key
    | worker m => exact fun key => (hinterferes key).evolves

theorem guarantees_refl (slot : Slot) {ledger : Ledger} (hs : Sound Good ledger) :
    Guarantees Good slot ledger ledger := by
  cases slot with
  | executor key => exact advances_refl hs
  | worker n => exact fun key => .unchanged _

section

variable {env Good} {slot : Slot} {issue : Ledger → Statement → Prop} {ledger : Ledger}
  {E : ExecuteError → Ledger → Prop}

/-- One await of a call in a slot. -/
theorem safe_await {statement : Statement} {P : statement.Answer → Ledger → Prop}
    (h : ∀ ledger', Sound Good ledger' → Relies slot ledger ledger' → issue ledger' statement ∧
      ∀ choice, Answers Good statement choice →
        Guarantees Good slot ledger' (serve statement choice ledger').2 ∧
        (∀ answer, (serve statement choice ledger').1 = .ok answer →
          P answer (serve statement choice ledger').2) ∧
        ∀ error, (serve statement choice ledger').1 = .error error →
          E (.awaited error) (serve statement choice ledger').2) :
    (executors env).Safe (Answers Good) (Sound Good) (Relies slot) (Guarantees Good slot) issue E P
      (await statement) ledger := by
  intro ledger' hs hrely
  have hissue := h ledger' hs hrely
  refine ⟨hissue.1, fun choice hchoice => ?_⟩
  obtain ⟨hguar, hok, herror⟩ := hissue.2 choice hchoice
  refine ⟨hguar, ?_⟩
  show (executors env).Safe _ _ _ _ _ _ _ (Program.bind (Program.done (serve statement choice ledger').1) _)
    (serve statement choice ledger').2
  generalize serve statement choice ledger' = served at hok herror ⊢
  obtain ⟨reply, ledger''⟩ := served
  cases reply with
  | ok answer => exact hok answer rfl
  | error error => exact herror error rfl

theorem safe_get {key : String} {P : Option ExternalExecution → Ledger → Prop}
    (hissue : ∀ ledger', issue ledger' (.get key))
    (hok : ∀ ledger', Relies slot ledger ledger' → P (ledger' key) ledger')
    (herror : ∀ ledger' error, E (.awaited error) ledger') :
    (executors env).Safe (Answers Good) (Sound Good) (Relies slot) (Guarantees Good slot) issue E P
      (await (.get key)) ledger := by
  apply safe_await
  intro ledger' hs hrely
  refine ⟨hissue ledger', fun choice _ => ?_⟩
  cases choice with
  | commits =>
    rw [serve_get_commits]
    refine ⟨guarantees_refl Good slot hs, fun found hfound => ?_, fun error herror => ?_⟩
    · rw [← Except.ok.inj hfound]
      exact hok ledger' hrely
    · cases herror
  | fails error committed =>
    rw [serve_get_fails]
    refine ⟨guarantees_refl Good slot hs, fun found hfound => ?_, fun error' _ => ?_⟩
    · cases hfound
    · exact herror ledger' error'

end

/-! ## 2. Results -/

/-- Two snapshots of a row give the same output. -/
theorem result_congr {e e' : ExternalExecution} (terminal : JsonObject) (succeeded : Bool)
    (hsession : e'.externalSessionKey = e.externalSessionKey)
    (hrun : e'.externalRunId = e.externalRunId) :
    result env e' terminal succeeded = result env e terminal succeeded := by
  simp only [result, artifactOutput, wrappedOutput, hsession, hrun]

theorem result_outcome {e : ExternalExecution} {terminal : JsonObject} {succeeded : Bool}
    {value : MeteredResult} (h : result env e terminal succeeded = .ok value) :
    value.outcome = outcomeOf succeeded ∧ artifactOutput env e terminal = .ok value.output := by
  unfold result at h
  cases houtput : artifactOutput env e terminal with
  | error error =>
    rw [houtput] at h
    cases h
  | ok output =>
    rw [houtput] at h
    rw [← Except.ok.inj h]
    exact ⟨rfl, rfl⟩

theorem left_of_stored {row : Option ExternalExecution} {e : ExternalExecution}
    {value : MeteredResult} (hrow : row = some e) (hterminal : e.isTerminal = true)
    (h : storedResult env e = .ok value) : Left env row value :=
  ⟨e, hrow, hterminal, (result_outcome env h).1, .inr h⟩

theorem left_stable {row row' : Option ExternalExecution} {value : MeteredResult}
    (h : Interferes row row') (hleft : Left env row value) : Left env row' value := by
  obtain ⟨e, rfl, hterminal, hrest⟩ := hleft
  exact ⟨e, h.eq_of_terminal hterminal, hterminal, hrest⟩

/-! ## 3. The phases of `execute` -/

section

variable (claim : TaskClaim)

/-- A part of a call of `execute` whose row was not terminal when the call began. -/
def Phase {α : Type} (P : α → Ledger → Prop) (p : Await α) (ledger : Ledger) : Prop :=
  (executors env).Safe (Answers Good) (Sound Good) (Relies (.executor claim.idempotencyKey))
    (Guarantees Good (.executor claim.idempotencyKey)) (Addressed claim) (fun _ _ => True) P p ledger

variable {env Good claim} {ledger : Ledger}

theorem phase_bind {α β : Type} {P : α → Ledger → Prop} {P' : β → Ledger → Prop} {p : Await α}
    {f : α → Await β} (hp : Phase env Good claim P p ledger)
    (hf : ∀ value ledger, P value ledger → Phase env Good claim P' (f value) ledger) :
    Phase env Good claim P' (p >>= f) ledger :=
  (executors env).safe_bind hp hf

theorem phase_perform {statement : Statement} {P : statement.Reply → Ledger → Prop}
    (h : ∀ ledger', Sound Good ledger' →
      Interferes (ledger claim.idempotencyKey) (ledger' claim.idempotencyKey) →
      Addressed claim ledger' statement ∧
        ∀ choice, Answers Good statement choice →
          Advances Good claim.idempotencyKey ledger' (serve statement choice ledger').2 ∧
            P (serve statement choice ledger').1 (serve statement choice ledger').2) :
    Phase env Good claim P (Program.perform statement) ledger := h

theorem phase_await {statement : Statement} {P : statement.Answer → Ledger → Prop}
    (h : ∀ ledger', Sound Good ledger' →
      Interferes (ledger claim.idempotencyKey) (ledger' claim.idempotencyKey) →
      Addressed claim ledger' statement ∧
        ∀ choice, Answers Good statement choice →
          Advances Good claim.idempotencyKey ledger' (serve statement choice ledger').2 ∧
            ∀ answer, (serve statement choice ledger').1 = .ok answer →
              P answer (serve statement choice ledger').2) :
    Phase env Good claim P (await statement) ledger := by
  apply safe_await
  intro ledger' hs hinterferes
  have hissue := h ledger' hs hinterferes
  refine ⟨hissue.1, fun choice hchoice => ?_⟩
  have hanswer := hissue.2 choice hchoice
  exact ⟨hanswer.1, hanswer.2, fun _ _ => trivial⟩

/-- A transaction whose operation keeps rows well-formed and lets them evolve. -/
theorem advances_answer {operation : Option ExternalExecution → Except Raised ExternalExecution}
    {P : ExternalExecution → Ledger → Prop} (hs : Sound Good ledger) (choice : ServiceChoice)
    (hvalid : ∀ e, operation (ledger claim.idempotencyKey) = .ok e →
      Valid Good claim.idempotencyKey e ∧ Evolves (ledger claim.idempotencyKey) (some e))
    (hP : ∀ e, operation (ledger claim.idempotencyKey) = .ok e →
      P e (Function.update ledger claim.idempotencyKey (some e))) :
    Advances Good claim.idempotencyKey ledger
        (transact claim.idempotencyKey operation choice ledger).2 ∧
      ∀ answer, (transact claim.idempotencyKey operation choice ledger).1 = .ok answer →
        P answer (transact claim.idempotencyKey operation choice ledger).2 := by
  refine ⟨advances_transact hs choice hvalid, fun answer hanswer => ?_⟩
  have hok := transact_ok hanswer
  rw [hok.2]
  exact hP answer hok.1

theorem phase_finish {status : ExternalExecutionStatus} {terminalResult : Option JsonObject}
    {failureReason : Option String} {P : ExternalExecution → Ledger → Prop}
    (hgood : ∀ terminal, terminalResult = some terminal → Good terminal)
    (h : ∀ ledger' e, Interferes (ledger claim.idempotencyKey) (ledger' claim.idempotencyKey) →
      finish claim.idempotencyKey status terminalResult failureReason
        (ledger' claim.idempotencyKey) = .ok e →
      P e (Function.update ledger' claim.idempotencyKey (some e))) :
    Phase env Good claim P
      (await (.finish claim.idempotencyKey status terminalResult failureReason)) ledger := by
  apply phase_await
  intro ledger' hs hinterferes
  refine ⟨trivial, fun choice _ => ?_⟩
  exact advances_answer hs choice (fun e he => finish_row (hs _) hgood he)
    fun e he => h ledger' e hinterferes he

/-- The handler raises whatever the transaction does. -/
theorem phase_startFailed (error : ExecuteError) {P : ExternalExecution → Ledger → Prop} :
    Phase env Good claim P (startFailed claim error) ledger := by
  have hfinish : Phase env Good claim (fun _ _ => True) (await (.finish claim.idempotencyKey .failed
      none (some ("OpenClaw run start failed before acceptance (" ++ error.typeName ++ ")"))))
      ledger := phase_finish nofun fun _ _ _ _ => trivial
  exact phase_bind hfinish fun _ _ _ => trivial

/-- A row that is active, as the call knows it. -/
structure Running (e : ExternalExecution) (row : Option ExternalExecution) : Prop where
  row : row = some e
  «open» : e.isTerminal = false
  run : ∃ runId, e.externalRunId = some runId

theorem phase_accept {e : ExternalExecution} (runId : String)
    (hrow : ledger claim.idempotencyKey = some e) (hrun : e.externalRunId = none) :
    Phase env Good claim (fun e ledger => Running e (ledger claim.idempotencyKey))
      (await (.accept claim.idempotencyKey runId)) ledger := by
  apply phase_await
  intro ledger' hs hinterferes
  rw [hrow] at hinterferes
  have hsame : ledger' claim.idempotencyKey = some e := hinterferes.eq_of_idle hrun
  refine ⟨trivial, fun choice _ =>
    advances_answer (P := fun e ledger => Running e (ledger claim.idempotencyKey)) hs choice
      (fun e' he' => accept_row (hs _) he') fun e' he' => ?_⟩
  obtain ⟨e₀, he₀, hcase⟩ := accept_eq_ok he'
  obtain rfl : e = e₀ := Option.some.inj (hsame.symm.trans he₀)
  rw [Function.update_self]
  rcases hcase with hsame' | hnew
  · rw [hrun] at hsame'
    cases hsame'.1
  · refine ⟨rfl, ?_, ?_⟩
    · rw [hnew.2.2]
      rfl
    · rw [hnew.2.2]
      exact ⟨_, rfl⟩

/-- `ensureStarted` calls the bridge while the row is starting, and leaves it active. -/
theorem phase_ensureStarted {e : ExternalExecution} (hrow : ledger claim.idempotencyKey = some e)
    (hopen : e.isTerminal = false) :
    Phase env Good claim (fun e ledger => Running e (ledger claim.idempotencyKey))
      (ensureStarted env claim e) ledger := by
  unfold ensureStarted
  cases hrun : e.externalRunId with
  | some runId => exact ⟨hrow, hopen, runId, hrun⟩
  | none =>
    have hstart : Phase env Good claim (fun _ ledger => ledger claim.idempotencyKey = some e)
        (Program.perform (.start (startRequest env claim e))) ledger := by
      apply phase_perform
      intro ledger' hs hinterferes
      rw [hrow] at hinterferes
      have hsame : ledger' claim.idempotencyKey = some e := hinterferes.eq_of_idle hrun
      have hstarting : e.status = .starting := (hs _ e hsame).isStarting hopen hrun
      refine ⟨⟨rfl, e, hsame, hstarting, hrun, rfl⟩, fun reply _ => ?_⟩
      exact ⟨advances_refl hs, hsame⟩
    apply phase_bind hstart
    intro reply ledger' hrow'
    cases reply with
    | error error =>
      by_cases hcaught : error.isException = true
      · simp only [hcaught, if_true]
        exact phase_startFailed _
      · simp only [hcaught]
        exact trivial
    | ok accepted =>
      cases hrunId : acceptedRunId accepted with
      | none =>
        simp only [hrunId]
        exact phase_startFailed _
      | some runId =>
        simp only [hrunId]
        exact phase_accept runId hrow' hrun

/-- What the row is once a running execution is finished with the answer of `wait`. -/
theorem left_of_finished {e e' : ExternalExecution} {status : ExternalExecutionStatus}
    {terminal : JsonObject} {reason : Option String} {row : Option ExternalExecution}
    {value : MeteredResult} (hinterferes : Interferes (some e) row)
    (hopen : e.isTerminal = false)
    (hfinish : finish claim.idempotencyKey status (some terminal) reason row
      = .ok e')
    (hvalue : result env e terminal (decide (status = .succeeded)) = .ok value) :
    Left env (some e') value := by
  obtain ⟨e₀, rfl, hterminal, hsame | hnew⟩ := finish_eq_ok hfinish
  · -- `cancel` was first, and `wait` answered the same status
    obtain ⟨hended, hstatus, rfl⟩ := hsame
    cases hinterferes with
    | unchanged =>
      rw [hopen] at hended
      cases hended
    | cancelled reason' _ _ =>
      refine ⟨_, rfl, rfl, ?_, .inl rfl⟩
      rw [(result_outcome env hvalue).1, ← hstatus]
  · obtain ⟨hopen', rfl⟩ := hnew
    cases hinterferes with
    | unchanged =>
      refine ⟨_, rfl, hterminal, (result_outcome env hvalue).1, .inr ?_⟩
      show result env _ terminal (decide (status = .succeeded)) = .ok value
      rw [← hvalue]
      exact result_congr env terminal _ rfl rfl
    | cancelled _ _ _ => cases hopen'

/-- `conclude` waits on and cancels the run of the row, and returns what it records. -/
theorem phase_conclude {e : ExternalExecution} {runId : String}
    (hrunning : Running e (ledger claim.idempotencyKey)) (hrun : e.externalRunId = some runId) :
    Phase env Good claim (fun value ledger => Left env (ledger claim.idempotencyKey) value)
      (conclude env claim e runId) ledger := by
  -- all along, the row is the snapshot or the snapshot as `cancel` leaves it
  have haddressed : ∀ ledger' : Ledger, Interferes (some e) (ledger' claim.idempotencyKey) →
      ∃ e', ledger' claim.idempotencyKey = some e' ∧ e'.externalRunId = some runId := by
    intro ledger' hinterferes
    obtain ⟨e', he', hcontinues⟩ := hinterferes.evolves e rfl
    exact ⟨e', he', hcontinues.run runId hrun⟩
  have hwait : Phase env Good claim
      (fun terminal ledger => Good terminal ∧ Interferes (some e) (ledger claim.idempotencyKey))
      (await (.wait runId (claim.timeoutSeconds * 1000))) ledger := by
    apply phase_await
    intro ledger' hs hinterferes
    rw [hrunning.row] at hinterferes
    refine ⟨haddressed ledger' hinterferes, fun reply hreply => ⟨advances_refl hs, ?_⟩⟩
    intro terminal hterminal
    exact ⟨hreply terminal hterminal, hinterferes⟩
  apply phase_bind hwait
  intro terminal ledger₁ hterminal
  by_cases htimeout : statusWord terminal = some "timeout"
  · simp only [htimeout, if_true]
    have hcancel : Phase env Good claim (fun _ _ => True) (await (.cancel runId)) ledger₁ := by
      apply phase_await
      intro ledger' hs hinterferes
      refine ⟨haddressed ledger' (hterminal.2.trans hinterferes), fun reply _ => ?_⟩
      exact ⟨advances_refl hs, fun _ _ => trivial⟩
    apply phase_bind hcancel
    intro _ ledger₂ _
    have hgood : ∀ t, some terminal = some t → Good t := by
      intro t ht
      rw [← Option.some.inj ht]
      exact hterminal.1
    exact phase_bind (P := fun _ _ => True) (phase_finish hgood fun _ _ _ _ => trivial)
      fun _ _ _ => trivial
  · simp only [htimeout, if_false]
    have hgood : ∀ t, some terminal = some t → Good t := by
      intro t ht
      rw [← Option.some.inj ht]
      exact hterminal.1
    apply phase_bind (P := fun _ ledger => ∀ value,
      result env e terminal (decide (externalStatus (statusWord terminal) = .succeeded)) = .ok value →
        Left env (ledger claim.idempotencyKey) value)
    · apply phase_finish hgood
      intro ledger' e' hinterferes hfinish value hvalue
      rw [Function.update_self]
      exact left_of_finished (hterminal.2.trans hinterferes) hrunning.open hfinish hvalue
    · intro _ ledger₂ hleft
      cases hvalue : result env e terminal
          (decide (externalStatus (statusWord terminal) = .succeeded)) with
      | error error => exact trivial
      | ok value => exact hleft value hvalue

/-- Nobody touches a row that is not there or has no run. -/
theorem phase_prepareWorkspace {found : Option ExternalExecution}
    (hrow : ledger claim.idempotencyKey = found)
    (hidle : ∀ e, found = some e → e.externalRunId = none) :
    Phase env Good claim (fun _ ledger => ledger claim.idempotencyKey = found)
      (await (.prepareWorkspace claim)) ledger := by
  apply phase_await
  intro ledger' hs hinterferes
  refine ⟨trivial, fun reply _ => ⟨advances_refl hs, fun _ _ => ?_⟩⟩
  rw [hrow] at hinterferes
  cases found with
  | none => exact hinterferes.eq_none
  | some e => exact hinterferes.eq_of_idle (hidle e rfl)

theorem phase_prepare (sessionKey : String) (agentId : Option String)
    (assignment : WorkspaceAssignment) :
    Phase env Good claim (fun e ledger => ledger claim.idempotencyKey = some e)
      (await (.prepare claim sessionKey agentId assignment)) ledger := by
  apply phase_await
  intro ledger' hs hinterferes
  refine ⟨trivial, fun choice _ =>
    advances_answer (P := fun e ledger => ledger claim.idempotencyKey = some e) hs choice
      (fun e he => prepare_row (hs _) he) fun e _ => ?_⟩
  exact Function.update_self _ _ _

theorem phase_assign {found : Option ExternalExecution} (hrow : ledger claim.idempotencyKey = found) :
    Phase env Good claim (fun _ ledger => ledger claim.idempotencyKey = found) (assign claim found)
      ledger := by
  unfold assign
  split
  next hidle =>
    apply phase_prepareWorkspace hrow
    intro e he
    rw [he] at hidle
    have hboth : e.isTerminal = false ∧ e.externalRunId = none := by simpa using hidle
    exact hboth.2
  next => exact hrow

theorem phase_proceed {e : ExternalExecution} (hrow : ledger claim.idempotencyKey = some e) :
    Phase env Good claim (fun value ledger => Left env (ledger claim.idempotencyKey) value)
      (proceed env claim e) ledger := by
  unfold proceed
  by_cases hterminal : e.isTerminal = true
  · rw [if_pos hterminal]
    cases hvalue : storedResult env e with
    | error error => exact trivial
    | ok value => exact left_of_stored env hrow hterminal hvalue
  · rw [if_neg hterminal]
    apply phase_bind (phase_ensureStarted hrow (by simpa using hterminal))
    intro e' ledger' hrunning
    cases hrun : e'.externalRunId with
    | none =>
      exact trivial
    | some runId =>
      exact phase_conclude hrunning hrun

/-- The row that `execute` found, or else creates, is the row of the ledger. -/
theorem phase_execute :
    Phase env Good claim (fun value ledger => Left env (ledger claim.idempotencyKey) value)
      (execute env claim) ledger := by
  have hget : Phase env Good claim (fun found ledger => ledger claim.idempotencyKey = found)
      (await (.get claim.idempotencyKey)) ledger :=
    safe_get (fun _ => trivial) (fun _ _ => rfl) fun _ _ => trivial
  apply phase_bind hget
  intro found ledger₁ hfound
  apply phase_bind (phase_assign hfound)
  intro assignment ledger₂ hrow
  cases found with
  | none => exact phase_bind (phase_prepare _ _ assignment) fun e ledger₃ he => phase_proceed he
  | some e => exact phase_proceed hrow

/-- A call that finds its execution terminal asks nothing else. -/
theorem executeFound_ended {e : ExternalExecution} (hterminal : e.isTerminal = true) :
    executeFound env claim (some e) = compute (storedResult env e) := by
  have hassign : assign claim (some e) = .done {} := by
    unfold assign
    rw [if_neg (by simp [hterminal])]
  have hproceed : proceed env claim e = compute (storedResult env e) := by
    unfold proceed
    rw [if_pos hterminal]
  unfold executeFound
  rw [hassign]
  exact hproceed

end

/-! ## 4. Calls -/

section

variable {env Good} {claim : TaskClaim} {began : Ledger}

/-- A call whose row was not terminal may raise anything, one whose row was raises what it awaits. -/
theorem returns_error {key : String} {ledger : Ledger} {error : ExecuteError}
    (h : Ended claim began → ∃ error', error = .awaited error') :
    Returns env (.executor key) claim began ledger (.error error) := by
  intro _ _
  refine ⟨fun e he hterminal => ?_, fun value hvalue => ?_⟩
  · obtain ⟨error', rfl⟩ := h ⟨e, he, hterminal⟩
    exact .inl ⟨error', rfl⟩
  · cases hvalue

/-- A call that began with a terminal row. -/
theorem execute_goes_ended (hended : Ended claim began) :
    (executors env).Goes (Answers Good) (Sound Good) Relies (Guarantees Good) Issues (Returns env)
      (.executor claim.idempotencyKey) claim began
      (execute env claim >>= fun value => .done (some value)) began := by
  obtain ⟨e, hbegan, hterminal⟩ := hended
  have hstays : ∀ ledger ledger' : Ledger, Relies (.executor claim.idempotencyKey) ledger ledger' →
      ledger claim.idempotencyKey = some e → ledger' claim.idempotencyKey = some e := by
    intro ledger ledger' hrely hrow
    have hinterferes : Interferes (ledger claim.idempotencyKey) (ledger' claim.idempotencyKey) := hrely
    rw [hrow] at hinterferes
    exact hinterferes.eq_of_terminal hterminal
  apply (executors env).safe_bind
    (P := fun value ledger => ledger claim.idempotencyKey = some e ∧ storedResult env e = .ok value)
  · apply (executors env).safe_bind
      (P := fun found ledger => found = some e ∧ ledger claim.idempotencyKey = some e)
    · apply safe_get
      · exact fun _ => ⟨trivial, fun _ _ _ => rfl⟩
      · exact fun ledger' hrely => ⟨hstays began ledger' hrely hbegan, hstays began ledger' hrely hbegan⟩
      · intro ledger' error ledger'' _ _
        exact returns_error fun _ => ⟨error, rfl⟩
    · intro found ledger hfound
      rw [hfound.1, executeFound_ended hterminal]
      cases hvalue : storedResult env e with
      | ok value => exact ⟨hfound.2, rfl⟩
      | error error =>
        intro ledger' _ hrely key _
        refine ⟨fun e' he' _ => .inr ⟨?_, ?_⟩, nofun⟩
        · rw [← he', hbegan]
          exact hstays ledger ledger' hrely hfound.2
        · obtain rfl : e = e' := Option.some.inj (hbegan.symm.trans he')
          simp only [replay, hvalue]
  · intro value ledger hvalue ledger' _ hrely key _
    have hrow : ledger' claim.idempotencyKey = some e := hstays ledger ledger' hrely hvalue.1
    refine ⟨fun e' he' _ => .inr ⟨?_, ?_⟩, fun value' hvalue' => ?_⟩
    · rw [← he', hbegan]
      exact hrow
    · obtain rfl : e = e' := Option.some.inj (hbegan.symm.trans he')
      simp only [replay, hvalue.2]
    · obtain rfl : value = value' := Option.some.inj (Except.ok.inj hvalue')
      exact left_of_stored env hrow hterminal hvalue.2

theorem execute_goes :
    (executors env).Goes (Answers Good) (Sound Good) Relies (Guarantees Good) Issues (Returns env)
      (.executor claim.idempotencyKey) claim began
      (execute env claim >>= fun value => .done (some value)) began := by
  by_cases hended : Ended claim began
  · exact execute_goes_ended hended
  apply (executors env).safe_bind (P := fun value ledger => Left env (ledger claim.idempotencyKey) value)
  · refine (executors env).safe_mono ?_ ?_ (fun _ _ h => h) phase_execute
    · exact fun ledger statement haddressed => ⟨haddressed, fun _ _ h => absurd h hended⟩
    · intro error ledger _ ledger' _ _
      exact returns_error fun h => absurd h hended
  · intro value ledger hleft ledger' _ hrely key _
    refine ⟨fun e he hterminal => absurd ⟨e, he, hterminal⟩ hended, fun value' hvalue' => ?_⟩
    obtain rfl : value = value' := Option.some.inj (Except.ok.inj hvalue')
    have hrow : Interferes (ledger claim.idempotencyKey) (ledger' claim.idempotencyKey) := hrely
    exact left_stable env hrow hleft

/-- `cancel` finishes the run that it has cancelled, or leaves the row as it is. -/
theorem cancelRun_safe {n : ℕ} {ledger : Ledger} {e : ExternalExecution} {runId : String}
    (hrow : ledger claim.idempotencyKey = some e) (hrun : e.externalRunId = some runId) :
    (executors env).Safe (Answers Good) (Sound Good) (Relies (.worker n))
      (Guarantees Good (.worker n)) (Issues (.worker n) claim began) (fun _ _ => True)
      (fun _ _ => True) (cancelRun claim runId) ledger := by
  have hkept : ∀ ledger', Relies (.worker n) ledger ledger' →
      ∃ e', ledger' claim.idempotencyKey = some e' ∧ e'.externalRunId = some runId := by
    intro ledger' hrely
    obtain ⟨e', he', hcontinues⟩ := hrely claim.idempotencyKey e hrow
    exact ⟨e', he', hcontinues.run runId hrun⟩
  apply (executors env).safe_bind (P := fun _ ledger =>
    ∃ e', ledger claim.idempotencyKey = some e' ∧ e'.externalRunId = some runId)
  · apply safe_await
    intro ledger' hs hrely
    refine ⟨⟨hkept ledger' hrely, nofun⟩, fun reply _ => ?_⟩
    exact ⟨guarantees_refl Good _ hs, fun _ _ => hkept ledger' hrely, fun _ _ => trivial⟩
  · intro _ ledger₁ hledger₁ ledger₂ hs hrely
    obtain ⟨e₁, he₁, hrun₁⟩ := hledger₁
    obtain ⟨e₂, he₂, hcontinues⟩ := hrely claim.idempotencyKey e₁ he₁
    have hrun₂ : e₂.externalRunId = some runId := hcontinues.run runId hrun₁
    refine ⟨⟨trivial, nofun⟩, fun choice _ => ⟨?_, ?_⟩⟩
    · intro key
      rcases transact_cases claim.idempotencyKey (finish claim.idempotencyKey .cancelled none
          (some "OpenClaw execution cancelled by worker")) choice ledger₂ with hsame | ⟨e₃, he₃, hupdate⟩
      · show Interferes _ ((transact _ _ choice ledger₂).2 key)
        rw [hsame]
        exact .unchanged _
      · show Interferes _ ((transact _ _ choice ledger₂).2 key)
        rw [hupdate]
        by_cases hkey : key = claim.idempotencyKey
        · subst hkey
          rw [Function.update_self]
          exact interferes_finish he₂ hrun₂ he₃
        · rw [Function.update_of_ne hkey]
          exact .unchanged _
    · generalize (executors env).serve _ choice ledger₂ = served
      obtain ⟨reply, ledger₃⟩ := served
      cases reply with
      | ok e₃ => exact trivial
      | error error => cases error <;> exact trivial

theorem cancel_goes (n : ℕ) :
    (executors env).Goes (Answers Good) (Sound Good) Relies (Guarantees Good) Issues (Returns env)
      (.worker n) claim began (cancel claim >>= fun _ => .done none) began := by
  apply (executors env).safe_bind (P := fun _ _ => True)
  · refine (executors env).safe_mono (fun _ _ h => h) (E := fun _ _ => True) ?_ (fun _ _ h => h) ?_
    · exact fun error ledger _ ledger' _ _ => nofun
    · apply (executors env).safe_bind (P := fun found ledger => ledger claim.idempotencyKey = found)
      · exact safe_get (fun _ => ⟨trivial, nofun⟩) (fun _ _ => rfl) fun _ _ => trivial
      · intro found ledger hfound
        cases found with
        | none => exact trivial
        | some e =>
          by_cases hterminal : e.isTerminal = true
          · simp only [hterminal, if_true]
            exact trivial
          · simp only [hterminal]
            cases hrun : e.externalRunId with
            | none => exact trivial
            | some runId => exact cancelRun_safe hfound hrun
  · exact fun _ ledger _ ledger' _ _ => nofun

/-- Every call of every slot is safe. -/
theorem goes (slot : Slot) (claim : TaskClaim) (began : Ledger) (_ : Sound Good began)
    (hadmits : (executors env).admits slot claim = true) :
    (executors env).Goes (Answers Good) (Sound Good) Relies (Guarantees Good) Issues (Returns env)
      slot claim began ((executors env).program slot claim) began := by
  cases slot with
  | executor key =>
    obtain rfl : claim.idempotencyKey = key := of_decide_eq_true hadmits
    exact execute_goes
  | worker n => exact cancel_goes n

end

end JbOrchestrator.ExternalExecutions
