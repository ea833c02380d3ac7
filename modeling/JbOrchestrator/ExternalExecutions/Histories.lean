import JbOrchestrator.ExternalExecutions.Safety

/-!
# Histories — what holds of the ledger in every run

A run starts from an empty ledger and takes the calls of `execute` and `cancel` in any order, with any
answers and interrupted anywhere.  The last part looks at what a call returns whose execution was
terminal before it began: `_artifact_output` goes through `json.loads` once more, and catches one of
the exceptions that it raises.
-/

open Lib

namespace JbOrchestrator.ExternalExecutions

open Workflows Application

/-! ## 1. Safety of a run -/

abbrev Step (env : Surroundings) := (executors env).Step

abbrev Input (env : Surroundings) := (executors env).Input

def start (env : Surroundings) : (executors env).Config := (executors env).initial fun _ => none

/-- The steps of a run. -/
def history (env : Surroundings) (inputs : List (Input env)) : List (Step env) :=
  (executors env).machine.trace (start env) inputs

/-- The run id that the ledger holds for a key. -/
def Ledger.runId (ledger : Ledger) (key : String) : Option String :=
  (ledger key).bind ExternalExecution.externalRunId

/-- The step writes the run id of a key. -/
def writesRun {env : Surroundings} (key : String) (t : Step env) : Bool :=
  decide (t.before.shared.runId key ≠ t.after.shared.runId key)

/-- The outcome and the output that a terminal row records. -/
structure Recorded (env : Surroundings) (e : ExternalExecution) (value : MeteredResult) : Prop where
  outcome : value.outcome = if e.status = .succeeded then .success else .failure
  output : artifactOutput env e (e.terminalResult.getD []) = .ok value.output

/-- The safety of the ledger, for the calls that share a key. -/
structure LedgerSafe (env : Surroundings) (key : String) (steps : List (Step env)) : Prop where
  /-- `bridge.start` is called while the row is starting without a run, -/
  start_starting : ∀ t ∈ steps, ∀ slot claim began request,
    t.output = .issued slot claim began (.start request) → claim.idempotencyKey = key →
    ∃ e, t.before.shared key = some e ∧ e.status = .starting ∧ e.externalRunId = none
  /-- and always with the same keys. -/
  start_same : ∀ t ∈ steps, ∀ u ∈ steps, ∀ slot claim began request slot' claim' began' request',
    t.output = .issued slot claim began (.start request) → claim.idempotencyKey = key →
    u.output = .issued slot' claim' began' (.start request') → claim'.idempotencyKey = key →
    request.idempotencyKey = key ∧ request'.sessionKey = request.sessionKey
  run_once : steps.countP (writesRun key) ≤ 1
  run_kept : ∀ t ∈ steps, ∀ runId, t.before.shared.runId key = some runId →
    t.after.shared.runId key = some runId
  run_used : ∀ t ∈ steps, ∀ slot claim began statement runId,
    t.output = .issued slot claim began statement → claim.idempotencyKey = key →
    statement = .cancel runId ∨ (∃ timeoutMs, statement = .wait runId timeoutMs) →
    t.before.shared.runId key = some runId
  terminal_kept : ∀ t ∈ steps, ∀ e, t.before.shared key = some e → e.isTerminal = true →
    t.after.shared key = some e
  /-- A call of `execute` that began with a terminal row leaves the bridge alone, -/
  terminal_silent : ∀ t ∈ steps, ∀ slotKey claim began statement e,
    t.output = .issued (.executor slotKey) claim began statement → claim.idempotencyKey = key →
    began key = some e → e.isTerminal = true → statement.isBridge = false
  /-- and returns what the row records, unless an exception interrupts it. -/
  terminal_replayed : ∀ t ∈ steps, ∀ slotKey claim began result e,
    t.output = .returned (.executor slotKey) claim began result → claim.idempotencyKey = key →
    began key = some e → e.isTerminal = true →
    (∃ error, result = .error (.awaited error)) ∨
      ∃ value, result = .ok (some value) ∧ Recorded env e value
  /-- What any call of `execute` returns is what the row records.  Its output may differ where `cancel`
  finished the row without a terminal result. -/
  returned_recorded : ∀ t ∈ steps, ∀ slotKey claim began value,
    t.output = .returned (.executor slotKey) claim began (.ok (some value)) →
    claim.idempotencyKey = key →
    ∃ e, t.before.shared key = some e ∧ e.isTerminal = true ∧
      value.outcome = (if e.status = .succeeded then .success else .failure) ∧
      (e.terminalResult = none ∨ Recorded env e value)

section

variable {env : Surroundings} {Good : JsonObject → Prop} {key : String} {inputs : List (Input env)}
  {t : Step env}

/-- Every run whose waits are answered with good terminal results. -/
theorem history_spec (Good : JsonObject → Prop)
    (hlawful : ∀ t ∈ history env inputs, (executors env).Lawful (Answers Good) t) :
    ∀ t ∈ history env inputs, Sound Good t.before.shared ∧
      (executors env).Meets (Guarantees Good) Issues (Returns env) t :=
  Coroutines.trace_spec relies_refl relies_trans (guarantees_relied Good) goes
    (Coroutines.coherent_initial sound_empty) hlawful

/-- All answers, without a condition. -/
theorem history_meets (ht : t ∈ history env inputs) :
    (executors env).Meets (Guarantees fun _ => True) Issues (Returns env) t := by
  refine (history_spec (fun _ => True) (fun t _ => ?_) t ht).2
  intro slot choice task statement next _ _ _ _
  cases statement <;> first | exact trivial | exact fun _ _ => trivial

theorem guarantees_evolves {slot : Slot} {ledger ledger' : Ledger}
    (h : Guarantees Good slot ledger ledger') (key : String) :
    Evolves (ledger key) (ledger' key) := by
  cases slot with
  | executor slotKey =>
    have hadvances : Advances Good slotKey ledger ledger' := h
    by_cases hkey : key = slotKey
    · rw [hkey]
      exact hadvances.evolves
    · rw [hadvances.others key hkey]
      exact evolves_refl _
  | worker n => exact (h key).evolves

theorem history_evolves (ht : t ∈ history env inputs) (key : String) :
    Evolves (t.before.shared key) (t.after.shared key) := by
  have hmeets := history_meets ht
  unfold Coroutines.Meets at hmeets
  split at hmeets
  · rw [hmeets.2]
    exact evolves_refl _
  · exact guarantees_evolves hmeets key
  · rw [hmeets.2]
    exact evolves_refl _
  · rw [hmeets]
    exact evolves_refl _

theorem history_issued (ht : t ∈ history env inputs) {slot : Slot} {claim : TaskClaim}
    {began : Ledger} {statement : Statement} (h : t.output = .issued slot claim began statement) :
    Issues slot claim began t.before.shared statement := by
  have hmeets := history_meets ht
  unfold Coroutines.Meets at hmeets
  rw [h] at hmeets
  exact hmeets.1

theorem history_returned (ht : t ∈ history env inputs) {slot : Slot} {claim : TaskClaim}
    {began : Ledger} {result : Except ExecuteError (Option MeteredResult)}
    (h : t.output = .returned slot claim began result) :
    Returns env slot claim began t.before.shared result := by
  have hmeets := history_meets ht
  unfold Coroutines.Meets at hmeets
  rw [h] at hmeets
  exact hmeets.1

/-- What a row is at a step, the row at the end of the run continues. -/
theorem history_continues (ht : t ∈ history env inputs) (key : String) :
    Evolves (t.before.shared key) (((executors env).machine.run (start env) inputs).shared key) := by
  have hafter := (executors env).machine.trace_kept
    (Q := fun c => Evolves (t.after.shared key) (c.shared key)) ht (evolves_refl _)
    fun u hu h => h.trans (history_evolves hu key)
  exact (history_evolves ht key).trans hafter

theorem evolves_runId {ledger ledger' : Ledger} (h : Evolves (ledger key) (ledger' key))
    {runId : String} (hrun : ledger.runId key = some runId) : ledger'.runId key = some runId := by
  obtain ⟨e, he, hrun⟩ := Option.bind_eq_some_iff.mp hrun
  obtain ⟨e', he', hcontinues⟩ := h e he
  exact Option.bind_eq_some_iff.mpr ⟨e', he', hcontinues.run runId hrun⟩

/-- A run id is written where there was none, and no step takes it away. -/
theorem countP_writesRun_le (key : String) {c : (executors env).Config} {inputs : List (Input env)}
    (hevolves : ∀ t ∈ (executors env).machine.trace c inputs,
      Evolves (t.before.shared key) (t.after.shared key)) :
    ((executors env).machine.trace c inputs).countP (writesRun key) ≤
      if c.shared.runId key = none then 1 else 0 := by
  induction inputs generalizing c with
  | nil => simp
  | cons i inputs ih =>
    rw [Machine.trace_cons, List.forall_mem_cons] at hevolves
    have hrest := ih hevolves.2
    have hstep : Evolves (c.shared key) (((executors env).machine.step c i).2.shared key) := hevolves.1
    rw [Machine.trace_cons, List.countP_cons]
    cases hbefore : c.shared.runId key with
    | some runId =>
      have hafter := evolves_runId hstep hbefore
      have hsame : writesRun key ((executors env).machine.fire c i) = false := by
        unfold writesRun
        rw [Machine.fire_before, Machine.fire_after, hbefore, hafter]
        simp
      rw [hafter] at hrest
      rw [hsame]
      simpa using hrest
    | none =>
      cases hafter : ((executors env).machine.step c i).2.shared.runId key with
      | none =>
        have hsame : writesRun key ((executors env).machine.fire c i) = false := by
          unfold writesRun
          rw [Machine.fire_before, Machine.fire_after, hbefore, hafter]
          simp
        rw [hafter] at hrest
        rw [hsame]
        simpa using hrest
      | some runId =>
        rw [hafter] at hrest
        have hzero : ((executors env).machine.trace ((executors env).machine.step c i).2 inputs).countP
            (writesRun key) = 0 := by simpa using hrest
        rw [hzero]
        split <;> simp

theorem recorded_of_stored {e : ExternalExecution} {value : MeteredResult}
    (h : storedResult env e = .ok value) : Recorded env e value := by
  obtain ⟨houtcome, houtput⟩ := result_outcome env h
  refine ⟨?_, houtput⟩
  rw [houtcome]
  by_cases hstatus : e.status = .succeeded
  · simp [outcomeOf, hstatus]
  · simp [outcomeOf, hstatus]

end

/-! ## 2. What a terminal row replays -/

/-- `json.loads` raises nothing but a `JSONDecodeError` on the output text of a terminal result. -/
def Readable (env : Surroundings) (terminal : JsonObject) : Prop :=
  ∀ text error, Json.lookup terminal "output" = some (.scalar (.str text)) →
    env.loads text ≠ .error (.otherwise error)

/-- Every call of `execute` that began with a terminal row and was not interrupted by an exception began
with a readable one. -/
def Replayable (env : Surroundings) (key : String) (steps : List (Step env)) : Prop :=
  ∀ t ∈ steps, ∀ slotKey claim began result e,
    t.output = .returned (.executor slotKey) claim began result → claim.idempotencyKey = key →
    began key = some e → e.isTerminal = true → (∀ error, result ≠ .error (.awaited error)) →
    Readable env (e.terminalResult.getD [])

section

variable {env : Surroundings} {key : String} {inputs : List (Input env)}

theorem artifactOutput_readable {e : ExternalExecution} {terminal : JsonObject} :
    (∃ output, artifactOutput env e terminal = .ok output) ↔ Readable env terminal := by
  unfold Readable artifactOutput
  constructor
  · rintro ⟨output, h⟩ text error htext hloads
    rw [htext] at h
    simp only [hloads] at h
    cases h
  · intro hreadable
    split
    · exact ⟨_, rfl⟩
    · next text htext =>
      split
      · exact ⟨_, rfl⟩
      · exact ⟨_, rfl⟩
      · exact ⟨_, rfl⟩
      · next error hloads => exact absurd hloads (hreadable text error htext)
    · exact ⟨_, rfl⟩

/-- A readable row is replayed. -/
theorem replay_readable {e : ExternalExecution} (h : Readable env (e.terminalResult.getD [])) :
    ∃ value, replay env e = .ok (some value) ∧ Recorded env e value := by
  obtain ⟨output, houtput⟩ := (artifactOutput_readable (e := e)).mpr h
  cases hvalue : storedResult env e with
  | error error =>
    simp only [storedResult, result, houtput] at hvalue
    cases hvalue
  | ok value =>
    refine ⟨value, ?_, recorded_of_stored hvalue⟩
    simp only [replay, hvalue]

/-- An unreadable row is not. -/
theorem replay_unreadable {e : ExternalExecution} {text : String} {error : Raised}
    (htext : Json.lookup (e.terminalResult.getD []) "output" = some (.scalar (.str text)))
    (hloads : env.loads text = .error (.otherwise error)) : replay env e = .error (.raised error) := by
  have houtput : artifactOutput env e (e.terminalResult.getD []) = .error error := by
    unfold artifactOutput
    rw [htext]
    simp only [hloads]
  have hstored : storedResult env e = .error error := by
    unfold storedResult result
    rw [houtput]
  unfold replay
  rw [hstored]

/-- The ledger is safe in a run exactly when its replays can read what they find. -/
theorem ledger_safe_iff (env : Surroundings) (key : String) (inputs : List (Input env)) :
    LedgerSafe env key (history env inputs) ↔ Replayable env key (history env inputs) := by
  constructor
  · intro hsafe t ht slotKey claim began result e houtput hkey hbegan hterminal hawaited
    rcases hsafe.terminal_replayed t ht slotKey claim began result e houtput hkey hbegan hterminal with
      ⟨error, herror⟩ | ⟨value, _, hrecorded⟩
    · exact absurd herror (hawaited error)
    · exact artifactOutput_readable.mp ⟨_, hrecorded.output⟩
  · intro hreplayable
    refine ⟨?_, ?_, ?_, ?_, ?_, ?_, ?_, ?_, ?_⟩
    · rintro t ht slot claim began request houtput rfl
      obtain ⟨_, e, he, hstarting, hrun, _⟩ := (history_issued ht houtput).1
      exact ⟨e, he, hstarting, hrun⟩
    · rintro t ht u hu slot claim began request slot' claim' began' request' houtput rfl houtput' hkey'
      obtain ⟨hkey, e, he, _, _, hsession⟩ := (history_issued ht houtput).1
      obtain ⟨_, e', he', _, _, hsession'⟩ := (history_issued hu houtput').1
      rw [hkey'] at he'
      -- both rows continue as the row at the end of the run
      obtain ⟨f, hf, hcontinues⟩ := history_continues ht _ e he
      obtain ⟨f', hf', hcontinues'⟩ := history_continues hu _ e' he'
      obtain rfl : f = f' := Option.some.inj (hf.symm.trans hf')
      refine ⟨hkey, ?_⟩
      rw [hsession, hsession', ← hcontinues.session, ← hcontinues'.session]
    · have hcount : (history env inputs).countP (writesRun key) ≤
          if (start env).shared.runId key = none then 1 else 0 :=
        countP_writesRun_le key fun t ht => history_evolves ht key
      exact hcount
    · intro t ht runId hrun
      exact evolves_runId (history_evolves ht key) hrun
    · rintro t ht slot claim began statement runId houtput rfl hstatement
      have haddressed := (history_issued ht houtput).1
      rcases hstatement with rfl | ⟨timeoutMs, rfl⟩
      · obtain ⟨e, he, hrun⟩ := haddressed
        exact Option.bind_eq_some_iff.mpr ⟨e, he, hrun⟩
      · obtain ⟨e, he, hrun⟩ := haddressed
        exact Option.bind_eq_some_iff.mpr ⟨e, he, hrun⟩
    · intro t ht e he hterminal
      obtain ⟨e', he', hcontinues⟩ := history_evolves ht key e he
      rw [he', hcontinues.terminal hterminal]
    · rintro t ht slotKey claim began statement e houtput rfl hbegan hterminal
      exact (history_issued ht houtput).2 slotKey rfl ⟨e, hbegan, hterminal⟩
    · rintro t ht slotKey claim began result e houtput rfl hbegan hterminal
      rcases ((history_returned ht houtput) slotKey rfl).1 e hbegan hterminal with hawaited | hreplay
      · exact .inl hawaited
      by_cases hinterrupted : ∃ error, result = .error (.awaited error)
      · exact .inl hinterrupted
      right
      obtain ⟨value, hvalue, hrecorded⟩ := replay_readable (hreplayable t ht slotKey claim began result e
        houtput rfl hbegan hterminal fun error herror => hinterrupted ⟨error, herror⟩)
      exact ⟨value, hreplay.2.trans hvalue, hrecorded⟩
    · rintro t ht slotKey claim began value houtput rfl
      obtain ⟨e, he, hterminal, houtcome, hrest⟩ :=
        ((history_returned ht houtput) slotKey rfl).2 value rfl
      refine ⟨e, he, hterminal, ?_, ?_⟩
      · rw [houtcome]
        by_cases hstatus : e.status = .succeeded
        · simp [outcomeOf, hstatus]
        · simp [outcomeOf, hstatus]
      · rcases hrest with hnone | hstored
        · exact .inl hnone
        · exact .inr (recorded_of_stored hstored)

/-- Where `wait` answers readable results only, every run is safe. -/
theorem replayable_of_answers
    (hlawful : ∀ t ∈ history env inputs, (executors env).Lawful (Answers (Readable env)) t) :
    Replayable env key (history env inputs) := by
  rintro t ht slotKey claim began result e houtput rfl hbegan hterminal hawaited
  have hspec := history_spec (Readable env) hlawful t ht
  have hreturns := hspec.2
  unfold Coroutines.Meets at hreturns
  rw [houtput] at hreturns
  rcases (hreturns.1 slotKey rfl).1 e hbegan hterminal with ⟨error, herror⟩ | hreplay
  · exact absurd herror (hawaited error)
  · have hvalid := hspec.1 _ e hreplay.1
    cases hresult : e.terminalResult with
    | none => exact fun text error htext => nomatch htext
    | some terminal => exact hvalid.good terminal hresult

/-- What a call of `execute` takes that nothing interrupts while it reads a terminal row. -/
def retry (slot : Slot) (claim : TaskClaim) (choice : ∀ statement : Statement, statement.Choice) :
    List (Input env) :=
  [.start slot claim, .resume slot, .answer slot choice, .resume slot]

/-- What `execute` does with the answer of `get`. -/
def afterGet (env : Surroundings) (claim : TaskClaim)
    (reply : Except Raised (Option ExternalExecution)) : Await (Option MeteredResult) :=
  ((match reply with
    | .ok found => Program.done found
    | .error error => .raise (.awaited error)) >>= executeFound env claim) >>=
      fun value => .done (some value)

theorem program_executor (claim : TaskClaim) :
    (executors env).program (.executor key) claim =
      .ask (.get claim.idempotencyKey) (afterGet env claim) := by
  show Program.ask (Statement.get claim.idempotencyKey) _ = _
  congr 1
  funext reply
  cases reply with
  | ok found => rfl
  | error error => rfl

theorem afterGet_ended {claim : TaskClaim} {e : ExternalExecution} (hterminal : e.isTerminal = true) :
    afterGet env claim (.ok (some e)) =
      match replay env e with
      | .ok value => .done value
      | .error error => .raise error := by
  show (executeFound env claim (some e) >>= fun value => .done (some value)) = _
  rw [executeFound_ended hterminal]
  unfold replay
  cases storedResult env e with
  | ok value => rfl
  | error error => rfl

/-- Such a call ends with what the row replays. -/
theorem retry_returns (choice : ∀ statement : Statement, statement.Choice)
    {c : (executors env).Config} {claim : TaskClaim} {e : ExternalExecution}
    (hkey : claim.idempotencyKey = key) (hrow : c.shared key = some e)
    (hterminal : e.isTerminal = true) (hfree : c.tasks (.executor key) = none)
    (hcommits : choice (.get key) = .commits) :
    ∃ t ∈ (executors env).machine.trace c (retry (.executor key) claim choice),
      t.output = .returned (.executor key) claim c.shared (replay env e) := by
  subst hkey
  have hadmits : (executors env).admits (.executor claim.idempotencyKey) claim = true :=
    decide_eq_true rfl
  let slot := Slot.executor claim.idempotencyKey
  let asked : (executors env).Task :=
    ⟨claim, c.shared, .ask (.get claim.idempotencyKey) (afterGet env claim), true⟩
  let c₁ := c.put slot (some asked)
  have hstart : (executors env).machine.step c (.start slot claim) = (.started slot claim, c₁) := by
    rw [Coroutines.step_start hadmits hfree, program_executor]
  let c₂ := c₁.put slot (some { asked with ready := false })
  have hresume : ((executors env).machine.step c₁ (.resume slot)).2 = c₂ := by
    rw [Coroutines.step_resume ((executors env).put_tasks_self c slot _) rfl]
    rfl
  let c₃ := c₂.put slot (some { asked with program := afterGet env claim (.ok (some e)) })
  have hanswer : ((executors env).machine.step c₂ (.answer slot choice)).2 = c₃ := by
    rw [Coroutines.step_answer choice ((executors env).put_tasks_self c₁ slot _) rfl]
    have hserved : serve (.get claim.idempotencyKey) (choice (.get claim.idempotencyKey)) c.shared =
        (.ok (some e), c.shared) := by
      rw [hcommits, serve_get_commits, hrow]
    show ({ c₂.put slot (some ⟨claim, c.shared, afterGet env claim
      (serve (.get claim.idempotencyKey) (choice (.get claim.idempotencyKey)) c.shared).1, true⟩) with
      shared := (serve (.get claim.idempotencyKey) (choice (.get claim.idempotencyKey)) c.shared).2 } :
      (executors env).Config) = c₃
    rw [hserved]
    rfl
  refine ⟨(executors env).machine.fire c₃ (.resume slot), ?_, ?_⟩
  · show _ ∈ (executors env).machine.trace c
      [.start slot claim, .resume slot, .answer slot choice, .resume slot]
    rw [Machine.trace_cons, hstart, Machine.trace_cons, hresume, Machine.trace_cons, hanswer,
      Machine.trace_cons]
    simp
  · show ((executors env).machine.step c₃ (.resume slot)).1 = _
    rw [Coroutines.step_resume ((executors env).put_tasks_self c₂ slot _) rfl]
    unfold Coroutines.resume
    rw [afterGet_ended hterminal]
    cases replay env e with
    | ok value => rfl
    | error error => rfl

end

/-! ## 3. A text that `json.loads` refuses -/

def buildClaim : TaskClaim where
  executionId := 0
  runId := 1
  nodeKey := "build"
  executorKey := "openclaw"
  workerId := "w"
  leaseToken := 2
  visitCount := 1
  attemptCount := 1
  timeoutSeconds := 60
  workflowKey := "flow"
  workflowVersion := 1
  instructions := none
  configuration := []
  skills := []
  phasePack := none
  context := none
  modelSelection := none

theorem buildClaim_key : buildClaim.idempotencyKey = "0:build:1" := by decide

/-- `json.loads` of a text of digits: the conversion of more than 4300 of them is a `ValueError`. -/
def loadsNumeral (text : String) : Except LoadsError Json :=
  if text.toList.all Text.isDigit = true ∧ text.toList.head?.any (· ≠ '0') = true then
    if 4300 < text.length then .error (.otherwise (.other "ValueError" true))
    else .ok (.scalar (.int (Text.digitsToNat text.toList)))
  else .error .jsonDecodeError

@[irreducible] def numeral : String := String.ofList (List.replicate 4301 '1')

theorem loadsNumeral_numeral :
    loadsNumeral numeral = .error (.otherwise (.other "ValueError" true)) := by
  have htext : numeral.toList = List.replicate 4301 '1' := by
    unfold numeral
    exact String.toList_ofList
  have hlength : numeral.length = 4301 := by
    rw [← String.length_toList, htext, List.length_replicate]
  have hdigits : (List.replicate 4301 '1').all Text.isDigit = true := by
    apply List.all_eq_true.mpr
    intro c hc
    rw [(List.mem_replicate.mp hc).2]
    decide
  have hhead : (List.replicate 4301 '1').head?.any (· ≠ '0') = true := by
    rw [List.head?_replicate]
    rfl
  unfold loadsNumeral
  rw [htext, if_pos ⟨hdigits, hhead⟩, hlength, if_pos (by decide)]

def numeralSurroundings : Surroundings := { loads := loadsNumeral, prompt := fun _ => "" }

/-- A success whose output is a text. -/
def textResult (text : String) : JsonObject :=
  [("status", .scalar (.str "ok")), ("output", .scalar (.str text))]

theorem textResult_output (text : String) :
    Json.lookup (textResult text) "output" = some (.scalar (.str text)) := rfl

/-- Services commit, the run is `r`, and `wait` answers the numeral. -/
def numeralChoice : (statement : Statement) → statement.Choice
  | .get _ | .prepare .. | .accept .. | .finish .. => ServiceChoice.commits
  | .prepareWorkspace _ => .ok {}
  | .start _ => .ok [("runId", .scalar (.str "r"))]
  | .wait .. => .ok (textResult numeral)
  | .cancel _ => .ok []

/-- A call that records its success and dies. -/
def numeralRun : List (Input numeralSurroundings) :=
  let slot := Slot.executor "0:build:1"
  [.start slot buildClaim] ++
    (List.replicate 7 [.resume slot, .answer slot numeralChoice]).flatten ++ [.interrupt slot]

def numeralExecution : ExternalExecution where
  executionId := 0
  runId := 1
  nodeKey := "build"
  executorKey := "openclaw"
  idempotencyKey := "0:build:1"
  externalSessionKey := "agent:main:jb:0:build"
  externalRunId := some "r"
  status := .succeeded
  terminalResult := some (textResult numeral)

theorem numeralRun_free :
    ((executors numeralSurroundings).machine.run (start _) numeralRun).tasks
      (.executor "0:build:1") = none := by
  rfl

theorem numeralRun_recorded :
    ((executors numeralSurroundings).machine.run (start _) numeralRun).shared "0:build:1" =
      some numeralExecution := by
  rfl

theorem numeralExecution_replay :
    replay numeralSurroundings numeralExecution = .error (.raised (.other "ValueError" true)) := by
  have htext : Json.lookup (numeralExecution.terminalResult.getD []) "output" =
      some (.scalar (.str numeral)) := textResult_output numeral
  exact replay_unreadable htext loadsNumeral_numeral

/-- A success whose output is a numeral of 4301 digits is recorded, and the next call ends with the
`ValueError` of `json.loads` instead. -/
theorem numeral_not_replayed :
    ¬ LedgerSafe numeralSurroundings "0:build:1" (history numeralSurroundings
      (numeralRun ++ retry (.executor "0:build:1") buildClaim numeralChoice)) := by
  intro hsafe
  obtain ⟨t, ht, houtput⟩ := retry_returns numeralChoice buildClaim_key
    numeralRun_recorded rfl numeralRun_free rfl
  have hmem : t ∈ history numeralSurroundings
      (numeralRun ++ retry (.executor "0:build:1") buildClaim numeralChoice) := by
    unfold history
    rw [Machine.trace_append]
    exact List.mem_append_right _ ht
  rw [numeralExecution_replay] at houtput
  rcases hsafe.terminal_replayed t hmem _ _ _ _ _ houtput buildClaim_key numeralRun_recorded rfl with
    ⟨error, herror⟩ | ⟨value, hvalue, _⟩
  · cases herror
  · cases hvalue

end JbOrchestrator.ExternalExecutions
