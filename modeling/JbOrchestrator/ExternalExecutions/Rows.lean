import JbOrchestrator.ExternalExecutions.Executor

/-!
# Rows — what the calls of the executor do to a row of the ledger

`Evolves` is all that any call does to a row; `Interferes` is what `cancel` does to it.  `Good` is a
property of the terminal results that the bridge answers, so of those that the ledger records.
-/

open Lib

namespace JbOrchestrator.ExternalExecutions

/-! ## 1. Well-formed rows -/

structure Valid (Good : JsonObject → Prop) (key : String) (e : ExternalExecution) : Prop where
  idempotencyKey : e.idempotencyKey = key
  starting : e.status = .starting → e.externalRunId = none
  active : e.status = .active → e.externalRunId ≠ none
  good : ∀ terminal, e.terminalResult = some terminal → Good terminal

def Sound (Good : JsonObject → Prop) (ledger : Ledger) : Prop :=
  ∀ key e, ledger key = some e → Valid Good key e

variable {Good : JsonObject → Prop} {key : String} {ledger : Ledger}
  {row row' row'' : Option ExternalExecution} {e e' : ExternalExecution}

theorem sound_empty : Sound Good fun _ => none := by
  intro key e h
  cases h

theorem Sound.update (hs : Sound Good ledger) (he : Valid Good key e) :
    Sound Good (Function.update ledger key (some e)) := by
  intro other e' h
  by_cases hother : other = key
  · subst hother
    rw [Function.update_self] at h
    rwa [← Option.some.inj h]
  · rw [Function.update_of_ne hother] at h
    exact hs other e' h

/-- An execution that is not terminal and has no run is starting. -/
theorem Valid.isStarting (he : Valid Good key e) (hopen : e.isTerminal = false)
    (hrun : e.externalRunId = none) : e.status = .starting := by
  cases hstatus : e.status with
  | starting => rfl
  | active => exact absurd hrun (he.active hstatus)
  | succeeded => simp [ExternalExecution.isTerminal, hstatus, ExternalExecutionStatus.isTerminal] at hopen
  | failed => simp [ExternalExecution.isTerminal, hstatus, ExternalExecutionStatus.isTerminal] at hopen
  | cancelled => simp [ExternalExecution.isTerminal, hstatus, ExternalExecutionStatus.isTerminal] at hopen

/-! ## 2. Changes of a row -/

/-- The session key stays, a run id stays once it is there, a terminal row stays as it is. -/
structure Continues (e e' : ExternalExecution) : Prop where
  session : e'.externalSessionKey = e.externalSessionKey
  run : ∀ runId, e.externalRunId = some runId → e'.externalRunId = some runId
  terminal : e.isTerminal = true → e' = e

def Evolves (row row' : Option ExternalExecution) : Prop :=
  ∀ e, row = some e → ∃ e', row' = some e' ∧ Continues e e'

inductive Interferes : Option ExternalExecution → Option ExternalExecution → Prop where
  | unchanged (row : Option ExternalExecution) : Interferes row row
  | cancelled {e : ExternalExecution} {runId : String} (reason : Option String)
      (hopen : e.isTerminal = false) (hrun : e.externalRunId = some runId) :
      Interferes (some e)
        (some { e with status := .cancelled, terminalResult := none, failureReason := reason })

theorem Continues.refl (e : ExternalExecution) : Continues e e := ⟨rfl, fun _ h => h, fun _ => rfl⟩

theorem evolves_refl (row : Option ExternalExecution) : Evolves row row :=
  fun e h => ⟨e, h, .refl e⟩

theorem evolves_none : Evolves none row := by
  intro e h
  cases h

theorem evolves_some (h : Continues e e') : Evolves (some e) (some e') := by
  intro e₀ h₀
  rw [← Option.some.inj h₀]
  exact ⟨e', rfl, h⟩

theorem Evolves.trans (h : Evolves row row') (h' : Evolves row' row'') : Evolves row row'' := by
  intro e he
  obtain ⟨e', he', hnext⟩ := h e he
  obtain ⟨e'', he'', hlast⟩ := h' e' he'
  refine ⟨e'', he'', ?_, ?_, ?_⟩
  · rw [hlast.session, hnext.session]
  · intro runId hrun
    exact hlast.run runId (hnext.run runId hrun)
  · intro hterminal
    have hsame : e' = e := hnext.terminal hterminal
    subst hsame
    exact hlast.terminal hterminal

theorem Interferes.trans (h : Interferes row row') (h' : Interferes row' row'') :
    Interferes row row'' := by
  cases h with
  | unchanged => exact h'
  | cancelled reason hopen hrun =>
    cases h' with
    | unchanged => exact .cancelled reason hopen hrun
    | cancelled _ hopen' _ => cases hopen'

theorem Interferes.evolves (h : Interferes row row') : Evolves row row' := by
  cases h with
  | unchanged => exact evolves_refl row
  | cancelled reason hopen hrun =>
    apply evolves_some
    exact ⟨rfl, fun _ h => h, fun hterminal => absurd hterminal (by rw [hopen]; decide)⟩

/-- A row without a run is none of `cancel`'s business. -/
theorem Interferes.eq_of_idle (h : Interferes (some e) row') (hrun : e.externalRunId = none) :
    row' = some e := by
  cases h with
  | unchanged => rfl
  | cancelled _ _ hrun' =>
    rw [hrun] at hrun'
    cases hrun'

theorem Interferes.eq_none (h : Interferes none row') : row' = none := by
  cases h
  rfl

theorem Interferes.eq_of_terminal (h : Interferes (some e) row') (hterminal : e.isTerminal = true) :
    row' = some e := by
  cases h with
  | unchanged => rfl
  | cancelled _ hopen _ =>
    rw [hopen] at hterminal
    cases hterminal

/-- Interference on every row keeps the ledger well-formed. -/
theorem Sound.interferes (hs : Sound Good ledger) {ledger' : Ledger}
    (h : ∀ key, Interferes (ledger key) (ledger' key)) : Sound Good ledger' := by
  intro key e' he'
  have hkey := h key
  rw [he'] at hkey
  generalize hrow : ledger key = row at hkey
  cases hkey with
  | unchanged => exact hs key e' hrow
  | cancelled reason hopen hrun =>
    have hold := hs key _ hrow
    exact ⟨hold.idempotencyKey, nofun, nofun, nofun⟩

/-! ## 3. Changes by a transaction -/

section

variable {operation : Option ExternalExecution → Except Raised ExternalExecution}
  {choice : ServiceChoice}

theorem transact_ok {answer : ExternalExecution}
    (h : (transact key operation choice ledger).1 = .ok answer) :
    operation (ledger key) = .ok answer ∧
      (transact key operation choice ledger).2 = Function.update ledger key (some answer) := by
  unfold transact at h ⊢
  cases hoperation : operation (ledger key) with
  | error error =>
    rw [hoperation] at h
    cases choice <;> cases h
  | ok e =>
    rw [hoperation] at h
    cases choice with
    | commits => exact ⟨h, by rw [Except.ok.inj h]⟩
    | fails error committed => cases committed <;> cases h

/-- A transaction leaves the ledger as it is or commits what its operation answers. -/
theorem transact_cases (key : String)
    (operation : Option ExternalExecution → Except Raised ExternalExecution) (choice : ServiceChoice)
    (ledger : Ledger) :
    (transact key operation choice ledger).2 = ledger ∨
      ∃ e, operation (ledger key) = .ok e ∧
        (transact key operation choice ledger).2 = Function.update ledger key (some e) := by
  unfold transact
  cases hoperation : operation (ledger key) with
  | error error =>
    left
    cases choice <;> rfl
  | ok e =>
    cases choice with
    | commits => exact .inr ⟨e, rfl, rfl⟩
    | fails error committed =>
      cases committed with
      | false => exact .inl rfl
      | true => exact .inr ⟨e, rfl, rfl⟩

end

/-- The row of a key that a call of `execute` may change, and no other. -/
structure Advances (Good : JsonObject → Prop) (key : String) (ledger ledger' : Ledger) : Prop where
  sound : Sound Good ledger'
  evolves : Evolves (ledger key) (ledger' key)
  others : ∀ other, other ≠ key → ledger' other = ledger other

theorem advances_refl (hs : Sound Good ledger) : Advances Good key ledger ledger :=
  ⟨hs, evolves_refl _, fun _ _ => rfl⟩

theorem advances_transact (hs : Sound Good ledger) (choice : ServiceChoice)
    {operation : Option ExternalExecution → Except Raised ExternalExecution}
    (hvalid : ∀ e, operation (ledger key) = .ok e →
      Valid Good key e ∧ Evolves (ledger key) (some e)) :
    Advances Good key ledger (transact key operation choice ledger).2 := by
  rcases transact_cases key operation choice ledger with hsame | ⟨e, hoperation, hupdate⟩
  · rw [hsame]
    exact advances_refl hs
  · rw [hupdate]
    have he := hvalid e hoperation
    refine ⟨hs.update he.1, ?_, ?_⟩
    · rw [Function.update_self]
      exact he.2
    · intro other hother
      exact Function.update_of_ne hother _ _

open ExternalExecutionService Application

theorem prepare_row {claim : TaskClaim} {sessionKey : String} {agentId : Option String}
    {assignment : WorkspaceAssignment} (hrow : ∀ e, row = some e → Valid Good claim.idempotencyKey e)
    (h : prepare claim sessionKey agentId assignment row = .ok e) :
    Valid Good claim.idempotencyKey e ∧ Evolves row (some e) := by
  rcases prepare_eq_ok h with hsame | ⟨hnone, hkey, hstatus, hrun, hresult⟩
  · rw [hsame]
    exact ⟨hrow e hsame, evolves_refl _⟩
  · rw [hnone]
    refine ⟨⟨hkey, fun _ => hrun, ?_, ?_⟩, evolves_none⟩
    · intro hactive
      rw [hstatus] at hactive
      cases hactive
    · intro terminal hterminal
      rw [hresult] at hterminal
      cases hterminal

theorem accept_row {idempotencyKey runId : String}
    (hrow : ∀ e, row = some e → Valid Good key e) (h : accept idempotencyKey runId row = .ok e) :
    Valid Good key e ∧ Evolves row (some e) := by
  obtain ⟨e₀, rfl, hsame | hnew⟩ := accept_eq_ok h
  · rw [hsame.2]
    exact ⟨hrow e₀ rfl, evolves_refl _⟩
  · obtain ⟨hopen, hrun, rfl⟩ := hnew
    have hold := hrow e₀ rfl
    refine ⟨⟨hold.idempotencyKey, nofun, fun _ => nofun, hold.good⟩, evolves_some ⟨rfl, ?_, ?_⟩⟩
    · intro runId' hrunId'
      rcases hrun with hrun | hrun
      · rw [hrun] at hrunId'
        cases hrunId'
      · rw [← hrunId', hrun]
    · intro hterminal
      rw [hopen] at hterminal
      cases hterminal

theorem finish_row {idempotencyKey : String} {status : ExternalExecutionStatus}
    {terminalResult : Option JsonObject} {failureReason : Option String}
    (hrow : ∀ e, row = some e → Valid Good key e)
    (hgood : ∀ terminal, terminalResult = some terminal → Good terminal)
    (h : finish idempotencyKey status terminalResult failureReason row = .ok e) :
    Valid Good key e ∧ Evolves row (some e) := by
  obtain ⟨e₀, rfl, hterminal, hsame | hnew⟩ := finish_eq_ok h
  · rw [hsame.2.2]
    exact ⟨hrow e₀ rfl, evolves_refl _⟩
  · obtain ⟨hopen, rfl⟩ := hnew
    refine ⟨⟨(hrow e₀ rfl).idempotencyKey, ?_, ?_, hgood⟩, evolves_some ⟨rfl, fun _ h => h, ?_⟩⟩
    · intro hstarting
      have hstatus : status = .starting := hstarting
      rw [hstatus] at hterminal
      cases hterminal
    · intro hactive
      have hstatus : status = .active := hactive
      rw [hstatus] at hterminal
      cases hterminal
    · intro hended
      rw [hopen] at hended
      cases hended

/-- The transaction in which `cancel` finishes a row with a run interferes, if it does anything. -/
theorem interferes_finish {idempotencyKey runId : String} {failureReason : Option String}
    (hrow : row = some e) (hrun : e.externalRunId = some runId)
    (h : finish idempotencyKey .cancelled none failureReason row = .ok e') :
    Interferes row (some e') := by
  obtain ⟨e₀, he₀, -, hsame | hnew⟩ := finish_eq_ok h
  · rw [he₀, hsame.2.2]
    exact .unchanged _
  · obtain rfl : e = e₀ := Option.some.inj (hrow.symm.trans he₀)
    rw [he₀, hnew.2]
    exact .cancelled failureReason hnew.1 hrun

end JbOrchestrator.ExternalExecutions
