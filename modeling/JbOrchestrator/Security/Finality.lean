import JbOrchestrator.Security.Revocations
import Mathlib.Data.List.Count

/-!
# Finality — a revocation is final, and when it is audited once

Nothing makes a revoked credential or a disabled account usable again, so that no authentication that
begins afterwards succeeds.  A revocation reads the credential without a lock: it is audited once, and
its time stays, exactly as long as no commit of a revocation meets a row that is revoked already.
-/

open Lib

namespace JbOrchestrator.Security

open Domain Api Application

/-! ## 1. What the tables keep -/

def isRevocationOf (id : UUID) : AuditEvent → Bool
  | .credentialRevoked _ credentialId _ _ _ => credentialId = id
  | _ => false

namespace SecurityTables

variable (tables : SecurityTables) (id : UUID)

/-- The number of `credential_revoked` events of a credential. -/
def audits : ℕ := tables.events.countP (isRevocationOf id)

def revokedAt : Option Instant :=
  (tables.credentials.get? id).bind fun record => record.credential.revokedAt

end SecurityTables

/-- What a later state of the tables says about an earlier one. -/
structure Later (s s' : SecurityTables) : Prop where
  credential : ∀ id record', s'.credentials.get? id = some record' →
    ∃ record, s.credentials.get? id = some record ∧
      record'.credential.accountId = record.credential.accountId ∧
      record'.credential.expiresAt = record.credential.expiresAt ∧
      (record'.credential.revokedAt = none → record.credential.revokedAt = none)
  kept : ∀ id, (s.credentials.get? id).isSome → (s'.credentials.get? id).isSome
  account : ∀ id account', s'.accounts.get? id = some account' →
    ∃ account, s.accounts.get? id = some account ∧
      (account'.enabled = true → account.enabled = true)

theorem Later.refl (s : SecurityTables) : Later s s :=
  ⟨fun _ record h => ⟨record, h, rfl, rfl, fun h => h⟩, fun _ h => h,
    fun _ account h => ⟨account, h, fun h => h⟩⟩

theorem Later.trans {s s' s'' : SecurityTables} (h : Later s s') (h' : Later s' s'') :
    Later s s'' where
  credential id record'' hrow'' := by
    obtain ⟨record', hrow', haccount', hexpires', hrevoked'⟩ := h'.credential id record'' hrow''
    obtain ⟨record, hrow, haccount, hexpires, hrevoked⟩ := h.credential id record' hrow'
    exact ⟨record, hrow, haccount'.trans haccount, hexpires'.trans hexpires,
      fun hnone => hrevoked (hrevoked' hnone)⟩
  kept id hrow := h'.kept id (h.kept id hrow)
  account id account'' hrow'' := by
    obtain ⟨account', hrow', henabled'⟩ := h'.account id account'' hrow''
    obtain ⟨account, hrow, henabled⟩ := h.account id account' hrow'
    exact ⟨account, hrow, fun hon => henabled (henabled' hon)⟩

section

variable {s s' : SecurityTables} {id : UUID}

/-- A revoked credential stays revoked. -/
theorem Later.revoked (h : Later s s') (hrevoked : s.revokedAt id ≠ none) :
    s'.revokedAt id ≠ none := by
  unfold SecurityTables.revokedAt at hrevoked ⊢
  cases hrow : s.credentials.get? id with
  | none =>
    rw [hrow] at hrevoked
    exact absurd rfl hrevoked
  | some record =>
    rw [hrow] at hrevoked
    obtain ⟨record', hrow'⟩ := Option.isSome_iff_exists.mp (h.kept id (by rw [hrow]; rfl))
    obtain ⟨earlier, hearlier, -, -, hunrevoked⟩ := h.credential id record' hrow'
    obtain rfl := Option.some.inj (hrow.symm.trans hearlier)
    rw [hrow']
    intro hnone
    exact hrevoked (hunrevoked hnone)

theorem Later.unrevoked (h : Later s s') (hnone : s'.revokedAt id = none) : s.revokedAt id = none := by
  by_contra hrevoked
  exact h.revoked hrevoked hnone

/-- A row is replaced by one that is not less revoked. -/
theorem later_putCredential {record record' : CredentialRecord}
    (hrow : s.credentials.get? id = some record) (hid : record'.credential.id = id)
    (haccount : record'.credential.accountId = record.credential.accountId)
    (hexpires : record'.credential.expiresAt = record.credential.expiresAt)
    (hrevoked : record'.credential.revokedAt = none → record.credential.revokedAt = none) :
    Later s (s.putCredential id record' hid) where
  credential id' row hrow' := by
    replace hrow' : (s.credentials.set id record').get? id' = some row := hrow'
    rw [Dict.get?_set] at hrow'
    split at hrow'
    · rename_i hsame
      obtain rfl := Option.some.inj hrow'
      exact ⟨record, hsame ▸ hrow, haccount, hexpires, hrevoked⟩
    · exact (Later.refl s).credential id' row hrow'
  kept id' h := by
    show ((s.credentials.set id record').get? id').isSome
    rw [Dict.get?_set]
    split
    · rfl
    · exact h
  account := (Later.refl s).account

end

/-! ## 2. What a commit does -/

/-- A step of the tables after `start`: nothing about revocations, or the revocation of a credential
that was not revoked at the start. -/
inductive SecurityStep (start s s' : SecurityTables) : Prop where
  | quiet (hlater : Later s s') (hrevoked : ∀ id, s'.revokedAt id = s.revokedAt id)
      (haudits : ∀ id, s'.audits id = s.audits id)
  | revoked (id : UUID) (hlater : Later s s') (hstart : start.revokedAt id = none)
      (hafter : s'.revokedAt id ≠ none) (haudits : s'.audits id = s.audits id + 1)
      (hothers : ∀ id', id' ≠ id → s'.revokedAt id' = s.revokedAt id' ∧ s'.audits id' = s.audits id')

theorem SecurityStep.later {start s s' : SecurityTables} (h : SecurityStep start s s') :
    Later s s' := by
  cases h with
  | quiet hlater => exact hlater
  | revoked _ hlater => exact hlater

theorem SecurityStep.refl (start s : SecurityTables) : SecurityStep start s s :=
  .quiet (Later.refl s) (fun _ => rfl) fun _ => rfl

section

variable {start s s' : SecurityTables} {id : UUID}

theorem revokedAt_putCredential {record : CredentialRecord} (hid : record.credential.id = id)
    (id' : UUID) : (s.putCredential id record hid).revokedAt id' =
      if id' = id then record.credential.revokedAt else s.revokedAt id' := by
  unfold SecurityTables.revokedAt
  show ((s.credentials.set id record).get? id').bind _ = _
  rw [Dict.get?_set]
  split <;> rfl

/-- More events change neither the rows nor what is known about them. -/
theorem Later.append (h : Later s s') (events : List AuditEvent) :
    Later s { s' with events := s'.events ++ events } :=
  ⟨h.credential, h.kept, h.account⟩

theorem audits_append (s : SecurityTables) (events : List AuditEvent) (id : UUID) :
    SecurityTables.audits { s with events := s.events ++ events } id =
      s.audits id + events.countP (isRevocationOf id) := by
  unfold SecurityTables.audits
  exact List.countP_append

theorem write_events {change : SecurityWrite} (h : s.write change = .ok s') : s'.events = s.events := by
  cases change with
  | disable accountId =>
    simp only [SecurityTables.write] at h
    split at h
    · cases h
    · obtain rfl := Except.ok.inj h
      rfl
  | revoke credentialId revokedAt =>
    simp only [SecurityTables.write] at h
    split at h
    · cases h
    · split at h
      · obtain rfl := Except.ok.inj h
        rfl
      · cases h
  | markUsed credentialId usedAt =>
    simp only [SecurityTables.write] at h
    split at h
    · cases h
    · split at h
      · obtain rfl := Except.ok.inj h
        rfl
      · cases h

theorem commit_events {write : Option SecurityWrite} {events : List AuditEvent}
    (h : s.commit write events = .ok s') : s'.events = s.events ++ events := by
  unfold SecurityTables.commit at h
  cases write with
  | none =>
    obtain rfl := Except.ok.inj h
    rfl
  | some change =>
    cases hwrite : s.write change with
    | error error =>
      simp only [hwrite] at h
      cases h
    | ok middle =>
      simp only [hwrite] at h
      obtain rfl := Except.ok.inj h
      show middle.events ++ events = _
      rw [write_events hwrite]

/-- The time of a use and its row. -/
theorem markUsed_step {credentialId : UUID} {usedAt : Instant}
    (h : s.write (.markUsed credentialId usedAt) = .ok s') : SecurityStep start s s' := by
  simp only [SecurityTables.write] at h
  split at h
  · cases h
  · rename_i record hrow
    split at h
    · obtain rfl := Except.ok.inj h
      apply SecurityStep.quiet
      · exact later_putCredential hrow _ rfl rfl fun h => h
      · intro id'
        rw [revokedAt_putCredential]
        split
        · rename_i hsame
          rw [hsame]
          unfold SecurityTables.revokedAt
          rw [hrow]
          rfl
        · rfl
      · exact fun _ => rfl
    · cases h

theorem disable_step {accountId : UUID} (h : s.write (.disable accountId) = .ok s') :
    SecurityStep start s s' := by
  simp only [SecurityTables.write] at h
  split at h
  · cases h
  · rename_i account hrow
    obtain rfl := Except.ok.inj h
    apply SecurityStep.quiet
    · refine ⟨(Later.refl s).credential, fun _ h => h, ?_⟩
      intro id' account' hrow'
      replace hrow' : (s.accounts.set accountId { account with enabled := false }).get? id' =
        some account' := hrow'
      rw [Dict.get?_set] at hrow'
      split at hrow'
      · rename_i hsame
        obtain rfl := Option.some.inj hrow'
        exact ⟨account, hsame ▸ hrow, fun hon => by cases hon⟩
      · exact ⟨account', hrow', fun hon => hon⟩
    · exact fun _ => rfl
    · exact fun _ => rfl

theorem revoke_spec {credentialId : UUID} {revokedAt : Instant}
    (h : s.write (.revoke credentialId revokedAt) = .ok s') :
    Later s s' ∧ s'.events = s.events ∧ s'.revokedAt credentialId = some revokedAt ∧
      ∀ id', id' ≠ credentialId → s'.revokedAt id' = s.revokedAt id' := by
  simp only [SecurityTables.write] at h
  split at h
  · cases h
  · rename_i record hrow
    split at h
    · obtain rfl := Except.ok.inj h
      refine ⟨later_putCredential hrow _ rfl rfl (fun hnone => by cases hnone), rfl, ?_, ?_⟩
      · rw [revokedAt_putCredential, if_pos rfl]
      · intro id' hne
        rw [revokedAt_putCredential, if_neg hne]
    · cases h

/-- A commit that is no revocation of a credential. -/
theorem commit_quiet {write : Option SecurityWrite} {events : List AuditEvent}
    (hwrite : ∀ credentialId revokedAt, write ≠ some (.revoke credentialId revokedAt))
    (hevents : ∀ id, events.countP (isRevocationOf id) = 0)
    (h : s.commit write events = .ok s') : SecurityStep start s s' := by
  have hquiet : ∀ middle, SecurityStep start s middle → (∀ id, middle.audits id = s.audits id) →
      (∀ id, middle.revokedAt id = s.revokedAt id) →
      SecurityStep start s { middle with events := middle.events ++ events } := by
    intro middle hstep haudits hrevoked
    apply SecurityStep.quiet (hstep.later.append events) hrevoked
    intro id
    rw [audits_append, hevents, haudits]
    rfl
  unfold SecurityTables.commit at h
  cases write with
  | none =>
    obtain rfl := Except.ok.inj h
    exact hquiet s (.refl start s) (fun _ => rfl) fun _ => rfl
  | some write =>
    cases hmiddle : s.write write with
    | error error =>
      simp only [hmiddle] at h
      cases h
    | ok middle =>
      simp only [hmiddle] at h
      obtain rfl := Except.ok.inj h
      -- the tables after the write alone
      have hstep : SecurityStep middle s middle := by
        cases write with
        | disable accountId => exact disable_step hmiddle
        | revoke credentialId revokedAt => exact absurd rfl (hwrite credentialId revokedAt)
        | markUsed credentialId usedAt => exact markUsed_step hmiddle
      cases hstep with
      | quiet hlater hrevoked haudits =>
        exact hquiet middle (.quiet hlater hrevoked haudits) haudits hrevoked
      | revoked id _ hstart hafter => exact absurd hstart hafter

/-- The commit of a revocation, of a row that is revoked by it or was already. -/
theorem commit_revocation {write : Option SecurityWrite} {accountId : UUID}
    {expiresAt : Option Instant} {actor : ActorPayload} {occurredAt : Instant}
    (hstart : start.revokedAt id = none)
    (hwrite : write = none ∧ s.revokedAt id ≠ none ∨
      ∃ revokedAt, write = some (.revoke id revokedAt))
    (h : s.commit write [.credentialRevoked accountId id expiresAt actor occurredAt] = .ok s') :
    SecurityStep start s s' := by
  have hself : [AuditEvent.credentialRevoked accountId id expiresAt actor occurredAt].countP
      (isRevocationOf id) = 1 := by
    simp [isRevocationOf]
  have hother : ∀ id', id' ≠ id →
      [AuditEvent.credentialRevoked accountId id expiresAt actor occurredAt].countP
        (isRevocationOf id') = 0 := by
    intro id' hne
    simp [isRevocationOf, Ne.symm hne]
  have haudits : ∀ middle : SecurityTables, middle.events = s.events → ∀ id',
      SecurityTables.audits { middle with events := middle.events ++
        [.credentialRevoked accountId id expiresAt actor occurredAt] } id' = s.audits id' +
          [AuditEvent.credentialRevoked accountId id expiresAt actor occurredAt].countP
            (isRevocationOf id') := by
    intro middle hevents id'
    rw [audits_append]
    unfold SecurityTables.audits
    rw [hevents]
  unfold SecurityTables.commit at h
  rcases hwrite with ⟨rfl, hrevoked⟩ | ⟨revokedAt, rfl⟩
  · obtain rfl := Except.ok.inj h
    apply SecurityStep.revoked id ((Later.refl s).append _) hstart hrevoked
    · rw [haudits s rfl, hself]
    · intro id' hne
      refine ⟨rfl, ?_⟩
      rw [haudits s rfl, hother id' hne]
      rfl
  · cases hmiddle : s.write (.revoke id revokedAt) with
    | error error =>
      simp only [hmiddle] at h
      cases h
    | ok middle =>
      simp only [hmiddle] at h
      obtain rfl := Except.ok.inj h
      obtain ⟨hlater, hevents, hset, hothers⟩ := revoke_spec hmiddle
      apply SecurityStep.revoked id (hlater.append _) hstart
      · show middle.revokedAt id ≠ none
        rw [hset]
        exact Option.some_ne_none _
      · rw [haudits middle hevents, hself]
      · intro id' hne
        refine ⟨hothers id' hne, ?_⟩
        rw [haudits middle hevents, hother id' hne]
        rfl

end

/-! ## 3. The calls among each other -/

/-- The credential of the principal, as it was when the call began: not revoked, not expired at the
time of the call, and its account is enabled. -/
def Usable (began : SecurityTables) (principal : AuthenticatedPrincipal) (usedAt : Instant) : Prop :=
  ∃ id record account, principal.credentialId = some id ∧
    began.credentials.get? id = some record ∧ record.credential.revokedAt = none ∧
    (∀ expiresAt, record.credential.expiresAt = some expiresAt → usedAt < expiresAt) ∧
    began.accounts.get? record.credential.accountId = some account ∧ account.enabled = true

/-- What a call returns: a principal only with a usable credential. -/
def SecurityReturns (call : SecurityCall) (began : SecurityTables)
    (result : Except ServiceError SecurityResult) : Prop :=
  ∀ token usedAt principal, call = .authenticate token usedAt →
    result = .ok (.principal (some principal)) → Usable began principal usedAt

section

variable (scheme : TokenScheme) (start : SecurityTables)

/-- What is left to show of a part of a call that ends with `P`. -/
abbrev Secures {α : Type} (P : α → Prop) (p : Securing α) (s : SecurityTables) : Prop :=
  (securing scheme).Safe (fun _ _ => True) (fun s => Later start s) Later (SecurityStep start)
    (fun _ _ => True) (fun _ _ => True) (fun value _ => P value) p s

variable {scheme start} {α β : Type} {P : β → Prop} {s : SecurityTables}

theorem secures_bind {p : Securing α} {Q : α → Prop} {f : α → Securing β}
    (hp : Secures scheme start Q p s) (hf : ∀ value s, Q value → Secures scheme start P (f value) s) :
    Secures scheme start P (p >>= f) s :=
  (securing scheme).safe_bind hp fun value s hvalue => hf value s hvalue

/-- A statement that reads. -/
theorem secures_read {statement : SecurityStatement} {f : statement.Reply → Securing β}
    (hserve : ∀ choice s, (statement.serve choice s).2 = s)
    (hf : ∀ s', Later start s' → Later s s' → ∀ choice,
      Secures scheme start P (f (statement.serve choice s').1) s') :
    Secures scheme start P (SecurityService.ask statement >>= f) s := by
  intro s' hs' hrely
  refine ⟨trivial, fun choice _ => ?_⟩
  have hnext : (statement.serve choice s').2 = s' := hserve choice s'
  refine ⟨?_, ?_⟩
  · show SecurityStep start s' (statement.serve choice s').2
    rw [hnext]
    exact .refl start s'
  · show Secures scheme start P (f (statement.serve choice s').1) (statement.serve choice s').2
    rw [hnext]
    exact hf s' hs' hrely choice

theorem secures_commit {write : Option SecurityWrite} {events : List AuditEvent}
    (hcommit : ∀ s' s'', Later start s' → Later s s' → s'.commit write events = .ok s'' →
      SecurityStep start s' s'') :
    Secures scheme start (fun _ => True) (SecurityService.commit write events) s := by
  intro s' hs' hrely
  refine ⟨trivial, fun choice _ => ?_⟩
  show SecurityStep start s' ((SecurityStatement.commit write events).serve choice s').2 ∧
    Secures scheme start (fun _ => True)
      (Program.ofExcept ((SecurityStatement.commit write events).serve choice s').1)
      ((SecurityStatement.commit write events).serve choice s').2
  cases h : s'.commit write events with
  | error error =>
    rw [SecurityStatement.serve_commit_error choice h]
    exact ⟨.refl start s', trivial⟩
  | ok s'' =>
    rw [SecurityStatement.serve_commit_ok choice h]
    exact ⟨hcommit s' s'' hs' hrely h, trivial⟩

theorem secures_ofOption {x : Option α} {error : ServiceError} {Q : α → Prop}
    (h : ∀ value, x = some value → Q value) :
    Secures scheme start Q (Program.ofOption error x) s := by
  cases x with
  | some value => exact h value rfl
  | none => trivial

/-- A use of a credential is no revocation. -/
theorem markUsed_ne {row : Option CredentialRecord} {usedAt : Instant} (credentialId : UUID)
    (revokedAt : Instant) :
    SecurityService.markUsed row usedAt ≠ some (.revoke credentialId revokedAt) := by
  unfold SecurityService.markUsed
  cases row with
  | none => exact fun h => by cases h
  | some record =>
    dsimp only
    split
    · exact fun h => by cases h
    · exact fun h => by cases h

theorem authenticate_secures (token : String) (usedAt : Instant) (s : SecurityTables) :
    Secures scheme start (fun principal => ∀ value, principal = some value → Usable s value usedAt)
      (SecurityService.authenticate scheme token usedAt) s := by
  unfold SecurityService.authenticate
  cases scheme.credentialId token with
  | none => exact fun value h => by cases h
  | some credentialId =>
  apply secures_read (fun _ _ => rfl)
  intro s₁ _ hlater₁ choice₁
  rw [SecurityStatement.serve_credential credentialId choice₁ s₁]
  cases hrow : s₁.credentials.get? credentialId with
  | none => exact fun value h => by cases h
  | some record =>
  dsimp only
  split
  · exact fun value h => by cases h
  rename_i hactive
  split
  · exact fun value h => by cases h
  -- the row as it was when the call began
  obtain ⟨first, hfirst, haccount, hexpires, hrevoked⟩ := hlater₁.credential credentialId record hrow
  have hid : record.credential.id = credentialId := s₁.credentialIds credentialId record hrow
  obtain ⟨hnone, hopen⟩ : record.credential.revokedAt = none ∧
      ∀ expiresAt, record.credential.expiresAt = some expiresAt → usedAt < expiresAt := by
    unfold ServiceAccountCredential.isActive at hactive
    simpa [Option.all_eq_true] using hactive
  unfold SecurityService.admitAccount
  apply secures_read (fun _ _ => rfl)
  intro s₂ _ hlater₂ choice₂
  rw [SecurityStatement.serve_account _ choice₂ s₂]
  cases hrow₂ : s₂.accounts.get? record.credential.accountId with
  | none => exact fun value h => by cases h
  | some account =>
  dsimp only
  split
  · exact fun value h => by cases h
  rename_i henabled
  obtain ⟨earlier, hearlier, hon⟩ := (hlater₁.trans hlater₂).account _ account hrow₂
  have husable : Usable s (SecurityService.toPrincipal account record.credential) usedAt := by
    refine ⟨credentialId, first, earlier, ?_, hfirst, hrevoked hnone, ?_, ?_, ?_⟩
    · exact congrArg some hid
    · rw [← hexpires]
      exact hopen
    · rw [← haccount]
      exact hearlier
    · exact hon (by simpa using henabled)
  apply secures_read (fun _ _ => rfl)
  intro s₃ _ _ _
  apply secures_bind (secures_commit ?_)
  · intro _ s₄ _ value hvalue
    obtain rfl := Option.some.inj hvalue
    exact husable
  · intro s' s'' _ _ h
    exact commit_quiet markUsed_ne (fun _ => rfl) h

theorem revokeActive_secures {accountId credentialId : UUID} {record : CredentialRecord}
    (actor : Option AuthenticatedPrincipal) (revokedAt : Instant) (hlater : Later start s)
    (hrow : s.credentials.get? credentialId = some record)
    (hnone : record.credential.revokedAt = none) :
    Secures scheme start (fun _ => True)
      (SecurityService.revokeActive accountId credentialId record actor revokedAt) s := by
  have hid : record.credential.id = credentialId := s.credentialIds credentialId record hrow
  have hunrevoked : s.revokedAt credentialId = none := by
    unfold SecurityTables.revokedAt
    rw [hrow]
    exact hnone
  have hstart := hlater.unrevoked hunrevoked
  unfold SecurityService.revokeActive
  apply secures_read (fun _ _ => rfl)
  intro s₁ _ hlater₁ kept
  apply secures_commit
  intro s₂ s₃ _ hlater₂ hcommit
  rw [hid] at hcommit
  apply commit_revocation hstart _ hcommit
  -- the row that the session has, or the one that it reads once more
  cases kept with
  | true =>
    right
    refine ⟨revokedAt, ?_⟩
    show SecurityService.revokeRow (some record) revokedAt = _
    simp [SecurityService.revokeRow, hnone, hid]
  | false =>
    show SecurityService.revokeRow (s₁.credentials.get? credentialId) revokedAt = none ∧ _ ∨
      ∃ at_, SecurityService.revokeRow (s₁.credentials.get? credentialId) revokedAt = _
    have hsome := hlater₁.kept credentialId (by rw [hrow]; rfl)
    obtain ⟨again, hagain⟩ := Option.isSome_iff_exists.mp hsome
    rw [hagain]
    have hid' : again.credential.id = credentialId := s₁.credentialIds credentialId again hagain
    cases hrevoked : again.credential.revokedAt with
    | none =>
      right
      refine ⟨revokedAt, ?_⟩
      simp [SecurityService.revokeRow, hrevoked, hid']
    | some at_ =>
      left
      constructor
      · simp [SecurityService.revokeRow, hrevoked]
      · apply hlater₂.revoked
        unfold SecurityTables.revokedAt
        rw [hagain]
        show again.credential.revokedAt ≠ none
        rw [hrevoked]
        exact Option.some_ne_none _

theorem revokeCredential_secures (accountId credentialId : UUID)
    (actor : Option AuthenticatedPrincipal) (revokedAt : Instant) :
    Secures scheme start (fun _ => True)
      (SecurityService.revokeCredential accountId credentialId actor revokedAt) s := by
  unfold SecurityService.revokeCredential
  apply secures_read (fun _ _ => rfl)
  intro s₁ _ _ _
  apply secures_bind (secures_ofOption fun _ _ => trivial)
  intro _ s₂ _
  apply secures_read (fun _ _ => rfl)
  intro s₃ hlater₃ _ _
  show Secures scheme start _ (Program.ofOption _ ((s₃.credentials.get? credentialId).filter _) >>= _)
    s₃
  cases hrow : s₃.credentials.get? credentialId with
  | none => trivial
  | some record =>
    by_cases hmine : record.credential.accountId = accountId
    · have hfound : (some record).filter
          (fun record => decide (record.credential.accountId = accountId)) = some record := by
        simp [Option.filter, hmine]
      rw [hfound]
      show Secures scheme start _ (if record.credential.revokedAt.isSome then pure ()
        else SecurityService.revokeActive accountId credentialId record actor revokedAt) s₃
      split
      · trivial
      · rename_i hnone
        exact revokeActive_secures actor revokedAt hlater₃ hrow (by simpa using hnone)
    · have hfound : (some record).filter
          (fun record => decide (record.credential.accountId = accountId)) = none := by
        simp [Option.filter, hmine]
      rw [hfound]
      trivial

theorem revoke_secures (accountId : UUID) (actor : Option AuthenticatedPrincipal)
    (revokedAt : Instant) :
    Secures scheme start (fun _ => True) (SecurityService.revoke accountId actor revokedAt) s := by
  unfold SecurityService.revoke
  apply secures_read (fun _ _ => rfl)
  intro s₁ _ _ _
  apply secures_bind (secures_ofOption fun _ _ => trivial)
  intro account s₂ _
  split
  · trivial
  · apply secures_read (fun _ _ => rfl)
    intro s₃ _ _ kept
    apply secures_commit
    intro s₄ s₅ _ _ h
    refine commit_quiet ?_ (fun _ => rfl) h
    intro credentialId at_
    generalize (SecurityStatement.serve (.accountAgain accountId account) kept s₃).1 = row
    cases row with
    | none => exact fun h => by cases h
    | some account =>
      show (if account.enabled then some (SecurityWrite.disable accountId) else none) ≠ _
      split
      · exact fun h => by cases h
      · exact fun h => by cases h

end

/-! ## 4. Runs -/

section

variable (scheme : TokenScheme) (start : SecurityTables)

/-- The steps of a run of any calls, from the tables `start`. -/
def history (inputs : List (securing scheme).Input) : List (securing scheme).Step :=
  (securing scheme).machine.trace ((securing scheme).initial start) inputs

/-- What a credential has gained since the start when it has been revoked: one event. -/
def gained (s : SecurityTables) (id : UUID) : ℕ :=
  if start.revokedAt id = none ∧ s.revokedAt id ≠ none then 1 else 0

/-- Every revocation since the start has an event, and no other credential has a new one. -/
def Recorded (s : SecurityTables) : Prop :=
  ∀ id, start.audits id + gained start s id ≤ s.audits id ∧
    (gained start s id = 0 → s.audits id = start.audits id)

/-- Every revocation since the start has one event. -/
def ExactlyRecorded (s : SecurityTables) : Prop :=
  ∀ id, s.audits id = start.audits id + gained start s id

/-- No credential has got two events since the start. -/
def AuditedOnce (s : SecurityTables) : Prop := ∀ id, s.audits id ≤ start.audits id + 1

variable {start}

theorem Recorded.exactly {s : SecurityTables} (h : Recorded start s) :
    ExactlyRecorded start s ↔ AuditedOnce start s := by
  constructor
  · intro hexactly id
    rw [hexactly id]
    unfold gained
    split <;> omega
  · intro honce id
    obtain ⟨hle, heq⟩ := h id
    by_cases hgained : gained start s id = 0
    · rw [heq hgained, hgained]
      rfl
    · have hone : gained start s id = 1 := by
        unfold gained at hgained ⊢
        split
        · rfl
        · rename_i hnot
          rw [if_neg hnot] at hgained
          exact absurd rfl hgained
      have hupper := honce id
      omega

theorem SecurityStep.recorded {s s' : SecurityTables} (h : SecurityStep start s s')
    (hs : Recorded start s) : Recorded start s' := by
  intro id
  obtain ⟨hle, heq⟩ := hs id
  cases h with
  | quiet _ hrevoked haudits =>
    unfold gained at hle heq ⊢
    rw [hrevoked id, haudits id]
    exact ⟨hle, heq⟩
  | revoked id' _ hstart hafter haudits hothers =>
    by_cases hid : id = id'
    · subst hid
      have hone : gained start s' id = 1 := if_pos ⟨hstart, hafter⟩
      rw [hone, haudits]
      exact ⟨by omega, fun h => by cases h⟩
    · obtain ⟨hrevoked, hsame⟩ := hothers id hid
      unfold gained at hle heq ⊢
      rw [hrevoked, hsame]
      exact ⟨hle, heq⟩

/-- A step keeps the record exact unless it revokes what is revoked already. -/
theorem SecurityStep.exactly {s s' : SecurityTables} (h : SecurityStep start s s')
    (hs : ExactlyRecorded start s) : ExactlyRecorded start s' ↔
      ∀ id, s'.audits id = s.audits id + 1 → s.revokedAt id = none := by
  cases h with
  | quiet _ hrevoked haudits =>
    constructor
    · intro _ id hone
      rw [haudits id] at hone
      omega
    · intro _ id
      unfold gained
      rw [hrevoked id, haudits id]
      exact hs id
  | revoked id _ hstart hafter haudits hothers =>
    have hone : gained start s' id = 1 := if_pos ⟨hstart, hafter⟩
    constructor
    · intro hexactly id' hcount
      by_cases hid : id' = id
      · subst hid
        by_contra hrevoked
        have hbefore : gained start s id' = 1 := if_pos ⟨hstart, hrevoked⟩
        have hcount' := hs id'
        have hcount'' := hexactly id'
        omega
      · rw [(hothers id' hid).2] at hcount
        omega
    · intro hfresh id'
      by_cases hid : id' = id
      · subst hid
        have hnone := hfresh id' haudits
        have hbefore : gained start s id' = 0 := if_neg fun h => h.2 hnone
        have hcount := hs id'
        omega
      · obtain ⟨hrevoked, hsame⟩ := hothers id' hid
        unfold gained
        rw [hrevoked, hsame]
        exact hs id'

/-- No committed time of a revocation changes. -/
def RevocationsKept (s s' : SecurityTables) : Prop :=
  ∀ id at_, s.revokedAt id = some at_ → s'.revokedAt id = some at_

theorem SecurityStep.revocationsKept {s s' : SecurityTables} (h : SecurityStep start s s')
    (hfresh : ∀ id, s'.audits id = s.audits id + 1 → s.revokedAt id = none) :
    RevocationsKept s s' := by
  intro id at_ hrevoked
  cases h with
  | quiet _ hsame =>
    rw [hsame id]
    exact hrevoked
  | revoked id' _ _ _ haudits hothers =>
    by_cases hid : id = id'
    · subst hid
      rw [hfresh id haudits] at hrevoked
      cases hrevoked
    · rw [(hothers id hid).1]
      exact hrevoked

variable {scheme}

/-- The step commits a revocation of a credential whose row is revoked already, and the constraints let
the write pass. -/
def StaleRevocation (t : (securing scheme).Step) : Prop :=
  ∃ slot call began write events id,
    t.output = .answered slot call began (.commit write events) ∧
      (∃ event ∈ events, isRevocationOf id event = true) ∧
      t.before.shared.revokedAt id ≠ none ∧
      ∀ change, write = some change → ∃ after, t.before.shared.write change = .ok after

/-- A principal is returned for a credential that was usable when the call began. -/
def AuthenticatesUsable (t : (securing scheme).Step) : Prop :=
  ∀ slot token usedAt began principal,
    t.output = .returned slot (.authenticate token usedAt) began (.ok (.principal (some principal))) →
      Usable began principal usedAt

/-- The invariant of a run: every call in progress goes on safely. -/
abbrev Securely (start : SecurityTables) (c : (securing scheme).Config) : Prop :=
  (securing scheme).Coherent (fun _ _ => True) (fun s => Later start s) (fun _ => Later)
    (fun _ => SecurityStep start) (fun _ _ _ _ _ => True)
    (fun _ call began _ result => SecurityReturns call began result) c

theorem call_secures (call : SecurityCall) (s : SecurityTables) :
    (securing scheme).Goes (fun _ _ => True) (fun s => Later start s) (fun _ => Later)
      (fun _ => SecurityStep start) (fun _ _ _ _ _ => True)
      (fun _ call began _ result => SecurityReturns call began result) 0 call s
      ((securing scheme).program 0 call) s := by
  cases call with
  | authenticate token usedAt =>
    refine (securing scheme).safe_bind ((securing scheme).safe_mono (fun _ _ _ => trivial) ?_
      (fun _ _ h => h) (authenticate_secures token usedAt s)) ?_
    · intro error s₁ _ s₂ _ _ token' usedAt' principal _ hresult
      cases hresult
    · intro principal s₁ husable s₂ _ _ token' usedAt' principal' hcall hresult
      cases hcall
      cases hresult
      exact husable principal' rfl
  | revokeCredential accountId credentialId actor revokedAt =>
    refine (securing scheme).safe_bind ((securing scheme).safe_mono (fun _ _ _ => trivial) ?_
      (fun _ _ h => h) (revokeCredential_secures accountId credentialId actor revokedAt)) ?_
    · intro error s₁ _ s₂ _ _ token' usedAt' principal hcall
      cases hcall
    · intro _ s₁ _ s₂ _ _ token' usedAt' principal hcall
      cases hcall
  | revoke accountId actor revokedAt =>
    refine (securing scheme).safe_bind ((securing scheme).safe_mono (fun _ _ _ => trivial) ?_
      (fun _ _ h => h) (revoke_secures accountId actor revokedAt)) ?_
    · intro error s₁ _ s₂ _ _ token' usedAt' principal hcall
      cases hcall
    · intro _ s₁ _ s₂ _ _ token' usedAt' principal hcall
      cases hcall

theorem Securely.step {c : (securing scheme).Config} (hc : Securely start c)
    (i : (securing scheme).Input) :
    Securely start ((securing scheme).machine.step c i).2 ∧
      (securing scheme).Meets (fun _ => SecurityStep start) (fun _ _ _ _ _ => True)
        (fun _ call began _ result => SecurityReturns call began result)
        ((securing scheme).machine.fire c i) :=
  Coroutines.Coherent.step (fun _ s => Later.refl s) (fun _ _ _ _ => Later.trans)
    (fun _ _ _ hs h => ⟨hs.trans h.later, fun _ _ => h.later⟩) (fun _ call s _ _ => call_secures call s)
    hc fun _ _ _ _ _ _ _ _ _ => trivial

/-- What a step does to the tables. -/
theorem Securely.securityStep {c : (securing scheme).Config} (hc : Securely start c)
    (i : (securing scheme).Input) :
    SecurityStep start c.shared ((securing scheme).machine.step c i).2.shared := by
  have hmeets := (hc.step i).2
  unfold Coroutines.Meets at hmeets
  have hsame : ((securing scheme).machine.fire c i).after.shared = c.shared →
      SecurityStep start c.shared ((securing scheme).machine.step c i).2.shared := by
    intro h
    rw [show ((securing scheme).machine.step c i).2.shared = c.shared from h]
    exact .refl start c.shared
  split at hmeets
  · exact hsame hmeets.2
  · exact hmeets
  · exact hsame hmeets.2
  · exact hsame hmeets

theorem Securely.authenticates {c : (securing scheme).Config} (hc : Securely start c)
    (i : (securing scheme).Input) :
    AuthenticatesUsable ((securing scheme).machine.fire c i) := by
  intro slot token usedAt began principal houtput
  have hmeets := (hc.step i).2
  unfold Coroutines.Meets at hmeets
  rw [houtput] at hmeets
  exact hmeets.1 token usedAt principal rfl rfl

/-- A step adds an event of a revoked credential exactly if it is stale. -/
theorem Securely.stale_iff {c : (securing scheme).Config} (hc : Securely start c)
    (i : (securing scheme).Input) :
    ¬StaleRevocation ((securing scheme).machine.fire c i) ↔
      ∀ id, ((securing scheme).machine.step c i).2.shared.audits id = c.shared.audits id + 1 →
        c.shared.revokedAt id = none := by
  have hstep := hc.securityStep i
  constructor
  · intro hfresh id hcount
    by_contra hrevoked
    apply hfresh
    -- only an answered commit changes the events
    have hmeets := (hc.step i).2
    unfold Coroutines.Meets at hmeets
    have hchanged : ((securing scheme).machine.fire c i).after.shared ≠ c.shared := by
      intro hsame
      rw [show ((securing scheme).machine.step c i).2.shared = c.shared from hsame] at hcount
      omega
    split at hmeets
    · exact absurd hmeets.2 hchanged
    · rename_i slot call began statement houtput
      obtain ⟨choice, hserved⟩ := Coroutines.answered_serve houtput
      rw [hserved] at hcount
      cases statement with
      | commit write events =>
        cases hcommit : c.shared.commit write events with
        | error error =>
          rw [show ((securing scheme).serve (.commit write events) choice c.shared).2 = c.shared from
            congrArg Prod.snd (SecurityStatement.serve_commit_error choice hcommit)] at hcount
          omega
        | ok after =>
          rw [show ((securing scheme).serve (.commit write events) choice c.shared).2 = after from
            congrArg Prod.snd (SecurityStatement.serve_commit_ok choice hcommit)] at hcount
          refine ⟨slot, call, began, write, events, id, houtput, ?_, hrevoked, ?_⟩
          · by_contra hnone
            have hzero : events.countP (isRevocationOf id) = 0 := by
              rw [List.countP_eq_zero]
              exact fun event hevent htrue => hnone ⟨event, hevent, htrue⟩
            have hevents := commit_events hcommit
            unfold SecurityTables.audits at hcount
            rw [hevents, List.countP_append, hzero] at hcount
            omega
          · rintro change rfl
            unfold SecurityTables.commit at hcommit
            cases hwrite : c.shared.write change with
            | error error =>
              simp only [hwrite] at hcommit
              cases hcommit
            | ok after => exact ⟨after, hwrite⟩
      | account _ | credential _ | accountAgain _ _ | credentialAgain _ _ =>
        exact absurd hcount (Nat.ne_of_lt (Nat.lt_succ_self _))
    · exact absurd hmeets.2 hchanged
    · exact absurd hmeets hchanged
  · rintro hfresh ⟨slot, call, began, write, events, id, houtput, ⟨event, hevent, htrue⟩, hrevoked,
      hpasses⟩
    apply hrevoked
    apply hfresh
    obtain ⟨choice, hserved⟩ := Coroutines.answered_serve houtput
    obtain ⟨after, hcommit⟩ : ∃ after, c.shared.commit write events = .ok after := by
      unfold SecurityTables.commit
      cases write with
      | none => exact ⟨_, rfl⟩
      | some change =>
        obtain ⟨after, hafter⟩ := hpasses change rfl
        replace hafter : c.shared.write change = .ok after := hafter
        simp only [hafter]
        exact ⟨_, rfl⟩
    have hafter : ((securing scheme).machine.step c i).2.shared = after := by
      rw [hserved]
      exact congrArg Prod.snd (SecurityStatement.serve_commit_ok choice hcommit)
    have hmore : c.shared.audits id < after.audits id := by
      have hpos : 0 < events.countP (isRevocationOf id) := List.countP_pos_iff.mpr ⟨event, hevent, htrue⟩
      unfold SecurityTables.audits
      rw [commit_events hcommit, List.countP_append]
      omega
    rw [hafter] at hstep ⊢
    -- one step adds one event at most
    cases hstep with
    | quiet _ _ haudits =>
      rw [haudits id] at hmore
      exact absurd hmore (lt_irrefl _)
    | revoked id' _ _ _ haudits hothers =>
      by_cases hid : id = id'
      · subst hid
        exact haudits
      · rw [(hothers id hid).2] at hmore
        exact absurd hmore (lt_irrefl _)

variable (scheme start)

end

/-! ## 5. Two revocations of one credential -/

def deployAccount : ServiceAccount where
  id := 1
  key := "ci.deploy"
  name := "CI"
  permissions := [.requestDispatch]
  projectIds := [5]
  allProjects := false
  enabled := true
  createdAt := 0
  validKey := Eq.refl true

def deployCredential : CredentialRecord where
  credential :=
    { id := 2
      accountId := 1
      createdAt := 0
      expiresAt := none
      revokedAt := none
      lastUsedAt := none }
  tokenDigest := "sha256:4bb9c73f21b58cb0f54e68a9a7a1ecc20ce3d8fbcd5bc1ac37b8b1fb0ef3f6ac"
  dated := by
    unfold ServiceAccountCredential.Dated
    decide

/-- One account with one credential. -/
def oneCredential : SecurityTables where
  accounts := ⟨[(1, deployAccount)]⟩
  credentials := ⟨[(2, deployCredential)]⟩
  events := [.credentialIssued 1 2 none {} 0]
  credentialIds := by
    intro id record hrow
    obtain ⟨rfl, rfl⟩ : (2, deployCredential) = (id, record) :=
      (List.mem_singleton.mp (Dict.mem_entries_of_get? hrow)).symm ▸ rfl
    rfl

/-- Tokens whose parts nobody reads. -/
def blindScheme : TokenScheme where
  uuidOf _ := none
  digest _ := ""

/-- Rows stay in the identity map. -/
def keptChoice : (statement : SecurityStatement) → statement.Choice
  | .accountAgain .. | .credentialAgain .. => true
  | .account _ | .credential _ | .commit .. => ()

/-- Two administrators revoke the credential; both have read it before one of them commits. -/
def twoRevocations : List (securing blindScheme).Input :=
  let rounds (slot n : ℕ) : List (securing blindScheme).Input :=
    (List.replicate n [.resume slot, .answer slot keptChoice]).flatten
  .start 0 (.revokeCredential 1 2 none 60) :: .start 1 (.revokeCredential 1 2 none 61) ::
    (rounds 0 3 ++ rounds 1 3 ++ rounds 0 1 ++ rounds 1 1)

end JbOrchestrator.Security
