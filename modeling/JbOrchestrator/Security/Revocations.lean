import JbOrchestrator.Application.Records
import JbOrchestrator.Lib.Coroutines
import JbOrchestrator.Lib.Dict
import JbOrchestrator.Security.Accounts

/-!
# Revocations — authentication and the end of credentials and accounts

`authenticate`, `revoke_credential` and `revoke` of `SecurityService`, statement by statement.  A read
locks nothing, and the changes of a call become visible with its commit.
-/

open Lib

namespace JbOrchestrator.Security

open Domain Api Application

/-! ## 1. Tables -/

/-- The check constraints of the table, which are those of `__post_init__`. -/
def ServiceAccountCredential.Dated (credential : ServiceAccountCredential) : Prop :=
  (∀ expiresAt ∈ credential.expiresAt, credential.createdAt < expiresAt) ∧
    (∀ revokedAt ∈ credential.revokedAt, credential.createdAt ≤ revokedAt) ∧
      ∀ lastUsedAt ∈ credential.lastUsedAt, credential.createdAt ≤ lastUsedAt

structure CredentialRecord where
  credential : ServiceAccountCredential
  tokenDigest : String
  dated : credential.Dated

/-- `_actor_payload`. -/
structure ActorPayload where
  actorAccountId : Option UUID := none
  actorCredentialId : Option UUID := none
  deriving DecidableEq, Repr

/-- The audit events of the accounts, in the order of the ledger. -/
inductive AuditEvent where
  | credentialIssued (accountId credentialId : UUID) (expiresAt : Option Instant)
      (actor : ActorPayload) (occurredAt : Instant)
  | credentialRevoked (accountId credentialId : UUID) (expiresAt : Option Instant)
      (actor : ActorPayload) (occurredAt : Instant)
  | revoked (accountId : UUID) (actor : ActorPayload) (occurredAt : Instant)
  deriving DecidableEq, Repr

/-- The committed rows, under their primary keys. -/
structure SecurityTables where
  accounts : Dict UUID ServiceAccount
  credentials : Dict UUID CredentialRecord
  events : List AuditEvent
  credentialIds : ∀ id record, credentials.get? id = some record → record.credential.id = id

/-- What a call changes in a row. -/
inductive SecurityWrite where
  | disable (accountId : UUID)
  | revoke (credentialId : UUID) (revokedAt : Instant)
  | markUsed (credentialId : UUID) (usedAt : Instant)
  deriving DecidableEq, Repr

namespace SecurityTables

variable (tables : SecurityTables)

/-- The row of a credential that is there is replaced. -/
def putCredential (id : UUID) (record : CredentialRecord) (h : record.credential.id = id) :
    SecurityTables where
  accounts := tables.accounts
  credentials := tables.credentials.set id record
  events := tables.events
  credentialIds := by
    intro id' record' hrecord
    rw [Dict.get?_set] at hrecord
    split at hrecord
    · rename_i hid
      obtain rfl := Option.some.inj hrecord
      rw [h, hid]
    · exact tables.credentialIds id' record' hrecord

/-- An update of one row; the constraints are checked. -/
def write : SecurityWrite → Except ServiceError SecurityTables
  | .disable accountId =>
    match tables.accounts.get? accountId with
    | none => .error .staleDataError
    | some account =>
      .ok { tables with accounts := tables.accounts.set accountId { account with enabled := false } }
  | .revoke credentialId revokedAt =>
    match hrow : tables.credentials.get? credentialId with
    | none => .error .staleDataError
    | some record =>
      if h : record.credential.createdAt ≤ revokedAt then
        .ok (tables.putCredential credentialId
          { record with
            credential := { record.credential with revokedAt := some revokedAt }
            dated := ⟨record.dated.1, fun _ hmem => Option.some.inj hmem ▸ h, record.dated.2.2⟩ }
          (tables.credentialIds credentialId record hrow))
      else .error .integrityError
  | .markUsed credentialId usedAt =>
    match hrow : tables.credentials.get? credentialId with
    | none => .error .staleDataError
    | some record =>
      if h : record.credential.createdAt ≤ usedAt then
        .ok (tables.putCredential credentialId
          { record with
            credential := { record.credential with lastUsedAt := some usedAt }
            dated := ⟨record.dated.1, record.dated.2.1, fun _ hmem => Option.some.inj hmem ▸ h⟩ }
          (tables.credentialIds credentialId record hrow))
      else .error .integrityError

/-- The flush of one changed row, and the commit. -/
def commit (write : Option SecurityWrite) (events : List AuditEvent) :
    Except ServiceError SecurityTables :=
  match write with
  | none => .ok { tables with events := tables.events ++ events }
  | some write => (tables.write write).map fun tables =>
      { tables with events := tables.events ++ events }

end SecurityTables

/-! ## 2. Statements -/

inductive SecurityStatement where
  | account (id : UUID)
  | credential (id : UUID)
  /-- `session.get` of a row that the session has loaded before -/
  | accountAgain (id : UUID) (loaded : ServiceAccount)
  | credentialAgain (id : UUID) (loaded : CredentialRecord)
  | commit (write : Option SecurityWrite) (events : List AuditEvent)

namespace SecurityStatement

abbrev Reply : SecurityStatement → Type
  | account _ | accountAgain .. => Option ServiceAccount
  | credential _ | credentialAgain .. => Option CredentialRecord
  | commit .. => Except ServiceError Unit

/-- The identity map holds its rows weakly: a row that was loaded is still there, or it is read once
more. -/
abbrev Choice : SecurityStatement → Type
  | accountAgain .. | credentialAgain .. => Bool
  | _ => Unit

def serve : (statement : SecurityStatement) → statement.Choice → SecurityTables →
    statement.Reply × SecurityTables
  | account id, _, tables => (tables.accounts.get? id, tables)
  | credential id, _, tables => (tables.credentials.get? id, tables)
  | accountAgain id loaded, kept, tables =>
    (bif kept then some loaded else tables.accounts.get? id, tables)
  | credentialAgain id loaded, kept, tables =>
    (bif kept then some loaded else tables.credentials.get? id, tables)
  | commit write events, _, tables =>
    match tables.commit write events with
    | .ok tables => (.ok (), tables)
    | .error error => (.error error, tables)

theorem serve_account (id : UUID) (choice : Unit) (tables : SecurityTables) :
    (account id).serve choice tables = (tables.accounts.get? id, tables) := rfl

theorem serve_credential (id : UUID) (choice : Unit) (tables : SecurityTables) :
    (credential id).serve choice tables = (tables.credentials.get? id, tables) := rfl

theorem serve_commit_ok {write : Option SecurityWrite} {events : List AuditEvent} (choice : Unit)
    {tables tables' : SecurityTables} (h : tables.commit write events = .ok tables') :
    (commit write events).serve choice tables = (.ok (), tables') := by
  simp only [serve, h]

theorem serve_commit_error {write : Option SecurityWrite} {events : List AuditEvent}
    (choice : Unit) {tables : SecurityTables} {error : ServiceError}
    (h : tables.commit write events = .error error) :
    (commit write events).serve choice tables = (.error error, tables) := by
  simp only [serve, h]

end SecurityStatement

/-! ## 3. The service -/

structure AuthenticatedPrincipal extends ApiPrincipal where
  accountId : UUID
  accountKey : String
  credentialId : Option UUID := none

def actorPayload (actor : Option AuthenticatedPrincipal) : ActorPayload where
  actorAccountId := actor.map fun actor => actor.accountId
  actorCredentialId := actor.bind fun actor => actor.credentialId

/-- What `UUID(hex=...)` and SHA-256 make of the parts of a token. -/
structure TokenScheme where
  uuidOf : String → Option UUID
  digest : String → String

/-- `_credential_id`. -/
def TokenScheme.credentialId (scheme : TokenScheme) (token : String) : Option UUID :=
  let front := token.toList.takeWhile (· ≠ '.')
  let secret := token.toList.drop (front.length + 1)
  if token.toList.length ≤ front.length ∨ front.take 5 ≠ "jbsa_".toList ∨ secret = [] then none
  else scheme.uuidOf (String.ofList (front.drop 5))

inductive SecurityCall where
  | authenticate (token : String) (usedAt : Instant)
  | revokeCredential (accountId credentialId : UUID) (actor : Option AuthenticatedPrincipal)
      (revokedAt : Instant)
  | revoke (accountId : UUID) (actor : Option AuthenticatedPrincipal) (revokedAt : Instant)

inductive SecurityResult where
  | principal (principal : Option AuthenticatedPrincipal)
  | done

abbrev Securing := Program SecurityStatement SecurityStatement.Reply ServiceError

namespace SecurityService

def ask (statement : SecurityStatement) : Securing statement.Reply := Program.perform statement

/-- A commit that fails raises. -/
def commit (write : Option SecurityWrite) (events : List AuditEvent) : Securing Unit := do
  let reply ← ask (.commit write events)
  Program.ofExcept reply

/-- `mark_used`, on the row that `session.get` has found. -/
def markUsed (row : Option CredentialRecord) (usedAt : Instant) : Option SecurityWrite :=
  match row with
  | none => none
  | some record =>
    if record.credential.lastUsedAt.all fun previous => previous < usedAt then
      some (.markUsed record.credential.id usedAt)
    else none

/-- The repository's `revoke`, on the row that `session.get` has found. -/
def revokeRow (row : Option CredentialRecord) (revokedAt : Instant) : Option SecurityWrite :=
  match row with
  | none => none
  | some record =>
    if record.credential.revokedAt.isNone then some (.revoke record.credential.id revokedAt) else none

def toPrincipal (account : ServiceAccount) (credential : ServiceAccountCredential) :
    AuthenticatedPrincipal where
  accountId := account.id
  accountKey := account.key
  permissions := account.permissions
  projectIds := account.projectIds
  allProjects := account.allProjects
  credentialId := some credential.id

/-- `authenticate` behind the checks of the credential. -/
def admitAccount (record : CredentialRecord) (usedAt : Instant) :
    Securing (Option AuthenticatedPrincipal) := do
  let account ← ask (.account record.credential.accountId)
  match account with
  | none => pure none
  | some account =>
    if account.enabled = false then pure none
    else do
      let row ← ask (.credentialAgain record.credential.id record)
      commit (markUsed row usedAt) []
      pure (some (toPrincipal account record.credential))

def authenticate (scheme : TokenScheme) (token : String) (usedAt : Instant) :
    Securing (Option AuthenticatedPrincipal) :=
  match scheme.credentialId token with
  | none => pure none
  | some credentialId => do
    let row ← ask (.credential credentialId)
    match row with
    | none => pure none
    | some record =>
      if record.credential.isActive usedAt = false then pure none
      else if record.tokenDigest ≠ scheme.digest token then pure none
      else admitAccount record usedAt

/-- `revoke_credential` for a credential that is not revoked. -/
def revokeActive (accountId credentialId : UUID) (record : CredentialRecord)
    (actor : Option AuthenticatedPrincipal) (revokedAt : Instant) : Securing Unit := do
  let row ← ask (.credentialAgain credentialId record)
  commit (revokeRow row revokedAt) [.credentialRevoked accountId record.credential.id
    record.credential.expiresAt (actorPayload actor) revokedAt]

def revokeCredential (accountId credentialId : UUID) (actor : Option AuthenticatedPrincipal)
    (revokedAt : Instant) : Securing Unit := do
  let account ← ask (.account accountId)
  let _ ← Program.ofOption (notFound "service account" accountId) account
  let row ← ask (.credential credentialId)
  let record ← Program.ofOption (notFound "service account credential" credentialId)
    (row.filter fun record => record.credential.accountId = accountId)
  if record.credential.revokedAt.isSome then pure ()
  else revokeActive accountId credentialId record actor revokedAt

def revoke (accountId : UUID) (actor : Option AuthenticatedPrincipal) (revokedAt : Instant) :
    Securing Unit := do
  let row ← ask (.account accountId)
  let account ← Program.ofOption (notFound "service account" accountId) row
  if account.enabled = false then pure ()
  else do
    let row ← ask (.accountAgain accountId account)
    commit (row.bind fun account => if account.enabled then some (.disable accountId) else none)
      [.revoked accountId (actorPayload actor) revokedAt]

end SecurityService

/-- Any number of calls at a time. -/
def securing (scheme : TokenScheme) :
    Coroutines SecurityStatement SecurityStatement.Reply SecurityTables ServiceError ℕ SecurityCall
      SecurityResult where
  Choice := SecurityStatement.Choice
  serve := SecurityStatement.serve
  admits _ _ := true
  program _ call :=
    match call with
    | .authenticate token usedAt =>
      SecurityService.authenticate scheme token usedAt >>= fun principal => pure (.principal principal)
    | .revokeCredential accountId credentialId actor revokedAt =>
      SecurityService.revokeCredential accountId credentialId actor revokedAt >>= fun _ => pure .done
    | .revoke accountId actor revokedAt =>
      SecurityService.revoke accountId actor revokedAt >>= fun _ => pure .done

end JbOrchestrator.Security
