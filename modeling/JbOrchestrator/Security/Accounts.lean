import JbOrchestrator.Api.Security
import JbOrchestrator.Domain.Aggregates
import JbOrchestrator.Lib.Cursors
import JbOrchestrator.Lib.Like
import Mathlib.Data.List.Count
import Mathlib.Data.Prod.Lex

/-!
# Accounts — service accounts, their credentials and the two listings

The repository's queries with the order of the database's collation, the summary of an account's
credentials, and the listings of `SecurityService`, of which one reads the table in pages and keeps the
accounts that need attention.
-/

open Lib

namespace JbOrchestrator.Security

open Domain Api

/-! ## 1. Records -/

/-- A character of an account key after the first. -/
def isAccountKeyChar (c : Char) : Bool :=
  ('a' ≤ c && c ≤ 'z') || ('0' ≤ c && c ≤ '9') || c = '.' || c = '_' || c = '-'

/-- `ACCOUNT_KEY_PATTERN.fullmatch`. -/
def matchesAccountKey (key : String) : Bool :=
  match key.toList with
  | [] => false
  | first :: rest => ('a' ≤ first && first ≤ 'z') && (2 ≤ rest.length && rest.length ≤ 63) &&
      rest.all isAccountKeyChar

structure ServiceAccount where
  id : UUID
  key : String
  name : String
  permissions : List ApiPermission
  projectIds : List UUID
  allProjects : Bool
  enabled : Bool
  createdAt : Instant
  /-- What `__post_init__` has checked. -/
  validKey : matchesAccountKey key = true

/-- The constructor with `__post_init__`. -/
def ServiceAccount.create (id : UUID) (key name : String) (permissions : List ApiPermission)
    (projectIds : List UUID) (allProjects enabled : Bool) (createdAt : Instant) :
    Except DomainError ServiceAccount :=
  if hkey : matchesAccountKey (Text.strip key) = true then
    if (Text.strip name).isEmpty ∨ 255 < (Text.strip name).length then
      .error (.domainValidationError "service account name must contain 1-255 characters")
    else if permissions = [] then
      .error (.domainValidationError "service account requires at least one permission")
    else if allProjects = false ∧ projectIds = [] then
      .error (.domainValidationError "service account requires a project scope")
    else
      .ok ⟨id, Text.strip key, Text.strip name, permissions, projectIds, allProjects, enabled,
        createdAt, hkey⟩
  else .error (.domainValidationError "service account key is invalid")

structure ServiceAccountCredential where
  id : UUID
  accountId : UUID
  createdAt : Instant
  expiresAt : Option Instant
  revokedAt : Option Instant
  lastUsedAt : Option Instant

def ServiceAccountCredential.isActive (credential : ServiceAccountCredential) (at_ : Instant) : Bool :=
  credential.revokedAt.isNone && credential.expiresAt.all fun expiresAt => decide (at_ < expiresAt)

/-- The two tables, with what their primary keys and the unique key of an account ensure. -/
structure AccountTables where
  accounts : List ServiceAccount
  credentials : List ServiceAccountCredential
  uniqueKeys : (accounts.map fun account => account.key).Nodup
  uniqueIds : (accounts.map fun account => account.id).Nodup
  uniqueCredentials : (credentials.map fun credential => credential.id).Nodup

/-! ## 2. Queries -/

section Queries

variable {κ : Type} [LinearOrder κ] (collate : String → κ)

/-- `key > after_key`, in the order of the collation. -/
def isAfter (afterKey : Option String) (account : ServiceAccount) : Bool :=
  (afterKey.map collate).all fun after => decide (after < collate account.key)

/-- `key.startswith(key_prefix)`, which is `key LIKE key_prefix || '%'`. -/
def matchesPrefix (keyPrefix : Option String) (account : ServiceAccount) : Bool :=
  keyPrefix.all fun start => like (start.toList ++ ['%']) account.key.toList

def matchesEnabled (enabled : Option Bool) (account : ServiceAccount) : Bool :=
  enabled.all fun enabled => account.enabled = enabled

/-- `list` of the accounts. -/
def listAccounts (accounts : List ServiceAccount) (enabled : Option Bool)
    (keyPrefix afterKey : Option String) (limit : ℕ) : List ServiceAccount :=
  (sortBy (fun account => collate account.key) (accounts.filter fun account =>
    matchesEnabled enabled account && matchesPrefix keyPrefix account &&
      isAfter collate afterKey account)).take limit

end Queries

/-- Where a credential stands among those of its account, newest first. -/
def ServiceAccountCredential.position (credential : ServiceAccountCredential) : ℤᵒᵈ ×ₗ ℕ :=
  toLex (OrderDual.toDual credential.createdAt, credential.id)

def listForAccount (credentials : List ServiceAccountCredential) (accountId : UUID) :
    List ServiceAccountCredential :=
  sortBy ServiceAccountCredential.position
    (credentials.filter fun credential => credential.accountId = accountId)

def listForAccounts (credentials : List ServiceAccountCredential) (accountIds : List UUID) :
    List ServiceAccountCredential :=
  if accountIds = [] then []
  else sortBy (fun credential => toLex (credential.accountId, credential.position))
    (credentials.filter fun credential => credential.accountId ∈ accountIds)

/-- `credentials_by_account[account_id]`, filled from the rows of one query. -/
def credentialsByAccount (credentials : List ServiceAccountCredential) (accountId : UUID) :
    List ServiceAccountCredential :=
  credentials.filter fun credential => credential.accountId = accountId

/-! ## 3. Summaries -/

structure CredentialInventorySummary where
  total : ℕ
  active : ℕ
  usable : ℕ
  expired : ℕ
  revoked : ℕ
  latestCreatedAt : Option Instant
  lastUsedAt : Option Instant
  deriving DecidableEq

/-- `_credential_summary`. -/
def credentialSummary (account : ServiceAccount) (credentials : List ServiceAccountCredential)
    (checkedAt : Instant) : CredentialInventorySummary :=
  let active := credentials.countP fun credential => credential.isActive checkedAt
  { total := credentials.length
    active := active
    usable := if account.enabled then active else 0
    expired := credentials.countP fun credential => credential.revokedAt.isNone &&
      credential.expiresAt.any fun expiresAt => decide (expiresAt ≤ checkedAt)
    revoked := credentials.countP fun credential => credential.revokedAt.isSome
    latestCreatedAt := (credentials.map fun credential => credential.createdAt).max?
    lastUsedAt := (credentials.filterMap fun credential => credential.lastUsedAt).max? }

structure ServiceAccountInventory where
  account : ServiceAccount
  credentialSummary : CredentialInventorySummary

/-- `_account_inventory`. -/
def accountInventory (account : ServiceAccount) (credentials : List ServiceAccountCredential)
    (checkedAt : Instant) : ServiceAccountInventory :=
  ⟨account, Security.credentialSummary account credentials checkedAt⟩

inductive CredentialReadinessStatus where
  | healthy | expiringSoon | expired | noUsableCredential | accountDisabled
  deriving DecidableEq, Repr

structure CredentialReadiness where
  account : ServiceAccount
  status : CredentialReadinessStatus
  credentialSummary : CredentialInventorySummary
  nextExpiresAt : Option Instant
  checkedAt : Instant
  warningSeconds : ℤ

/-- `_credential_readiness`. -/
def credentialReadiness (account : ServiceAccount) (credentials : List ServiceAccountCredential)
    (checkedAt : Instant) (warningSeconds : ℤ) : CredentialReadiness :=
  let summary := Security.credentialSummary account credentials checkedAt
  let nextExpiresAt := ((credentials.filter fun credential =>
    credential.isActive checkedAt).filterMap fun credential => credential.expiresAt).min?
  { account := account
    status :=
      if account.enabled = false then .accountDisabled
      else if summary.usable = 0 ∧ 0 < summary.expired then .expired
      else if summary.usable = 0 then .noUsableCredential
      else if nextExpiresAt.any fun next => decide (next - checkedAt ≤ 1000000 * warningSeconds) then
        .expiringSoon
      else .healthy
    credentialSummary := summary
    nextExpiresAt := nextExpiresAt
    checkedAt := checkedAt
    warningSeconds := warningSeconds }

/-! ## 4. The listings -/

structure ValueError where
  message : String
  deriving DecidableEq, Repr

/-- `limit` of the pages that `list_credential_readiness` reads. -/
def pageLimit : ℕ := 500

section Listings

variable {κ : Type} [LinearOrder κ] (collate : String → κ) (tables : AccountTables)

/-- `list_account_inventory`. -/
def listAccountInventory (enabled : Option Bool) (keyPrefix afterKey : Option String) (limit : ℕ)
    (checkedAt : Instant) : List ServiceAccountInventory :=
  let accounts := listAccounts collate tables.accounts enabled keyPrefix afterKey limit
  let credentials := listForAccounts tables.credentials (accounts.map fun account => account.id)
  accounts.map fun account =>
    accountInventory account (credentialsByAccount credentials account.id) checkedAt

/-- The loop over the accounts of a page; the flag says that it has returned. -/
def collectReadiness (inspect : ServiceAccount → CredentialReadiness) (issuesOnly : Bool) (limit : ℕ) :
    List ServiceAccount → List CredentialReadiness → List CredentialReadiness × Bool
  | [], results => (results, false)
  | account :: accounts, results =>
    if issuesOnly = false ∨ (inspect account).status ≠ .healthy then
      if (results ++ [inspect account]).length = limit then (results ++ [inspect account], true)
      else collectReadiness inspect issuesOnly limit accounts (results ++ [inspect account])
    else collectReadiness inspect issuesOnly limit accounts results

/-- The last row of a page stands behind the cursor and not behind itself. -/
theorem countP_isAfter_lt {enabled : Option Bool} {keyPrefix cursor : Option String} {limit : ℕ}
    {last : ServiceAccount}
    (h : (listAccounts collate tables.accounts enabled keyPrefix cursor limit).getLast? = some last) :
    tables.accounts.countP (isAfter collate (some last.key)) <
      tables.accounts.countP (isAfter collate cursor) := by
  have hpage := List.mem_of_mem_take (List.mem_of_getLast? h)
  rw [SortBy.mem_iff, List.mem_filter, Bool.and_eq_true] at hpage
  obtain ⟨hlast, -, hafter⟩ := hpage
  have hmem : last ∈ tables.accounts.filter (isAfter collate cursor) :=
    List.mem_filter.mpr ⟨hlast, hafter⟩
  have hself : isAfter collate (some last.key) last = false := by
    simp [isAfter]
  have hnarrow : tables.accounts.countP (isAfter collate (some last.key)) =
      (tables.accounts.filter (isAfter collate cursor)).countP
        (isAfter collate (some last.key)) := by
    rw [List.countP_filter]
    apply List.countP_congr
    intro account _
    rw [Bool.and_eq_true, iff_self_and]
    intro hbehind
    -- the order of the collation is transitive
    unfold isAfter at hafter hbehind ⊢
    simp only [Option.map_some, Option.all_some, decide_eq_true_eq] at hbehind
    rw [Option.all_eq_true] at hafter ⊢
    intro after hcursor
    exact decide_eq_true (lt_trans (of_decide_eq_true (hafter after hcursor)) hbehind)
  rw [hnarrow, List.countP_eq_length_filter (p := isAfter collate cursor)]
  exact List.countP_lt_length_iff.mpr ⟨last, hmem, hself⟩

/-- The loop over the pages. -/
def readinessPages (checkedAt : Instant) (warningSeconds : ℤ) (issuesOnly : Bool)
    (keyPrefix : Option String) (limit : ℕ) (cursor : Option String)
    (results : List CredentialReadiness) : List CredentialReadiness :=
  if results.length < limit then
    let accounts := listAccounts collate tables.accounts none keyPrefix cursor pageLimit
    let credentials := listForAccounts tables.credentials (accounts.map fun account => account.id)
    match _h : accounts.getLast? with
    | none => results
    | some last =>
      match collectReadiness (fun account => credentialReadiness account
          (credentialsByAccount credentials account.id) checkedAt warningSeconds) issuesOnly limit
          accounts results with
      | (results, true) => results
      | (results, false) =>
        if accounts.length < pageLimit then results
        else readinessPages checkedAt warningSeconds issuesOnly keyPrefix limit (some last.key) results
  else results
termination_by tables.accounts.countP (isAfter collate cursor)
decreasing_by exact countP_isAfter_lt collate tables _h

/-- `list_credential_readiness`. -/
def listCredentialReadiness (warningSeconds : ℤ) (issuesOnly : Bool)
    (keyPrefix afterKey : Option String) (limit : ℕ) (checkedAt : Instant) :
    Except ValueError (List CredentialReadiness) :=
  if warningSeconds ≤ 0 then
    .error ⟨"credential readiness warning must be greater than zero"⟩
  else if limit ≤ 0 then
    .error ⟨"credential readiness limit must be greater than zero"⟩
  else .ok (readinessPages collate tables checkedAt warningSeconds issuesOnly keyPrefix limit afterKey [])

end Listings

end JbOrchestrator.Security
