import JbOrchestrator.Security.Accounts
import Mathlib.Data.String.Basic

/-!
# Inventory — what the listings of the service accounts answer

Both listings read the table in the order of the keys behind a cursor; the one that keeps the accounts
with issues reads it in pages, and its answer does not depend on where these end.  A listing is right
exactly when the pattern of its prefix selects nothing else than the prefix does.
-/

open Lib

namespace JbOrchestrator.Security

open Domain Api

/-! ## 1. Credentials of an account -/

section

variable {credentials : List ServiceAccountCredential}

theorem positions_nodup (h : (credentials.map fun credential => credential.id).Nodup)
    (p : ServiceAccountCredential → Bool) :
    ((credentials.filter p).map ServiceAccountCredential.position).Nodup := by
  -- the identifier is the last part of a position
  apply List.Nodup.of_map fun position => (ofLex position).2
  rw [List.map_map]
  exact (List.filter_sublist.map _).nodup h

/-- The rows of one query, taken apart by account, are those of a query for each account. -/
theorem credentialsByAccount_eq (h : (credentials.map fun credential => credential.id).Nodup)
    {accountIds : List UUID} {accountId : UUID} (hid : accountId ∈ accountIds) :
    credentialsByAccount (listForAccounts credentials accountIds) accountId =
      listForAccount credentials accountId := by
  have hne : accountIds ≠ [] := List.ne_nil_of_mem hid
  have hkeys : ∀ p : ServiceAccountCredential → Bool, ((credentials.filter p).map fun credential =>
      toLex (credential.accountId, credential.position)).Nodup := by
    intro p
    apply List.Nodup.of_map fun position => (ofLex position).2
    rw [List.map_map]
    exact positions_nodup h p
  have hselected : (credentials.filter fun credential => credential.accountId ∈ accountIds).filter
      (fun credential => credential.accountId = accountId) =
        credentials.filter fun credential => credential.accountId = accountId := by
    rw [List.filter_filter]
    apply List.filter_congr
    intro credential _
    rw [Bool.eq_iff_iff]
    simp only [Bool.and_eq_true, decide_eq_true_eq]
    constructor
    · exact fun hboth => hboth.1
    · intro hsame
      exact ⟨hsame, hsame ▸ hid⟩
  unfold credentialsByAccount listForAccounts listForAccount
  rw [if_neg hne, SortBy.filter (hkeys _), hselected]
  -- both are in the order of the account's credentials
  refine List.Perm.eq_of_pairwise ?_ (SortBy.pairwise (hkeys _)) ?_
    ((SortBy.perm _).trans (SortBy.perm _).symm)
  · intro a b _ _ hab hba
    exact absurd hab (lt_asymm hba)
  · apply (SortBy.pairwise (positions_nodup h _)).imp_of_mem
    intro a b ha hb hlt
    have hsame : a.accountId = b.accountId := by
      rw [SortBy.mem_iff, List.mem_filter, decide_eq_true_eq] at ha hb
      exact ha.2.trans hb.2.symm
    rw [Prod.Lex.toLex_lt_toLex]
    exact .inr ⟨hsame, hlt⟩

/-- Every credential is active, expired or revoked, and one of them only. -/
theorem credentialSummary_total (account : ServiceAccount)
    (credentials : List ServiceAccountCredential) (checkedAt : Instant) :
    (credentialSummary account credentials checkedAt).active +
        (credentialSummary account credentials checkedAt).expired +
        (credentialSummary account credentials checkedAt).revoked =
      (credentialSummary account credentials checkedAt).total := by
  unfold credentialSummary
  dsimp only
  induction credentials with
  | nil => rfl
  | cons credential credentials ih =>
    simp only [List.countP_cons, List.length_cons]
    have hone : (if credential.isActive checkedAt = true then 1 else 0) +
        (if (credential.revokedAt.isNone && credential.expiresAt.any fun expiresAt =>
          decide (expiresAt ≤ checkedAt)) = true then 1 else 0) +
        (if credential.revokedAt.isSome = true then 1 else 0) = 1 := by
      unfold ServiceAccountCredential.isActive
      cases credential.revokedAt with
      | some revokedAt => simp
      | none =>
        cases credential.expiresAt with
        | none => simp
        | some expiresAt => by_cases hexpired : expiresAt ≤ checkedAt <;> simp [hexpired]
    omega

end

/-! ## 2. Pages of accounts -/

section

variable {κ : Type} [LinearOrder κ] {collate : String → κ} {tables : AccountTables}
  {enabled : Option Bool} {keyPrefix cursor : Option String} {limit : ℕ}

/-- The key that the listings are ordered by. -/
def sortKey (collate : String → κ) (account : ServiceAccount) : κ := collate account.key

omit [LinearOrder κ] in
theorem sortKeys_nodup (hcollate : Function.Injective collate) (tables : AccountTables) :
    (tables.accounts.map (sortKey collate)).Nodup := by
  have hkeys := tables.uniqueKeys.map hcollate
  rw [List.map_map] at hkeys
  exact hkeys

theorem listAccounts_eq (accounts : List ServiceAccount) :
    listAccounts collate accounts enabled keyPrefix cursor limit =
      (following (sortKey collate) (cursor.map collate) (accounts.filter fun account =>
        matchesEnabled enabled account && matchesPrefix keyPrefix account)).take limit := by
  unfold listAccounts following
  rw [List.filter_filter]
  congr 2
  apply List.filter_congr
  intro account _
  rw [Bool.and_comm]
  rfl

/-! ## 3. The loops of `list_credential_readiness` -/

/-- What `issues_only` keeps. -/
def isKept (issuesOnly : Bool) (readiness : CredentialReadiness) : Bool :=
  issuesOnly = false || readiness.status ≠ .healthy

theorem collectReadiness_eq (inspect : ServiceAccount → CredentialReadiness) (issuesOnly : Bool)
    (accounts : List ServiceAccount) {results : List CredentialReadiness}
    (hlimit : results.length < limit) :
    collectReadiness inspect issuesOnly limit accounts results =
      ((results ++ (accounts.map inspect).filter (isKept issuesOnly)).take limit,
        decide (limit ≤ results.length + ((accounts.map inspect).filter (isKept issuesOnly)).length)) := by
  induction accounts generalizing results with
  | nil =>
    have hopen : ¬limit ≤ results.length := not_le.mpr hlimit
    simp [collectReadiness, List.take_of_length_le hlimit.le, hopen]
  | cons account accounts ih =>
    unfold collectReadiness
    by_cases hkept : issuesOnly = false ∨ (inspect account).status ≠ .healthy
    · have hkept' : isKept issuesOnly (inspect account) = true := by
        simpa [isKept] using hkept
      rw [if_pos hkept, List.map_cons, List.filter_cons_of_pos hkept', List.length_cons]
      by_cases hfull : (results ++ [inspect account]).length = limit
      · have hdone : limit ≤ results.length +
            (((accounts.map inspect).filter (isKept issuesOnly)).length + 1) := by
          rw [List.length_append, List.length_singleton] at hfull
          omega
        have htake : (results ++ inspect account ::
            (accounts.map inspect).filter (isKept issuesOnly)).take limit =
              results ++ [inspect account] := by
          rw [List.append_cons]
          exact List.take_left' hfull
        rw [if_pos hfull, decide_eq_true hdone, htake]
      · rw [if_neg hfull]
        rw [List.length_append, List.length_singleton] at hfull
        rw [ih (by rw [List.length_append, List.length_singleton]; omega), ← List.append_cons,
          List.length_append, List.length_singleton]
        congr 2
        rw [eq_iff_iff]
        omega
    · have hkept' : ¬isKept issuesOnly (inspect account) = true := by
        simpa [isKept] using hkept
      rw [if_neg hkept, List.map_cons, List.filter_cons_of_neg hkept']
      exact ih hlimit

/-- What an account's own credentials say, whatever page the account is read on. -/
def inspectAccount (tables : AccountTables) (checkedAt : Instant) (warningSeconds : ℤ)
    (account : ServiceAccount) : CredentialReadiness :=
  credentialReadiness account (listForAccount tables.credentials account.id) checkedAt warningSeconds

theorem inspect_eq (accounts : List ServiceAccount) (checkedAt : Instant) (warningSeconds : ℤ) :
    (accounts.map fun account => credentialReadiness account (credentialsByAccount
      (listForAccounts tables.credentials (accounts.map fun account => account.id)) account.id)
        checkedAt warningSeconds) =
      accounts.map (inspectAccount tables checkedAt warningSeconds) := by
  apply List.map_congr_left
  intro account haccount
  rw [credentialsByAccount_eq tables.uniqueCredentials (List.mem_map_of_mem haccount)]
  rfl

/-- The loop answers with the accounts behind its cursor, whatever pages it reads them by. -/
theorem readinessPages_eq (hcollate : Function.Injective collate) (checkedAt : Instant)
    (warningSeconds : ℤ) (issuesOnly : Bool) {results : List CredentialReadiness}
    (hlimit : results.length < limit) :
    readinessPages collate tables checkedAt warningSeconds issuesOnly keyPrefix limit cursor results =
      (results ++ ((following (sortKey collate) (cursor.map collate)
        (tables.accounts.filter (matchesPrefix keyPrefix))).map
          (inspectAccount tables checkedAt warningSeconds)).filter (isKept issuesOnly)).take limit := by
  have hnodup : ((tables.accounts.filter (matchesPrefix keyPrefix)).map (sortKey collate)).Nodup :=
    (List.filter_sublist.map _).nodup (sortKeys_nodup hcollate tables)
  have hpage : ∀ cursor, listAccounts collate tables.accounts none keyPrefix cursor pageLimit =
      (following (sortKey collate) (cursor.map collate)
        (tables.accounts.filter (matchesPrefix keyPrefix))).take pageLimit := by
    intro cursor
    rw [listAccounts_eq]
    rfl
  -- by induction on the number of accounts behind the cursor
  generalize hn : (following (sortKey collate) (cursor.map collate)
    (tables.accounts.filter (matchesPrefix keyPrefix))).length = n
  induction n using Nat.strong_induction_on generalizing cursor results with
  | _ n ih =>
    unfold readinessPages
    rw [if_pos hlimit]
    dsimp only
    split
    · rename_i hnone
      rw [List.getLast?_eq_none_iff, hpage, List.take_eq_nil_iff, or_iff_right (by decide)] at hnone
      rw [hnone]
      simp [List.take_of_length_le hlimit.le]
    · rename_i last hlast
      obtain ⟨front, hfront⟩ := List.getLast?_eq_some_iff.mp hlast
      have hsplit := List.take_append_drop pageLimit (following (sortKey collate)
        (cursor.map collate) (tables.accounts.filter (matchesPrefix keyPrefix)))
      rw [← hpage] at hsplit
      rw [collectReadiness_eq _ _ _ hlimit, inspect_eq]
      -- the rows behind the cursor are the page and the rows behind its last row
      generalize hrest : List.drop pageLimit (following (sortKey collate) (cursor.map collate)
        (tables.accounts.filter (matchesPrefix keyPrefix))) = rest at hsplit
      have hplaces : following (sortKey collate) (cursor.map collate)
          (tables.accounts.filter (matchesPrefix keyPrefix)) = front ++ last :: rest := by
        rw [← hsplit, hfront]
        simp
      have hbehind : following (sortKey collate) (some (sortKey collate last))
          (tables.accounts.filter (matchesPrefix keyPrefix)) = rest :=
        Cursors.following_last hnodup hplaces
      rw [← hsplit, List.map_append, List.filter_append, ← List.append_assoc]
      split
      · rename_i results' hreturned
        obtain ⟨rfl, hfull⟩ := Prod.mk.inj hreturned
        rw [decide_eq_true_eq, ← List.length_append] at hfull
        exact (List.take_append_of_le_length hfull).symm
      · rename_i results' hopen
        obtain ⟨rfl, hroom⟩ := Prod.mk.inj hopen
        rw [decide_eq_false_iff_not, not_le, ← List.length_append] at hroom
        rw [List.take_of_length_le hroom.le]
        split
        · rename_i hshort
          -- a page that is not full is the last
          have hnil : rest = [] := by
            rw [hpage, List.length_take] at hshort
            rw [← hrest]
            exact List.drop_eq_nil_of_le (by omega)
          rw [hnil]
          simp [List.take_of_length_le hroom.le]
        · have hfewer : rest.length < n := by
            rw [← hn, hplaces, List.length_append, List.length_cons]
            omega
          have hbehind' : following (sortKey collate) ((some last.key).map collate)
              (tables.accounts.filter (matchesPrefix keyPrefix)) = rest := hbehind
          rw [ih rest.length hfewer hroom (congrArg List.length hbehind'), hbehind']

/-! ## 4. The listings -/

/-- The key literally starts with the prefix. -/
def startsWith (keyPrefix : Option String) (account : ServiceAccount) : Bool :=
  keyPrefix.all fun start => start.toList.isPrefixOf account.key.toList

/-- What the listing of the inventory says of every account. -/
def inventoryRows (tables : AccountTables) (checkedAt : Instant) : List ServiceAccountInventory :=
  tables.accounts.map fun account =>
    accountInventory account (listForAccount tables.credentials account.id) checkedAt

def readinessRows (tables : AccountTables) (checkedAt : Instant) (warningSeconds : ℤ) :
    List CredentialReadiness :=
  tables.accounts.map (inspectAccount tables checkedAt warningSeconds)

theorem listAccountInventory_eq (checkedAt : Instant) :
    listAccountInventory collate tables enabled keyPrefix cursor limit checkedAt =
      (following (fun row => collate row.account.key) (cursor.map collate)
        ((inventoryRows tables checkedAt).filter fun row =>
          matchesEnabled enabled row.account && matchesPrefix keyPrefix row.account)).take limit := by
  have hrows : listAccountInventory collate tables enabled keyPrefix cursor limit checkedAt =
      (listAccounts collate tables.accounts enabled keyPrefix cursor limit).map fun account =>
        accountInventory account (listForAccount tables.credentials account.id) checkedAt := by
    unfold listAccountInventory
    apply List.map_congr_left
    intro account haccount
    rw [credentialsByAccount_eq tables.uniqueCredentials (List.mem_map_of_mem haccount)]
  unfold inventoryRows
  rw [hrows, listAccounts_eq, List.filter_map, Cursors.following_map, List.map_take]
  rfl

theorem listCredentialReadiness_eq (hcollate : Function.Injective collate) {warningSeconds : ℤ}
    (hwarning : 0 < warningSeconds) (issuesOnly : Bool) (hlimit : 1 ≤ limit) (checkedAt : Instant) :
    listCredentialReadiness collate tables warningSeconds issuesOnly keyPrefix cursor limit checkedAt =
      .ok ((following (fun row => collate row.account.key) (cursor.map collate)
        ((readinessRows tables checkedAt warningSeconds).filter fun row =>
          isKept issuesOnly row && matchesPrefix keyPrefix row.account)).take limit) := by
  unfold listCredentialReadiness
  rw [if_neg (not_le.mpr hwarning), if_neg (by omega),
    readinessPages_eq hcollate checkedAt warningSeconds issuesOnly hlimit, List.nil_append]
  have hnodup : (((tables.accounts.filter (matchesPrefix keyPrefix)).map
      (inspectAccount tables checkedAt warningSeconds)).map fun row =>
        collate row.account.key).Nodup := by
    rw [List.map_map]
    exact (List.filter_sublist.map _).nodup (sortKeys_nodup hcollate tables)
  have hrows : ((following (sortKey collate) (cursor.map collate)
      (tables.accounts.filter (matchesPrefix keyPrefix))).map
        (inspectAccount tables checkedAt warningSeconds)).filter (isKept issuesOnly) =
      following (fun row => collate row.account.key) (cursor.map collate)
        (((tables.accounts.filter (matchesPrefix keyPrefix)).map
          (inspectAccount tables checkedAt warningSeconds)).filter (isKept issuesOnly)) := by
    rw [← Cursors.following_filter hnodup, Cursors.following_map]
    rfl
  have hselected : ((readinessRows tables checkedAt warningSeconds).filter fun row =>
      matchesPrefix keyPrefix row.account) =
        (tables.accounts.filter (matchesPrefix keyPrefix)).map
          (inspectAccount tables checkedAt warningSeconds) := by
    unfold readinessRows
    rw [List.filter_map]
    rfl
  rw [hrows, ← List.filter_filter, hselected]

/-! ## 5. When they are right -/

theorem matchesAccountKey_no_escape {key : String} (h : matchesAccountKey key = true) :
    '\\' ∉ key.toList := by
  unfold matchesAccountKey at h
  split at h
  · cases h
  · rename_i first rest hkey
    simp only [Bool.and_eq_true, List.all_eq_true] at h
    rw [hkey, List.mem_cons]
    rintro (rfl | hmem)
    · exact absurd h.1.1 (by decide)
    · exact absurd (h.2 _ hmem) (by decide)

/-- For the key of an account the pattern selects what the prefix does and perhaps more. -/
theorem matchesPrefix_of_startsWith {account : ServiceAccount}
    (h : startsWith keyPrefix account = true) : matchesPrefix keyPrefix account = true := by
  cases keyPrefix with
  | none => rfl
  | some start =>
    have hstart : start.toList.isPrefixOf account.key.toList = true := h
    apply Like.of_isPrefixOf _ hstart
    intro hescape
    have hmem := (List.isPrefixOf_iff_prefix.mp hstart).subset hescape
    exact matchesAccountKey_no_escape account.validKey hmem

/-- Without wildcards the pattern is the prefix. -/
theorem matchesPrefix_eq (h : ∀ start ∈ keyPrefix, ∀ c ∈ start.toList, isWildcard c = false)
    (account : ServiceAccount) : matchesPrefix keyPrefix account = startsWith keyPrefix account := by
  cases keyPrefix with
  | none => rfl
  | some start => exact Like.prefix_eq (h start rfl) _

end

section

variable {κ : Type} [LinearOrder κ] {collate : String → κ}

/-- The inventory lists the accounts whose keys start with the prefix exactly when its pattern selects
no other account that the filter lets pass. -/
theorem listAccountInventory_lists_iff (hcollate : Function.Injective collate) (tables : AccountTables)
    (enabled : Option Bool) (keyPrefix : Option String) (checkedAt : Instant) :
    Lists collate (fun row => row.account.key) (fun after limit =>
        listAccountInventory collate tables enabled keyPrefix after limit checkedAt)
      ((inventoryRows tables checkedAt).filter fun row =>
        matchesEnabled enabled row.account && startsWith keyPrefix row.account) ↔
    ∀ account ∈ tables.accounts, matchesEnabled enabled account = true →
      matchesPrefix keyPrefix account = true → startsWith keyPrefix account = true := by
  have hnodup : ((inventoryRows tables checkedAt).map fun row => collate row.account.key).Nodup := by
    unfold inventoryRows
    rw [List.map_map]
    exact sortKeys_nodup hcollate tables
  have hwide : Lists collate (fun row => row.account.key) (fun after limit =>
        listAccountInventory collate tables enabled keyPrefix after limit checkedAt)
      ((inventoryRows tables checkedAt).filter fun row =>
        matchesEnabled enabled row.account && matchesPrefix keyPrefix row.account) :=
    Cursors.lists_of_page ((List.filter_sublist.map _).nodup hnodup)
      fun _ _ _ => listAccountInventory_eq checkedAt
  rw [Cursors.lists_filter_iff _ hwide]
  · unfold inventoryRows
    simp only [List.forall_mem_map, Bool.and_eq_true, and_imp]
    constructor
    · intro h account haccount henabled hprefix
      exact (h account haccount henabled hprefix).2
    · intro h account haccount henabled hprefix
      exact ⟨henabled, h account haccount henabled hprefix⟩
  · intro row _ hnarrow
    rw [Bool.and_eq_true] at hnarrow ⊢
    exact ⟨hnarrow.1, matchesPrefix_of_startsWith hnarrow.2⟩

/-- The readiness listing ends, and it lists the accounts whose keys start with the prefix exactly when
its pattern selects no other account that is kept. -/
theorem listCredentialReadiness_lists_iff (hcollate : Function.Injective collate)
    (tables : AccountTables) {warningSeconds : ℤ} (hwarning : 0 < warningSeconds) (issuesOnly : Bool)
    (keyPrefix : Option String) (checkedAt : Instant) :
    ∃ listing : Option String → ℕ → List CredentialReadiness,
      (∀ after limit, 1 ≤ limit → listCredentialReadiness collate tables warningSeconds issuesOnly
        keyPrefix after limit checkedAt = .ok (listing after limit)) ∧
      (Lists collate (fun row => row.account.key) listing
          ((readinessRows tables checkedAt warningSeconds).filter fun row =>
            isKept issuesOnly row && startsWith keyPrefix row.account) ↔
        ∀ account ∈ tables.accounts,
          isKept issuesOnly (inspectAccount tables checkedAt warningSeconds account) = true →
            matchesPrefix keyPrefix account = true → startsWith keyPrefix account = true) := by
  have hnodup : ((readinessRows tables checkedAt warningSeconds).map fun row =>
      collate row.account.key).Nodup := by
    unfold readinessRows
    rw [List.map_map]
    exact sortKeys_nodup hcollate tables
  refine ⟨fun after limit => (following (fun row => collate row.account.key) (after.map collate)
    ((readinessRows tables checkedAt warningSeconds).filter fun row =>
      isKept issuesOnly row && matchesPrefix keyPrefix row.account)).take limit, ?_, ?_⟩
  · intro after limit hlimit
    exact listCredentialReadiness_eq hcollate hwarning issuesOnly hlimit checkedAt
  · rw [Cursors.lists_filter_iff _ (Cursors.lists_of_page
      ((List.filter_sublist.map _).nodup hnodup) fun _ _ _ => rfl)]
    · unfold readinessRows
      simp only [List.forall_mem_map, Bool.and_eq_true, and_imp]
      constructor
      · intro h account haccount hkept hprefix
        exact (h account haccount hkept hprefix).2
      · intro h account haccount hkept hprefix
        exact ⟨hkept, h account haccount hkept hprefix⟩
    · intro row _ hnarrow
      rw [Bool.and_eq_true] at hnarrow ⊢
      exact ⟨hnarrow.1, matchesPrefix_of_startsWith hnarrow.2⟩

/-- When the two listings answer as they should, for every cursor and every limit, and that the counts
of an account's credentials add up in any case. -/
theorem account_listings_iff (hcollate : Function.Injective collate) (tables : AccountTables)
    (keyPrefix : Option String) (checkedAt : Instant) :
    (∀ enabled : Option Bool,
      Lists collate (fun row => row.account.key) (fun after limit =>
          listAccountInventory collate tables enabled keyPrefix after limit checkedAt)
        ((inventoryRows tables checkedAt).filter fun row =>
          matchesEnabled enabled row.account && startsWith keyPrefix row.account) ↔
      ∀ account ∈ tables.accounts, matchesEnabled enabled account = true →
        matchesPrefix keyPrefix account = true → startsWith keyPrefix account = true) ∧
    (∀ (warningSeconds : ℤ) (issuesOnly : Bool), 0 < warningSeconds →
      ∃ listing : Option String → ℕ → List CredentialReadiness,
        (∀ after limit, 1 ≤ limit → listCredentialReadiness collate tables warningSeconds issuesOnly
          keyPrefix after limit checkedAt = .ok (listing after limit)) ∧
        (Lists collate (fun row => row.account.key) listing
            ((readinessRows tables checkedAt warningSeconds).filter fun row =>
              isKept issuesOnly row && startsWith keyPrefix row.account) ↔
          ∀ account ∈ tables.accounts,
            isKept issuesOnly (inspectAccount tables checkedAt warningSeconds account) = true →
              matchesPrefix keyPrefix account = true → startsWith keyPrefix account = true)) ∧
    ∀ (account : ServiceAccount) (credentials : List ServiceAccountCredential),
      (credentialSummary account credentials checkedAt).active +
          (credentialSummary account credentials checkedAt).expired +
          (credentialSummary account credentials checkedAt).revoked =
        (credentialSummary account credentials checkedAt).total := by
  refine ⟨?_, ?_, ?_⟩
  · intro enabled
    exact listAccountInventory_lists_iff hcollate tables enabled keyPrefix checkedAt
  · intro warningSeconds issuesOnly hwarning
    exact listCredentialReadiness_lists_iff hcollate tables hwarning issuesOnly keyPrefix checkedAt
  · intro account credentials
    exact credentialSummary_total account credentials checkedAt

end

/-- An account of which only the key matters. -/
def sampleAccount (id : UUID) (key : String) (h : matchesAccountKey key = true) : ServiceAccount where
  id := id
  key := key
  name := "sample"
  permissions := [.projectRead]
  projectIds := []
  allProjects := true
  enabled := true
  createdAt := 0
  validKey := h

def sampleTables : AccountTables where
  accounts := [sampleAccount 1 "ci.deploy" (by decide), sampleAccount 2 "ci_deploy" (by decide)]
  credentials := [⟨3, 2, 0, some 10, none, none⟩]
  uniqueKeys := by decide
  uniqueIds := by decide
  uniqueCredentials := by decide

/-- With the order of the code points and a prefix without wildcards. -/
theorem account_listings_iff_sample :
    Lists (id : String → String) (fun row => row.account.key) (fun after limit =>
        listAccountInventory (id : String → String) sampleTables none (some "ci.") after limit 0)
      ((inventoryRows sampleTables 0).filter fun row =>
        matchesEnabled none row.account && startsWith (some "ci.") row.account) := by
  apply ((account_listings_iff Function.injective_id sampleTables (some "ci.") 0).1 none).mpr
  intro account _ _ hmatches
  have hliteral : ∀ start ∈ some "ci.", ∀ c ∈ start.toList, isWildcard c = false := by
    rintro start ⟨⟩ c hc
    have hall : ("ci.".toList.all fun c => !isWildcard c) = true := by decide +kernel
    simpa using List.all_eq_true.mp hall c hc
  rw [← matchesPrefix_eq hliteral]
  exact hmatches

/-- The prefix `ci_` lists an account that does not start with it. -/
theorem underscore_listed :
    ((listAccountInventory (id : String → String) sampleTables none (some "ci_") none 1 0).map fun row =>
      row.account.key) = ["ci.deploy"] ∧
    (((inventoryRows sampleTables 0).filter fun row =>
      startsWith (some "ci_") row.account).map fun row => row.account.key) = ["ci_deploy"] := by
  decide +kernel

end JbOrchestrator.Security
