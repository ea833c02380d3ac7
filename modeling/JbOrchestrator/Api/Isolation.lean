import JbOrchestrator.Api.Security
import JbOrchestrator.Infrastructure.Ownership

/-!
# Isolation — requests of principals that are limited to projects

`RESOURCE_PATH` names the resource of a request and `resolve_project_id` follows the rows from it to
a project.  Under the foreign keys this project is the owner of the resource.
-/

open Lib

namespace JbOrchestrator.Api

open Infrastructure

/-! ## 1. The resource that a path names -/

/-- The text matches `RESOURCE_PATH` with these groups. -/
structure Names (path : String) (collection : String) (id : List Char) : Prop where
  known : collection ∈ collections
  length : id.length = 36
  chars : id.all idChar = true
  text : ∃ tail, path.toList = "/v1/".toList ++ (collection.toList ++ '/' :: (id ++ tail)) ∧
    (tail.head? = some '/' ∨ endOfText tail = true)

theorem resourceOf_eq_some {collection : String} {path id : List Char} :
    resourceOf collection path = some id ↔ id.length = 36 ∧ id.all idChar = true ∧
      ∃ tail, path = "/v1/".toList ++ (collection.toList ++ '/' :: (id ++ tail)) ∧
        (tail.head? = some '/' ∨ endOfText tail = true) := by
  simp only [resourceOf, Option.bind_eq_bind, Option.bind_eq_some_iff, Prod.exists,
    List.isPrefixOf?_eq_some_iff_append_eq, identifier_eq_some]
  constructor
  · rintro ⟨rest, hpath, id', tail, ⟨rfl, hlength, hchars⟩, hif⟩
    split at hif
    · rename_i hend
      obtain rfl := Option.some.inj hif
      refine ⟨hlength, hchars, tail, ?_, by simpa using hend⟩
      rw [← hpath]
      simp
    · cases hif
  · rintro ⟨hlength, hchars, tail, rfl, hend⟩
    refine ⟨id ++ tail, by simp, id, tail, ⟨rfl, hlength, hchars⟩, ?_⟩
    rw [if_pos (by simpa using hend)]

theorem slash_not_mem_collection : ∀ collection ∈ collections, '/' ∉ collection.toList := by
  decide

/-- A path names at most one resource. -/
theorem Names.unique {path collection collection' : String} {id id' : List Char}
    (h : Names path collection id) (h' : Names path collection' id') :
    collection = collection' ∧ id = id' := by
  obtain ⟨tail, htext, -⟩ := h.text
  obtain ⟨tail', htext', -⟩ := h'.text
  rw [htext] at htext'
  have hrest := List.append_cancel_left htext'
  have hslash := slash_not_mem_collection collection h.known
  have hslash' := slash_not_mem_collection collection' h'.known
  obtain ⟨hcollection, hids⟩ := Paths.append_cons_inj hslash hslash' hrest
  have hid := List.append_inj hids (by rw [h.length, h'.length])
  exact ⟨String.toList_injective hcollection, hid.1⟩

theorem resourceOf_iff {collection path : String} {id : List Char}
    (hcollection : collection ∈ collections) :
    resourceOf collection path.toList = some id ↔ Names path collection id := by
  rw [resourceOf_eq_some]
  exact ⟨fun ⟨hlength, hchars, htext⟩ => ⟨hcollection, hlength, hchars, htext⟩,
    fun h => ⟨h.length, h.chars, h.text⟩⟩

theorem names_of_resourcePath {path collection : String} {id : List Char}
    (h : resourcePath path = some (collection, id)) : Names path collection id := by
  unfold resourcePath at h
  obtain ⟨c, hc, hmatch⟩ := List.exists_of_findSome?_eq_some h
  obtain ⟨i, hi, heq⟩ := Option.map_eq_some_iff.mp hmatch
  obtain ⟨rfl, rfl⟩ := Prod.mk.inj heq
  exact (resourceOf_iff hc).mp hi

/-- `RESOURCE_PATH.match` answers what the path names. -/
theorem resourcePath_eq_some {path collection : String} {id : List Char} :
    resourcePath path = some (collection, id) ↔ Names path collection id := by
  constructor
  · exact names_of_resourcePath
  · intro h
    cases hmatch : resourcePath path with
    | none =>
      have hmiss := List.findSome?_eq_none_iff.mp hmatch collection h.known
      rw [(resourceOf_iff h.known).mpr h] at hmiss
      cases hmiss
    | some found =>
      obtain ⟨rfl, rfl⟩ := (names_of_resourcePath hmatch).unique h
      rfl

theorem resourcePath_eq_none {path : String} :
    resourcePath path = none ↔ ∀ collection id, ¬Names path collection id := by
  constructor
  · intro h collection id hnames
    rw [resourcePath_eq_some.mpr hnames] at h
    cases h
  · intro h
    cases hmatch : resourcePath path with
    | none => rfl
    | some found => exact absurd (names_of_resourcePath hmatch) (h _ _)

/-! ## 2. The project of a resource -/

def unknownResourceType (resourceType : String) : RequestError :=
  .valueError ("unknown authorization resource type: " ++ resourceType)

/-- The `request_id` of the run that the branches of `resolve_project_id` look up. -/
def runOf (tables : Tables) (resourceType : String) (resourceId : UUID) :
    Except RequestError (Option UUID) :=
  if resourceType = "run" then .ok (tables.runs resourceId)
  else if resourceType = "workflow_execution" then
    .ok ((tables.workflowExecutions resourceId).bind tables.runs)
  else if resourceType = "external_execution" then
    .ok ((tables.externalExecutions resourceId).bind tables.runs)
  else if resourceType = "scm_publication" then
    .ok (((tables.scmPublications resourceId).bind tables.externalExecutions).bind tables.runs)
  else .error (unknownResourceType resourceType)

def resolveProjectId (tables : Tables) (resourceType : String) (resourceId : UUID) :
    Except RequestError (Option UUID) :=
  if resourceType = "project" then
    .ok (if tables.projects resourceId then some resourceId else none)
  else if resourceType = "request" then .ok (tables.requests resourceId)
  else
    match runOf tables resourceType resourceId with
    | .error error => .error error
    | .ok none => .ok none
    | .ok (some requestId) => .ok (tables.requests requestId)

/-- The tables of `RESOURCE_PATH`. -/
def collectionKinds : List (String × ResourceKind) :=
  [("projects", .project), ("requests", .request), ("runs", .run),
    ("workflow-executions", .workflowExecution), ("external-executions", .externalExecution),
    ("scm-publications", .scmPublication)]

theorem collectionKinds_complete : ∀ collection ∈ collections,
    ∃ entry ∈ collectionKinds, entry.1 = collection := by
  decide

theorem collectionKinds_typeName : ∀ entry ∈ collectionKinds,
    resourceType entry.1 = .ok entry.2.typeName := by
  decide

section Owners

variable {tables : Tables} (hkeys : tables.ForeignKeys)
include hkeys

theorem owner_request {id project : UUID} :
    tables.Owner ⟨.request, id⟩ project ↔ tables.requests id = some project :=
  hkeys.owner_iff_column rfl

theorem owner_run {id project : UUID} :
    tables.Owner ⟨.run, id⟩ project ↔ (tables.runs id).bind tables.requests = some project := by
  rw [hkeys.owner_iff rfl, Option.bind_eq_some_iff]
  simp only [owner_request hkeys]
  rfl

theorem owner_workflowExecution {id project : UUID} :
    tables.Owner ⟨.workflowExecution, id⟩ project ↔
      ((tables.workflowExecutions id).bind tables.runs).bind tables.requests = some project := by
  rw [hkeys.owner_iff rfl, Option.bind_assoc, Option.bind_eq_some_iff]
  simp only [owner_run hkeys]
  rfl

theorem owner_externalExecution {id project : UUID} :
    tables.Owner ⟨.externalExecution, id⟩ project ↔
      ((tables.externalExecutions id).bind tables.runs).bind tables.requests = some project := by
  rw [hkeys.owner_iff rfl, Option.bind_assoc, Option.bind_eq_some_iff]
  simp only [owner_run hkeys]
  rfl

theorem owner_scmPublication {id project : UUID} :
    tables.Owner ⟨.scmPublication, id⟩ project ↔
      (((tables.scmPublications id).bind tables.externalExecutions).bind tables.runs).bind
        tables.requests = some project := by
  rw [hkeys.owner_iff rfl, Option.bind_assoc, Option.bind_assoc, Option.bind_eq_some_iff]
  simp only [owner_externalExecution hkeys, Option.bind_assoc]
  rfl

omit hkeys in
theorem resolveProjectId_of_run {resourceType : String} {id : UUID} {run : Option UUID}
    (hproject : resourceType ≠ "project") (hrequest : resourceType ≠ "request")
    (hrun : runOf tables resourceType id = .ok run) :
    resolveProjectId tables resourceType id = .ok (run.bind tables.requests) := by
  rw [resolveProjectId, if_neg hproject, if_neg hrequest, hrun]
  cases run <;> rfl

/-- `resolve_project_id` answers the owner of the resource, where it has one. -/
theorem resolveProjectId_ok {entry : String × ResourceKind} (hentry : entry ∈ collectionKinds)
    (id : UUID) : ∃ owner, resolveProjectId tables entry.2.typeName id = .ok owner ∧
      ∀ project, owner = some project ↔ tables.Owner ⟨entry.2, id⟩ project := by
  simp only [collectionKinds, List.mem_cons, List.not_mem_nil, or_false] at hentry
  rcases hentry with rfl | rfl | rfl | rfl | rfl | rfl
  · refine ⟨if tables.projects id then some id else none, rfl, fun project => ?_⟩
    rw [Tables.owner_project]
    simp
  · exact ⟨tables.requests id, rfl, fun project => (owner_request hkeys).symm⟩
  · exact ⟨_, resolveProjectId_of_run (by decide) (by decide) rfl,
      fun project => (owner_run hkeys).symm⟩
  · exact ⟨_, resolveProjectId_of_run (by decide) (by decide) rfl,
      fun project => (owner_workflowExecution hkeys).symm⟩
  · exact ⟨_, resolveProjectId_of_run (by decide) (by decide) rfl,
      fun project => (owner_externalExecution hkeys).symm⟩
  · exact ⟨_, resolveProjectId_of_run (by decide) (by decide) rfl,
      fun project => (owner_scmPublication hkeys).symm⟩

theorem resolveProjectId_eq_some {entry : String × ResourceKind}
    (hentry : entry ∈ collectionKinds) {id project : UUID} :
    resolveProjectId tables entry.2.typeName id = .ok (some project) ↔
      tables.Owner ⟨entry.2, id⟩ project := by
  obtain ⟨owner, hresolve, howner⟩ := resolveProjectId_ok hkeys hentry id
  rw [hresolve, ← howner, Except.ok.injEq]

theorem resolveProjectId_eq_none {entry : String × ResourceKind}
    (hentry : entry ∈ collectionKinds) {id : UUID} :
    resolveProjectId tables entry.2.typeName id = .ok none ↔
      ¬tables.Present ⟨entry.2, id⟩ := by
  obtain ⟨owner, hresolve, howner⟩ := resolveProjectId_ok hkeys hentry id
  rw [hresolve, Except.ok.injEq, Option.eq_none_iff_forall_ne_some, ← hkeys.owner_unless]
  exact forall_congr' fun project => not_congr (howner project)

end Owners

/-! ## 3. Project isolation -/

/-- The request may pass: its resource belongs to a project of the principal, who has the
permission, or it is not there. -/
def MayPass (tables : Tables) (principal : ApiPrincipal) (method path : String) : Prop :=
  ∃ collection text kind id, Names path collection text ∧ (collection, kind) ∈ collectionKinds ∧
    uuid text = .ok id ∧
      (¬tables.Present ⟨kind, id⟩ ∨ ∃ project, tables.Owner ⟨kind, id⟩ project ∧
        project ∈ principal.projectIds ∧ principal.Grants (requiredPermission method path))

structure Isolated (tables : Tables) : Prop where
  /-- The project that is checked is the owner. -/
  owner : ∀ entry ∈ collectionKinds, ∀ id project : UUID,
    resolveProjectId tables entry.2.typeName id = .ok (some project) ↔
      tables.Owner ⟨entry.2, id⟩ project
  missing : ∀ entry ∈ collectionKinds, ∀ id : UUID,
    resolveProjectId tables entry.2.typeName id = .ok none ↔ ¬tables.Present ⟨entry.2, id⟩
  ownerUnique : ∀ resource project project', tables.Owner resource project →
    tables.Owner resource project' → project = project'
  accepts : ∀ principal : ApiPrincipal, principal.allProjects = false →
    ∀ method path, authorizeRequest (resolveProjectId tables) principal method path = .ok true ↔
      MayPass tables principal method path
  refuses : ∀ principal : ApiPrincipal, principal.allProjects = false →
    ∀ method path, (∀ collection text, ¬Names path collection text) →
      authorizeRequest (resolveProjectId tables) principal method path = .ok false

section Authorization

variable {tables : Tables} {principal : ApiPrincipal} {method path collection : String}
  {text : List Char} {kind : ResourceKind}

theorem authorizeRequest_unnamed
    (resolve : String → UUID → Except RequestError (Option UUID))
    (h : ∀ collection text, ¬Names path collection text) :
    authorizeRequest resolve principal method path =
      .ok (principal.allows (requiredPermission method path) none) := by
  rw [authorizeRequest, resourcePath_eq_none.mpr h]

theorem authorizeRequest_badUuid
    (resolve : String → UUID → Except RequestError (Option UUID))
    (hnames : Names path collection text) (hkind : (collection, kind) ∈ collectionKinds)
    {error : RequestError} (huuid : uuid text = .error error) :
    authorizeRequest resolve principal method path = .error error := by
  rw [authorizeRequest, resourcePath_eq_some.mpr hnames]
  show (resourceType collection >>= _) = _
  rw [collectionKinds_typeName _ hkind]
  show (uuid text >>= _) = _
  rw [huuid]
  rfl

theorem authorizeRequest_named
    {resolve : String → UUID → Except RequestError (Option UUID)}
    (hnames : Names path collection text) (hkind : (collection, kind) ∈ collectionKinds)
    {id : UUID} (huuid : uuid text = .ok id) {owner : Option UUID}
    (howner : resolve kind.typeName id = .ok owner) :
    authorizeRequest resolve principal method path =
      .ok (owner.elim true fun project =>
        principal.allows (requiredPermission method path) (some project)) := by
  rw [authorizeRequest, resourcePath_eq_some.mpr hnames]
  show (resourceType collection >>= _) = _
  rw [collectionKinds_typeName _ hkind]
  show (uuid text >>= _) = _
  rw [huuid]
  show (resolve kind.typeName id >>= _) = _
  rw [howner]
  cases owner <;> rfl

/-- A collection stands for one table. -/
theorem collectionKinds_unique : ∀ entry ∈ collectionKinds, ∀ other ∈ collectionKinds,
    entry.1 = other.1 → entry = other := by
  decide

theorem accepts_iff (hkeys : tables.ForeignKeys) (hscoped : principal.allProjects = false) :
    authorizeRequest (resolveProjectId tables) principal method path = .ok true ↔
      MayPass tables principal method path := by
  by_cases hnamed : ∃ collection text, Names path collection text
  · obtain ⟨collection, text, hnames⟩ := hnamed
    obtain ⟨⟨_, kind⟩, hkind, rfl⟩ := collectionKinds_complete collection hnames.known
    -- the path fixes every witness of `MayPass`
    have hmay : MayPass tables principal method path ↔ ∃ id, uuid text = .ok id ∧
        (¬tables.Present ⟨kind, id⟩ ∨ ∃ project, tables.Owner ⟨kind, id⟩ project ∧
          project ∈ principal.projectIds ∧
          principal.Grants (requiredPermission method path)) := by
      constructor
      · rintro ⟨collection', text', kind', id, hnames', hkind', huuid, h⟩
        obtain ⟨rfl, rfl⟩ := hnames.unique hnames'
        obtain rfl := (Prod.mk.inj (collectionKinds_unique _ hkind _ hkind' rfl)).2
        exact ⟨id, huuid, h⟩
      · rintro ⟨id, huuid, h⟩
        exact ⟨_, text, kind, id, hnames, hkind, huuid, h⟩
    rw [hmay]
    cases huuid : uuid text with
    | error error =>
      rw [authorizeRequest_badUuid _ hnames hkind huuid]
      simp
    | ok id =>
      obtain ⟨owner, hresolve, howner⟩ := resolveProjectId_ok hkeys hkind id
      rw [authorizeRequest_named hnames hkind huuid hresolve, Except.ok.injEq]
      cases owner with
      | none =>
        have hmissing := (resolveProjectId_eq_none hkeys hkind).mp hresolve
        exact iff_of_true rfl ⟨id, rfl, .inl hmissing⟩
      | some project =>
        have hproject := (howner project).mp rfl
        rw [Option.elim_some, ApiPrincipal.allows_some, hscoped]
        constructor
        · rintro ⟨hgrants, hproject' | hmem⟩
          · cases hproject'
          · exact ⟨id, rfl, .inr ⟨project, hproject, hmem, hgrants⟩⟩
        · rintro ⟨id', hid, hmissing | ⟨project', hproject', hmem, hgrants⟩⟩
          · obtain rfl := Except.ok.inj hid
            exact absurd hproject.1 hmissing
          · obtain rfl := Except.ok.inj hid
            rw [hproject.unique hproject']
            exact ⟨hgrants, .inr hmem⟩
  · have hnone : ∀ collection text, ¬Names path collection text :=
      fun collection text hnames => hnamed ⟨collection, text, hnames⟩
    rw [authorizeRequest_unnamed _ hnone, Except.ok.injEq, ApiPrincipal.allows_none, hscoped]
    constructor
    · rintro ⟨-, hall⟩
      cases hall
    · rintro ⟨collection, text, -, -, hnames, -⟩
      exact absurd hnames (hnone collection text)

end Authorization

theorem project_isolation {tables : Tables} (hkeys : tables.ForeignKeys) : Isolated tables where
  owner _ hentry _ _ := resolveProjectId_eq_some hkeys hentry
  missing _ hentry _ := resolveProjectId_eq_none hkeys hentry
  ownerUnique _ _ _ h h' := h.unique h'
  accepts _ hscoped _ _ := accepts_iff hkeys hscoped
  refuses principal hscoped method path hnone := by
    rw [authorizeRequest_unnamed _ hnone]
    congr 1
    rw [Bool.eq_false_iff, ne_eq, ApiPrincipal.allows_none, hscoped]
    rintro ⟨-, hall⟩
    cases hall

theorem project_isolation_oneChain : Isolated Tables.oneChain :=
  project_isolation Tables.oneChain_foreignKeys

end JbOrchestrator.Api
