import JbOrchestrator.Catalog
import JbOrchestrator.Lib.Paths
import JbOrchestrator.Lib.Text

/-!
# Security — the permission and the project a request is checked against

The middleware knows a request by its method and its path.  `required_permission` reads the
permission off the text of the path, `RESOURCE_PATH` the resource whose project is checked.
-/

open Lib

namespace JbOrchestrator.Api

/-! ## 1. Principals -/

inductive ApiPermission where
  | projectRead
  | requestDispatch
  | workflowApprove
  | runCancel
  | workspaceManage
  | scmPublish
  | notificationManage
  | projectAdmin
  deriving DecidableEq, Repr

structure ApiPrincipal where
  permissions : List ApiPermission
  projectIds : List UUID
  allProjects : Bool
  deriving DecidableEq, Repr

def ApiPrincipal.allows (principal : ApiPrincipal) (permission : ApiPermission)
    (projectId : Option UUID) : Bool :=
  if permission ∉ principal.permissions ∧ ApiPermission.projectAdmin ∉ principal.permissions then
    false
  else
    match projectId with
    | none => principal.allProjects
    | some projectId => principal.allProjects || projectId ∈ principal.projectIds

/-- The permission is granted, by itself or through `project.admin`. -/
def ApiPrincipal.Grants (principal : ApiPrincipal) (permission : ApiPermission) : Prop :=
  permission ∈ principal.permissions ∨ ApiPermission.projectAdmin ∈ principal.permissions

theorem ApiPrincipal.allows_none (principal : ApiPrincipal) (permission : ApiPermission) :
    principal.allows permission none = true ↔
      principal.Grants permission ∧ principal.allProjects = true := by
  unfold ApiPrincipal.allows ApiPrincipal.Grants
  split
  · simp_all
  · rename_i h
    simp only [iff_and_self]
    tauto

theorem ApiPrincipal.allows_some (principal : ApiPrincipal) (permission : ApiPermission)
    (projectId : UUID) :
    principal.allows permission (some projectId) = true ↔
      principal.Grants permission ∧
        (principal.allProjects = true ∨ projectId ∈ principal.projectIds) := by
  unfold ApiPrincipal.allows ApiPrincipal.Grants
  split
  · simp_all
  · rename_i h
    simp only [Bool.or_eq_true, decide_eq_true_eq, iff_and_self]
    tauto

/-! ## 2. The text of a path -/

/-- `[0-9a-fA-F-]`. -/
def idChar (c : Char) : Bool := Text.isHexDigit c || c = '-'

/-- `[0-9a-fA-F-]{36}` at the start of a text, and what follows it. -/
def identifier (text : List Char) : Option (List Char × List Char) :=
  if (text.take 36).length = 36 ∧ (text.take 36).all idChar then
    some (text.take 36, text.drop 36)
  else none

/-- `$` without `re.MULTILINE`. -/
def endOfText (text : List Char) : Bool := text = [] || text = ['\n']

def startswith (path front : String) : Bool := front.toList.isPrefixOf path.toList

def endswith (path back : String) : Bool := back.toList.isSuffixOf path.toList

/-- `part in path`. -/
def contains (path part : String) : Bool := path.toList.tails.any part.toList.isPrefixOf

/-- `/projects/[0-9a-fA-F-]{36}/requests$` at the start of a text. -/
def requestsHere (text : List Char) : Bool :=
  Option.any endOfText do
    let rest ← "/projects/".toList.isPrefixOf? text
    let (_, tail) ← identifier rest
    "/requests".toList.isPrefixOf? tail

/-- `re.search(r"/projects/[0-9a-fA-F-]{36}/requests$", path)`. -/
def requestsOfProject (path : String) : Bool := path.toList.tails.any requestsHere

def requiredPermission (method path : String) : ApiPermission :=
  if startswith path "/v1/service-accounts/" then .projectAdmin
  else if method = "GET" then .projectRead
  else if endswith path "/worker-readiness/evaluate" then .projectRead
  else if endswith path "/dispatches" || endswith path "/workflow-recommendations" ||
      requestsOfProject path then .requestDispatch
  else if contains path "/approvals/" || endswith path "/approve" then .workflowApprove
  else if endswith path "/scm-publications" || contains path "/scm-publications/" then .scmPublish
  else if contains path "/notification-subscriptions" || contains path "/notification-deliveries"
  then .notificationManage
  else if endswith path "/cancel" then .runCancel
  else if endswith path "/workspace-operations" then .workspaceManage
  else .projectAdmin

theorem identifier_eq_some {text id tail : List Char} :
    identifier text = some (id, tail) ↔
      text = id ++ tail ∧ id.length = 36 ∧ id.all idChar = true := by
  unfold identifier
  constructor
  · intro h
    split at h
    · rename_i hid
      obtain ⟨rfl, rfl⟩ := Prod.mk.inj (Option.some.inj h)
      exact ⟨(List.take_append_drop 36 text).symm, hid⟩
    · cases h
  · rintro ⟨rfl, hlength, hchars⟩
    rw [← hlength, List.take_left, List.drop_left, if_pos ⟨rfl, hchars⟩]

theorem endOfText_iff (text : List Char) : endOfText text = true ↔ text = [] ∨ text = ['\n'] := by
  simp [endOfText]

theorem requestsHere_iff (text : List Char) :
    requestsHere text = true ↔ ∃ id, id.length = 36 ∧ id.all idChar = true ∧
      (text = "/projects/".toList ++ (id ++ "/requests".toList) ∨
        text = "/projects/".toList ++ (id ++ "/requests\n".toList)) := by
  simp only [requestsHere, Option.any_eq_true, Option.bind_eq_bind, Option.bind_eq_some_iff,
    List.isPrefixOf?_eq_some_iff_append_eq, Prod.exists, identifier_eq_some]
  constructor
  · rintro ⟨last, ⟨rest, htext, id, tail, ⟨hrest, hlength, hchars⟩, htail⟩, hend⟩
    subst htext hrest htail
    refine ⟨id, hlength, hchars, ?_⟩
    rcases (endOfText_iff last).mp hend with rfl | rfl
    · exact .inl (by simp)
    · exact .inr rfl
  · rintro ⟨id, hlength, hchars, rfl | rfl⟩
    · exact ⟨[], ⟨_, rfl, id, _, ⟨rfl, hlength, hchars⟩, by simp⟩, rfl⟩
    · exact ⟨['\n'], ⟨_, rfl, id, _, ⟨rfl, hlength, hchars⟩, rfl⟩, rfl⟩

/-! ## 3. The resource of a path -/

inductive RequestError where
  | keyError (key : String)
  | valueError (message : String)
  deriving DecidableEq, Repr

/-- The alternatives of the group `collection` in `RESOURCE_PATH`. -/
def collections : List String :=
  ["projects", "requests", "runs", "workflow-executions", "external-executions",
    "scm-publications"]

def resourceTypes : List (String × String) :=
  [("projects", "project"), ("requests", "request"), ("runs", "run"),
    ("workflow-executions", "workflow_execution"),
    ("external-executions", "external_execution"), ("scm-publications", "scm_publication")]

/-- `RESOURCE_TYPES[collection]`. -/
def resourceType (collection : String) : Except RequestError String :=
  match resourceTypes.lookup collection with
  | none => .error (.keyError collection)
  | some resourceType => .ok resourceType

/-- `RESOURCE_PATH` with `collection` for its first group. -/
def resourceOf (collection : String) (path : List Char) : Option (List Char) := do
  let rest ← ("/v1/".toList ++ collection.toList ++ ['/']).isPrefixOf? path
  let (id, tail) ← identifier rest
  if tail.head? = some '/' || endOfText tail then some id else none

/-- `RESOURCE_PATH.match(path)`: the groups `collection` and `id`. -/
def resourcePath (path : String) : Option (String × List Char) :=
  collections.findSome? fun collection =>
    (resourceOf collection path.toList).map fun id => (collection, id)

/-- `UUID(text)` of a text of hexadecimal digits and hyphens. -/
def uuid (text : List Char) : Except RequestError UUID :=
  let hex := text.filter (· ≠ '-')
  if hex.length ≠ 32 then .error (.valueError "badly formed hexadecimal UUID string")
  else .ok (Text.hexToNat hex)

/-- `resolve` stands for `SecurityService.resolve_project_id`. -/
def authorizeRequest (resolve : String → UUID → Except RequestError (Option UUID))
    (principal : ApiPrincipal) (method path : String) : Except RequestError Bool :=
  let permission := requiredPermission method path
  match resourcePath path with
  | none => .ok (principal.allows permission none)
  | some (collection, id) => do
    let resourceType ← resourceType collection
    let id ← uuid id
    let projectId ← resolve resourceType id
    match projectId with
    | none => .ok true
    | some projectId => .ok (principal.allows permission (some projectId))

end JbOrchestrator.Api
