import JbOrchestrator.Api.Segments
import Mathlib.Data.List.Sublists

/-!
# Routes — the permission of every route of the API

The table lists the routes of the router with the permission that each is documented to need.  For
every route and every value of its path parameters, `required_permission` is compared with it.
-/

open Lib

namespace JbOrchestrator.Api

/-! ## 1. The table of routes -/

/-- A segment of a route: a word, or a path parameter and its type. -/
inductive Piece where
  | literal (word : String)
  | uuid (name : String)
  | text (name : String)
  deriving DecidableEq, Repr

instance : Coe String Piece := ⟨.literal⟩

structure Route where
  method : String
  /-- What follows the prefix `/v1` of the router. -/
  template : List Piece
  name : String
  /-- The documented permission. -/
  permission : ApiPermission
  deriving DecidableEq, Repr

def routes : List Route :=
  [⟨"GET", ["service-accounts"],
      "list_service_accounts", .projectAdmin⟩,
    ⟨"GET", ["service-accounts", "readiness"],
      "inspect_service_account_readiness", .projectAdmin⟩,
    ⟨"GET", ["service-accounts", .uuid "account_id"],
      "get_service_account", .projectAdmin⟩,
    ⟨"POST", ["service-accounts", .uuid "account_id", "credentials"],
      "issue_service_account_credential", .projectAdmin⟩,
    ⟨"GET", ["service-accounts", .uuid "account_id", "credentials"],
      "list_service_account_credentials", .projectAdmin⟩,
    ⟨"GET", ["service-accounts", .uuid "account_id", "credential-events"],
      "list_service_account_credential_events", .projectAdmin⟩,
    ⟨"DELETE", ["service-accounts", .uuid "account_id", "credentials", .uuid "credential_id"],
      "revoke_service_account_credential", .projectAdmin⟩,
    ⟨"GET", ["workers"],
      "list_worker_presence", .projectRead⟩,
    ⟨"GET", ["projects", .uuid "project_id", "worker-readiness"],
      "inspect_project_worker_readiness", .projectRead⟩,
    ⟨"POST", ["projects", .uuid "project_id", "worker-readiness", "evaluate"],
      "evaluate_project_worker_readiness", .projectRead⟩,
    ⟨"POST", ["projects", .uuid "project_id", "notification-subscriptions"],
      "create_notification_subscription", .notificationManage⟩,
    ⟨"GET", ["projects", .uuid "project_id", "notification-subscriptions"],
      "list_notification_subscriptions", .projectRead⟩,
    ⟨"PATCH",
      ["projects", .uuid "project_id", "notification-subscriptions", .uuid "subscription_id"],
      "configure_notification_subscription", .notificationManage⟩,
    ⟨"GET", ["projects", .uuid "project_id", "notification-deliveries"],
      "list_notification_deliveries", .projectRead⟩,
    ⟨"GET",
      ["projects", .uuid "project_id", "notification-deliveries", .uuid "delivery_id", "attempts"],
      "list_notification_delivery_attempts", .projectRead⟩,
    ⟨"POST",
      ["projects", .uuid "project_id", "notification-deliveries", .uuid "delivery_id", "retry"],
      "retry_notification_delivery", .notificationManage⟩,
    ⟨"POST",
      ["projects", .uuid "project_id", "notification-deliveries", .uuid "delivery_id",
        "automatic-retry", "cancel"],
      "cancel_notification_delivery_automatic_retry", .notificationManage⟩,
    ⟨"POST", ["projects"],
      "register_project", .projectAdmin⟩,
    ⟨"GET", ["projects"],
      "list_projects", .projectRead⟩,
    ⟨"GET", ["projects", .uuid "project_id"],
      "get_project", .projectRead⟩,
    ⟨"GET", ["projects", .uuid "project_id", "requests"],
      "list_project_requests", .projectRead⟩,
    ⟨"GET", ["projects", .uuid "project_id", "workflow-executions"],
      "list_project_workflow_executions", .projectRead⟩,
    ⟨"GET", ["projects", .uuid "project_id", "events", "stream"],
      "stream_project_events", .projectRead⟩,
    ⟨"PUT", ["projects", .uuid "project_id", "workflow-binding"],
      "configure_project_workflow_binding", .projectAdmin⟩,
    ⟨"GET", ["projects", .uuid "project_id", "workflow-binding"],
      "get_project_workflow_binding", .projectRead⟩,
    ⟨"GET", ["projects", .uuid "project_id", "workflow-options"],
      "list_project_workflow_options", .projectRead⟩,
    ⟨"POST", ["projects", .uuid "project_id", "workflow-recommendations"],
      "recommend_project_workflow", .requestDispatch⟩,
    ⟨"POST", ["projects", .uuid "project_id", "dispatches"],
      "dispatch_project_request", .requestDispatch⟩,
    ⟨"POST", ["projects", .uuid "project_id", "requests"],
      "create_request", .requestDispatch⟩,
    ⟨"GET", ["requests", .uuid "request_id"],
      "get_request", .projectRead⟩,
    ⟨"GET", ["requests", .uuid "request_id", "runs"],
      "list_request_runs", .projectRead⟩,
    ⟨"GET", ["runs", .uuid "run_id"],
      "get_run", .projectRead⟩,
    ⟨"POST", ["runs", .uuid "run_id", "approve"],
      "approve_run", .workflowApprove⟩,
    ⟨"POST", ["runs", .uuid "run_id", "cancel"],
      "cancel_run", .runCancel⟩,
    ⟨"POST", ["workflows"],
      "register_workflow", .projectAdmin⟩,
    ⟨"GET", ["workflows"],
      "list_workflows", .projectRead⟩,
    ⟨"GET", ["workflows", .text "key"],
      "get_workflow", .projectRead⟩,
    ⟨"POST", ["runs", .uuid "run_id", "workflow"],
      "start_workflow", .projectAdmin⟩,
    ⟨"GET", ["runs", .uuid "run_id", "workflow"],
      "get_run_workflow", .projectRead⟩,
    ⟨"GET", ["workflow-executions", .uuid "execution_id"],
      "get_workflow_execution", .projectRead⟩,
    ⟨"GET", ["workflow-executions", .uuid "execution_id", "artifacts"],
      "list_workflow_artifacts", .projectRead⟩,
    ⟨"POST", ["workflow-executions", .uuid "execution_id", "approvals", .text "node_key"],
      "resolve_workflow_approval", .workflowApprove⟩,
    ⟨"POST", ["workflow-executions", .uuid "execution_id", "cancel"],
      "cancel_workflow_execution", .runCancel⟩,
    ⟨"POST", ["skills"],
      "register_skill", .projectAdmin⟩,
    ⟨"GET", ["skills"],
      "list_skills", .projectRead⟩,
    ⟨"GET", ["skills", .text "key"],
      "get_skill", .projectRead⟩,
    ⟨"POST", ["phase-packs"],
      "register_phase_pack", .projectAdmin⟩,
    ⟨"GET", ["phase-packs"],
      "list_phase_packs", .projectRead⟩,
    ⟨"GET", ["phase-packs", .text "key"],
      "get_phase_pack", .projectRead⟩,
    ⟨"POST", ["models"],
      "register_model", .projectAdmin⟩,
    ⟨"GET", ["models"],
      "list_models", .projectRead⟩,
    ⟨"GET", ["models", .text "key"],
      "get_model", .projectRead⟩,
    ⟨"PUT", ["projects", .uuid "project_id", "budget"],
      "configure_budget", .projectAdmin⟩,
    ⟨"GET", ["projects", .uuid "project_id", "budget"],
      "get_budget", .projectRead⟩,
    ⟨"GET", ["projects", .uuid "project_id", "usage"],
      "list_usage", .projectRead⟩,
    ⟨"GET", ["external-executions"],
      "list_external_executions", .projectRead⟩,
    ⟨"GET", ["external-executions", "events", "stream"],
      "stream_external_execution_events", .projectRead⟩,
    ⟨"GET", ["external-executions", .uuid "execution_id"],
      "get_external_execution", .projectRead⟩,
    ⟨"POST", ["external-executions", .uuid "execution_id", "workspace-operations"],
      "request_workspace_operation", .workspaceManage⟩,
    ⟨"GET", ["external-executions", .uuid "execution_id", "workspace-operations"],
      "list_workspace_operations", .projectRead⟩,
    ⟨"POST", ["external-executions", .uuid "execution_id", "scm-publications"],
      "request_scm_publication", .scmPublish⟩,
    ⟨"GET", ["external-executions", .uuid "execution_id", "scm-publications"],
      "list_scm_publications", .projectRead⟩,
    ⟨"GET", ["scm-publications", .uuid "publication_id", "attempts"],
      "list_scm_publication_attempts", .projectRead⟩,
    ⟨"POST", ["scm-publications", .uuid "publication_id", "retry"],
      "retry_scm_publication", .scmPublish⟩,
    ⟨"POST", ["scm-publications", .uuid "publication_id", "automatic-retry", "cancel"],
      "cancel_scm_publication_automatic_retry", .scmPublish⟩]

/-! ## 2. The paths of a route -/

def Piece.fill (values : String → String) : Piece → String
  | .literal word => word
  | .uuid name => values name
  | .text name => values name

/-- The values of path parameters that reach the handler: `uuidText` are the texts that are read
as a UUID, a `str` is any text of one segment. -/
def Piece.Accepts (uuidText : String → Prop) (values : String → String) : Piece → Prop
  | .literal _ => True
  | .uuid name => uuidText (values name)
  | .text name => values name ≠ "" ∧ '/' ∉ (values name).toList

def Route.segments (route : Route) (values : String → String) : List String :=
  "v1" :: route.template.map (Piece.fill values)

def Route.path (route : Route) (values : String → String) : String :=
  pathOf (route.segments values)

def Route.Accepts (uuidText : String → Prop) (route : Route)
    (values : String → String) : Prop :=
  ∀ piece ∈ route.template, piece.Accepts uuidText values

def Route.OfServiceAccounts (route : Route) : Prop :=
  route.template.head? = some (.literal "service-accounts")

/-- The documented permission is required, for service accounts in the scope of all projects. -/
structure Route.Documented (route : Route) (values : String → String) : Prop where
  permission : requiredPermission route.method (route.path values) = route.permission
  scope : route.OfServiceAccounts →
    ∀ (resolve : String → UUID → Except RequestError (Option UUID))
      (principal : ApiPrincipal),
      authorizeRequest resolve principal route.method (route.path values) = .ok true →
      ApiPermission.projectAdmin ∈ principal.permissions ∧ principal.allProjects = true

/-- The requests for which the permission is the documented one. -/
structure Route.Regular (route : Route) (values : String → String) : Prop where
  notInventory : route.name ≠ "list_service_accounts"
  nodeKey : route.name = "resolve_workflow_approval" →
    values "node_key" ≠ "dispatches" ∧ values "node_key" ≠ "workflow-recommendations"
  projectId : route.name = "create_request" → isHyphenated (values "project_id").toList = true

/-! ## 3. Paths without a resource -/

theorem under_of_resourceOf {collection : String} {segments : List String} {id : List Char}
    (hcollection : '/' ∉ collection.toList) (hsegments : SlashFree segments)
    (h : resourceOf collection (pathOf segments).toList = some id) :
    Under ["v1", collection] segments := by
  unfold resourceOf at h
  obtain ⟨rest, hrest, -⟩ := Option.bind_eq_some_iff.mp h
  rw [List.isPrefixOf?_eq_some_iff_append_eq] at hrest
  have hfront : SlashFree ["v1", collection] := by
    intro segment hsegment
    simp only [List.mem_cons, List.not_mem_nil, or_false] at hsegment
    rcases hsegment with rfl | rfl
    · decide
    · exact hcollection
  have htext : ("/v1/" ++ collection ++ "/").toList =
      (pathOf ["v1", collection]).toList ++ ['/'] := by
    rw [toList_pathOf]
    simp [String.toList_append]
  refine (startswith_pathOf htext hfront hsegments).mp ?_
  rw [startswith, List.isPrefixOf_iff_prefix, ← hrest]
  simp [String.toList_append]

theorem under_of_resourcePath {segments : List String} {collection : String} {id : List Char}
    (hsegments : SlashFree segments)
    (h : resourcePath (pathOf segments) = some (collection, id)) :
    collection ∈ collections ∧ Under ["v1", collection] segments := by
  unfold resourcePath at h
  obtain ⟨c, hc, hmatch⟩ := List.exists_of_findSome?_eq_some h
  obtain ⟨id', hid, heq⟩ := Option.map_eq_some_iff.mp hmatch
  obtain ⟨rfl, rfl⟩ := Prod.mk.inj heq
  have hslash : ∀ c ∈ collections, '/' ∉ c.toList := by decide
  exact ⟨hc, under_of_resourceOf (hslash c hc) hsegments hid⟩

theorem Route.OfServiceAccounts.resourcePath {route : Route} (h : route.OfServiceAccounts)
    {values : String → String} (hfree : SlashFree (route.segments values)) :
    resourcePath (route.path values) = none := by
  rw [Option.eq_none_iff_forall_not_mem]
  rintro ⟨collection, id⟩ hsome
  obtain ⟨hcollection, ⟨rest, hsegments⟩, -⟩ := under_of_resourcePath hfree hsome
  obtain ⟨pieces, hpieces⟩ := List.head?_eq_some_iff.mp h
  rw [Route.segments, hpieces] at hsegments
  have haccounts : collection = "service-accounts" := (List.cons.inj (List.cons.inj hsegments).2).1
  rw [haccounts] at hcollection
  revert hcollection
  decide

/-! ## 4. The permission of the routes -/

def Piece.plain : Piece → Bool
  | .literal word => '/' ∉ word.toList
  | _ => true

/-- The permission of a `GET` route, where its first segment is a word. -/
def getPermission : List Piece → Option ApiPermission
  | .literal word :: _ :: _ =>
    some (if word = "service-accounts" then .projectAdmin else .projectRead)
  | [.literal _] => some .projectRead
  | _ => none

theorem segmentPermission_get {template : List Piece} {permission : ApiPermission}
    (h : getPermission template = some permission) (values : String → String) :
    segmentPermission "GET" ("v1" :: template.map (Piece.fill values)) = permission := by
  unfold getPermission at h
  unfold segmentPermission Under
  split at h
  · rename_i word next rest
    obtain rfl := Option.some.inj h
    simp [Piece.fill, eq_comm]
  · obtain rfl := Option.some.inj h
    simp
  · cases h

/-- One value for each UUID: hyphenated for the names in `hyphenated`, plain for the others. -/
def sample (hyphenated : List String) (name : String) : String :=
  if name ∈ hyphenated then "00000000-0000-0000-0000-000000000000"
  else "00000000000000000000000000000000"

def Piece.uuidName : Piece → Option String
  | .uuid name => some name
  | _ => none

def Route.uuidNames (route : Route) : List String := route.template.filterMap Piece.uuidName

def Piece.isText : Piece → Bool
  | .text _ => true
  | _ => false

theorem isHyphenated_zero :
    isHyphenated "00000000-0000-0000-0000-000000000000".toList = true := by
  decide +kernel

theorem sample_spelling (hyphenated : List String) (name : String) :
    UuidSpelling (sample hyphenated name) ∧
      (isHyphenated (sample hyphenated name).toList = true ↔ name ∈ hyphenated) := by
  unfold sample
  split
  · rename_i hname
    exact ⟨.hyphenated isHyphenated_zero, iff_of_true isHyphenated_zero hname⟩
  · rename_i hname
    have h : isHyphenated "00000000000000000000000000000000".toList = false := by
      decide +kernel
    exact ⟨.plain (by decide) (by decide +kernel), iff_of_false (Bool.eq_false_iff.mp h) hname⟩

/-- A route that reads needs the permission of its first segment, but for the inventory. -/
def Route.ReadChecked (route : Route) : Prop :=
  route.name ≠ "resolve_workflow_approval" ∧ route.name ≠ "create_request" ∧
    getPermission route.template = some (if route.name = "list_service_accounts" then
      .projectRead else route.permission) ∧
    (route.name = "list_service_accounts" → route.permission = .projectAdmin)

instance (route : Route) : Decidable route.ReadChecked :=
  inferInstanceAs (Decidable (_ ∧ _ ∧ _ ∧ (_ → _)))

/-- A command needs its permission for every spelling of its UUIDs. -/
def Route.CommandChecked (route : Route) : Prop :=
  route.name ≠ "list_service_accounts" ∧ route.template.all (!·.isText) = true ∧
    (route.name = "create_request" → "project_id" ∈ route.uuidNames) ∧
    ∀ hyphenated ∈ route.uuidNames.sublists,
      (segmentPermission route.method (route.segments (sample hyphenated)) = route.permission ↔
        (route.name = "create_request" → "project_id" ∈ hyphenated))

instance (route : Route) : Decidable route.CommandChecked :=
  inferInstanceAs (Decidable (_ ∧ _ ∧ (_ → _) ∧ _))

/-- The table, route by route. -/
theorem routes_checked : ∀ route ∈ routes,
    (∀ piece ∈ route.template, piece.plain = true) ∧
    (route.template.head? = some (.literal "service-accounts") → route.permission = .projectAdmin) ∧
    (route.method = "GET" → route.ReadChecked) ∧
    (route.method ≠ "GET" → route.name ≠ "resolve_workflow_approval" → route.CommandChecked) ∧
    (route.name = "resolve_workflow_approval" →
      route.method = "POST" ∧ route.permission = .workflowApprove ∧ route.template =
        ([↑"workflow-executions", .uuid "execution_id", ↑"approvals", .text "node_key"] :
          List Piece)) := by
  decide +kernel

theorem Piece.slashFree {uuidText : String → Prop}
    (hspelled : ∀ text, uuidText text → UuidSpelling text) {values : String → String}
    {piece : Piece} (hplain : piece.plain = true) (haccepts : piece.Accepts uuidText values) :
    '/' ∉ (piece.fill values).toList := by
  cases piece with
  | literal word => exact of_decide_eq_true hplain
  | uuid name => exact (hspelled _ haccepts).shape.2.1
  | text name => exact haccepts.2

theorem Route.slashFree {uuidText : String → Prop}
    (hspelled : ∀ text, uuidText text → UuidSpelling text) {route : Route}
    (hroute : route ∈ routes) {values : String → String}
    (haccepts : route.Accepts uuidText values) : SlashFree (route.segments values) := by
  intro segment hsegment
  rcases List.mem_cons.mp hsegment with rfl | hsegment
  · decide
  · obtain ⟨piece, hpiece, rfl⟩ := List.mem_map.mp hsegment
    exact Piece.slashFree hspelled ((routes_checked route hroute).1 piece hpiece)
      (haccepts piece hpiece)

theorem sample_alike {uuidText : String → Prop}
    (hspelled : ∀ text, uuidText text → UuidSpelling text) {route : Route}
    (htext : route.template.all (!·.isText) = true) {values : String → String}
    (haccepts : route.Accepts uuidText values) :
    List.Forall₂ Alike (route.segments values) (route.segments
      (sample (route.uuidNames.filter fun name => isHyphenated (values name).toList))) := by
  refine .cons (.inl rfl) ?_
  rw [List.forall₂_map_left_iff, List.forall₂_map_right_iff, List.forall₂_same]
  intro piece hpiece
  cases piece with
  | literal word => exact .inl rfl
  | text name =>
    have := List.all_eq_true.mp htext _ hpiece
    cases this
  | uuid name =>
    have hname : name ∈ route.uuidNames := List.mem_filterMap.mpr ⟨_, hpiece, rfl⟩
    have hvalue : UuidSpelling (values name) := hspelled _ (haccepts _ hpiece)
    obtain ⟨hsample, hiff⟩ := sample_spelling
      (route.uuidNames.filter fun name => isHyphenated (values name).toList) name
    refine .inr ⟨hvalue, hsample, ?_⟩
    show hasIdentifier (values name) = hasIdentifier (sample _ name)
    rw [hvalue.hasIdentifier_eq, hsample.hasIdentifier_eq, Bool.eq_iff_iff, hiff]
    simp [hname]

/-- A node key that spells the last segment of a dispatch route is taken for one. -/
theorem segmentPermission_approval (execution key : String) :
    segmentPermission "POST" ["v1", "workflow-executions", execution, "approvals", key] =
      if key = "dispatches" ∨ key = "workflow-recommendations" then .requestDispatch
      else .workflowApprove := by
  have hrequests : ¬EndsInRequests ["v1", "workflow-executions", execution, "approvals", key] := by
    rintro ⟨id, -, hsuffix, hid⟩
    have happrovals : id = "approvals" := by
      simp only [List.suffix_cons_iff] at hsuffix
      grind
    rw [happrovals] at hid
    revert hid
    decide
  unfold segmentPermission Under
  simp [List.suffix_cons_iff, hrequests, @eq_comm String _ key]

theorem requiredPermission_iff {uuidText : String → Prop}
    (hspelled : ∀ text, uuidText text → UuidSpelling text) {route : Route}
    (hroute : route ∈ routes) {values : String → String}
    (haccepts : route.Accepts uuidText values) :
    requiredPermission route.method (route.path values) = route.permission ↔
      route.Regular values := by
  obtain ⟨-, -, hread, hcommand, happrove⟩ := routes_checked route hroute
  rw [Route.path, requiredPermission_pathOf _ (Route.slashFree hspelled hroute haccepts)]
  by_cases hget : route.method = "GET"
  · obtain ⟨hresolve, hcreate, hpermission, hadmin⟩ := hread hget
    rw [hget, Route.segments, segmentPermission_get hpermission]
    constructor
    · intro h
      refine ⟨?_, fun hname => absurd hname hresolve, fun hname => absurd hname hcreate⟩
      intro hname
      rw [if_pos hname, hadmin hname] at h
      cases h
    · intro h
      rw [if_neg h.notInventory]
  by_cases happroval : route.name = "resolve_workflow_approval"
  · obtain ⟨hmethod, hpermission, htemplate⟩ := happrove happroval
    have hcreate : route.name ≠ "create_request" := by
      rw [happroval]
      decide
    have hinventory : route.name ≠ "list_service_accounts" := by
      rw [happroval]
      decide
    have hkey : segmentPermission route.method (route.segments values) =
        if values "node_key" = "dispatches" ∨ values "node_key" = "workflow-recommendations"
        then .requestDispatch else .workflowApprove := by
      rw [hmethod, Route.segments, htemplate]
      exact segmentPermission_approval _ _
    rw [hkey, hpermission]
    constructor
    · intro h
      refine ⟨hinventory, fun _ => ?_, fun hname => absurd hname hcreate⟩
      split at h
      · cases h
      · rename_i hother
        exact not_or.mp hother
    · intro h
      rw [if_neg (not_or.mpr (h.nodeKey happroval))]
  · obtain ⟨hinventory, htext, hname, hsamples⟩ :=
      hcommand hget happroval
    rw [segmentPermission_congr _ (sample_alike hspelled htext haccepts),
      hsamples _ (List.mem_sublists.mpr List.filter_sublist)]
    have hproject : route.name = "create_request" →
        ("project_id" ∈ (route.uuidNames.filter fun name => isHyphenated (values name).toList) ↔
          isHyphenated (values "project_id").toList = true) := by
      intro hcreate
      rw [List.mem_filter]
      exact and_iff_right (hname hcreate)
    constructor
    · intro h
      exact ⟨hinventory, fun h => absurd h happroval,
        fun hcreate => (hproject hcreate).mp (h hcreate)⟩
    · intro h hcreate
      exact (hproject hcreate).mpr (h.projectId hcreate)

/-- Every route that is not the inventory of service accounts needs its documented permission for
every value of its path parameters, except a node key that spells another route and a project that
is not spelt in the hyphenated form. -/
theorem documented_iff {uuidText : String → Prop}
    (hspelled : ∀ text, uuidText text → UuidSpelling text) {route : Route}
    (hroute : route ∈ routes) {values : String → String}
    (haccepts : route.Accepts uuidText values) :
    route.Documented values ↔ route.Regular values := by
  have hiff := requiredPermission_iff hspelled hroute haccepts
  constructor
  · intro h
    exact hiff.mp h.permission
  · intro h
    have hpermission := hiff.mpr h
    refine ⟨hpermission, ?_⟩
    intro haccounts resolve principal hallowed
    have hadmin := (routes_checked route hroute).2.1 haccounts
    have hnone : resourcePath (route.path values) = none :=
      haccounts.resourcePath (Route.slashFree hspelled hroute haccepts)
    unfold authorizeRequest at hallowed
    rw [hnone, hpermission, hadmin] at hallowed
    have hallows := (principal.allows_none _).mp (Except.ok.inj hallowed)
    exact ⟨hallows.1.elim id id, hallows.2⟩

/-! ## 5. The approval of a node -/

def approvalOfNode : Route :=
  ⟨"POST", ["workflow-executions", .uuid "execution_id", "approvals", .text "node_key"],
    "resolve_workflow_approval", .workflowApprove⟩

def approvalOf (key name : String) : String :=
  if name = "node_key" then key else "00000000-0000-0000-0000-000000000000"

theorem approvalOf_accepted {key : String} (hkey : key ≠ "" ∧ '/' ∉ key.toList) :
    approvalOfNode.Accepts UuidSpelling (approvalOf key) := by
  have hexecution : isHyphenated (approvalOf key "execution_id").toList = true := isHyphenated_zero
  intro piece hpiece
  simp only [approvalOfNode, List.mem_cons, List.not_mem_nil, or_false] at hpiece
  rcases hpiece with rfl | rfl | rfl | rfl
  · exact trivial
  · exact .hyphenated hexecution
  · exact trivial
  · exact hkey

theorem approvalOfNode_mem : approvalOfNode ∈ routes := List.mem_of_getElem? (i := 41) rfl

theorem documented_iff_review : approvalOfNode.Documented (approvalOf "review") := by
  refine (documented_iff (fun _ => id) approvalOfNode_mem
    (approvalOf_accepted (by decide))).mpr ?_
  exact ⟨by decide, fun _ => by decide, fun h => absurd h (by decide)⟩

/-- The approval of a node with the key `dispatches` needs the permission to dispatch only. -/
theorem approval_taken_for_dispatch : ¬∀ route ∈ routes, ∀ values : String → String,
    route.Accepts UuidSpelling values → route.Documented values := by
  intro hclaim
  have haccepts : approvalOfNode.Accepts UuidSpelling (approvalOf "dispatches") :=
    approvalOf_accepted (by decide)
  have hdocumented := hclaim approvalOfNode approvalOfNode_mem (approvalOf "dispatches") haccepts
  have hpermission : requiredPermission approvalOfNode.method
      (approvalOfNode.path (approvalOf "dispatches")) = .requestDispatch := by
    rw [Route.path, requiredPermission_pathOf _
      (Route.slashFree (fun _ => id) approvalOfNode_mem haccepts)]
    exact (segmentPermission_approval _ "dispatches").trans (if_pos (.inl rfl))
  rw [hdocumented.permission] at hpermission
  cases hpermission

end JbOrchestrator.Api
