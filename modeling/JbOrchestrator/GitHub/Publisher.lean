import JbOrchestrator.GitHub.Repository
import JbOrchestrator.Lib.Coroutines
import JbOrchestrator.Lib.Locations

/-!
# Publisher — from a workspace to a pull request

`GitHubPublisher.publish_review`, statement by statement: what it asks of the file system, of git and of
GitHub.  Git and the file system may answer anything.  GitHub may refuse a request, or process it and let
the answer be lost; it lists pull requests and opens them as it documents, one at a time for a head and a
base.
-/

open Lib Urls

namespace JbOrchestrator.GitHub

open Scm

/-! ## 1. Errors -/

theorem gitHubGitError_named : Text.isBlank "GitHubGitError" = false := by decide

theorem gitHubApiError_named : Text.isBlank "GitHubApiError" = false := by decide

theorem gitHubPublicationError_named : Text.isBlank "GitHubPublicationError" = false := by decide

theorem jsonDecodeError_named : Text.isBlank "JSONDecodeError" = false := by decide

def gitError (text : String) : ScmException where
  kind := .other
  text := text
  typeName := "GitHubGitError"
  named := gitHubGitError_named

def publicationError (reason : String) : ScmException where
  kind := .publisherFailure .workspaceState false
  text := reason
  typeName := "GitHubPublicationError"
  named := gitHubPublicationError_named

def decodeError (text : String) : ScmException where
  kind := .valueError
  text := text
  typeName := "JSONDecodeError"
  named := jsonDecodeError_named

/-- `can_retry` of a status code. -/
def canRetry (statusCode : Option ℕ) : Bool :=
  statusCode.any fun code => code = 408 || code = 429 || 500 ≤ code

/-- `GitHubApiError.__init__`. -/
def apiError (reason : String) (statusCode : Option ℕ) (retryable : Option Bool) : ScmException where
  kind :=
    if retryable.getD (canRetry statusCode) then .publisherFailure .providerUnavailable true
    else if statusCode.isSome then .publisherFailure .providerRejected false
    else .publisherFailure .unexpected false
  text := reason
  typeName := "GitHubApiError"
  named := gitHubApiError_named

/-! ## 2. Git and HTTP -/

/-- How a git process ends.  One that does not start raises. -/
inductive GitOutcome where
  | timedOut
  | exited (returncode : ℤ) (stdout stderr : String)
  | raised (exc : ScmException)

/-- The end of `SubprocessGitClient.run`. -/
def GitOutcome.output : GitOutcome → Except ScmException String
  | .timedOut => .error (gitError "Git command timed out")
  | .exited returncode stdout stderr =>
    if returncode ≠ 0 then
      let detail := Text.strip stderr
      .error (gitError (if detail = "" then
        "Git command failed with exit code " ++ toString returncode else detail))
    else .ok (Text.strip stdout)
  | .raised exc => .error exc

/-- `json` is what `response.json()` answers, or the message of its error. -/
structure Response where
  statusCode : ℕ
  requestId : Option String
  json : Except String Json

inductive HttpOutcome where
  | response (response : Response)
  /-- a `TransportError`, by the name of its type -/
  | transport (typeName : String)
  | raised (exc : ScmException)

/-- The end of `_request`. -/
def HttpOutcome.received : HttpOutcome → Except ScmException Response
  | .response answered => .ok answered
  | .transport typeName => .error (apiError ("GitHub request failed: " ++ typeName) none (some true))
  | .raised exc => .error exc

def Response.decoded (response : Response) : Except ScmException Json :=
  response.json.mapError decodeError

/-- `_error`. -/
def Response.error (response : Response) (action : String) : ScmException :=
  let suffix := match response.requestId with
    | some requestId => if requestId = "" then "" else ", request_id=" ++ requestId
    | none => ""
  apiError ("GitHub " ++ action ++ " failed with HTTP " ++ toString response.statusCode ++ suffix)
    (some response.statusCode) none

/-! ## 3. Pull requests -/

/-- `numberText` is `str` of the number. -/
structure GitHubPullRequest where
  number : ℤ
  numberText : String
  htmlUrl : String
  sourceBranch : String
  targetBranch : String

/-- An `int` with its text; Python counts a `bool` as one. -/
def intOf : Json → Option (ℤ × String)
  | .scalar (.int value) => some (value, toString value)
  | .scalar (.bool value) => some (if value then (1, "True") else (0, "False"))
  | _ => none

def textOf : Json → Option String
  | .scalar (.str value) => some value
  | _ => none

def entriesOf : Json → Option JsonObject
  | .dict entries => some entries
  | _ => none

/-- `isinstance(side, dict) and side.get("ref") == branch`. -/
def refersTo (side : Option Json) (branch : String) : Bool :=
  ((side.bind entriesOf).bind (Json.lookup · "ref")).any (Json.is · (.str branch))

variable (tables : Tables)

/-- `urlparse(url).scheme`. -/
def urlScheme (url : String) : Except ScmException (List Char) :=
  match urlparse tables url.toList with
  | .error message => .error (urlError message)
  | .ok parsed => .ok parsed.scheme

/-- `urlparse(url).hostname`. -/
def urlHostname (url : String) : Except ScmException (Option (List Char)) :=
  match urlparse tables url.toList with
  | .error message => .error (urlError message)
  | .ok parsed => .ok (parsed.hostname tables)

/-- `_pull_request`. -/
def pullRequest (payload : Json) (sourceBranch targetBranch : String) :
    Except ScmException GitHubPullRequest := do
  match entriesOf payload with
  | none => .error (apiError "GitHub pull request response must be an object" none none)
  | some entries =>
    let invalid := fun reason => apiError ("GitHub pull request response has " ++ reason) none none
    match (Json.lookup entries "number").bind intOf with
    | none => .error (invalid "no valid number")
    | some (number, numberText) =>
      if number ≤ 0 then .error (invalid "no valid number")
      else
        match (Json.lookup entries "html_url").bind textOf with
        | none => .error (invalid "no valid HTTPS URL")
        | some htmlUrl => do
          let scheme ← urlScheme tables htmlUrl
          if scheme ≠ https then .error (invalid "no valid HTTPS URL")
          else if refersTo (Json.lookup entries "head") sourceBranch = false then
            .error (invalid "a mismatched head branch")
          else if refersTo (Json.lookup entries "base") targetBranch = false then
            .error (invalid "a mismatched base branch")
          else .ok { number, numberText, htmlUrl, sourceBranch, targetBranch }

/-- The end of `_find`. -/
def found (sourceBranch targetBranch : String) (response : Response) :
    Except ScmException (Option GitHubPullRequest) := do
  if response.statusCode ≠ 200 then .error (response.error "list pull requests")
  else
    match ← response.decoded with
    | .list [] => .ok none
    | .list (first :: _) => do
      let existing ← pullRequest tables first sourceBranch targetBranch
      .ok (some existing)
    | _ => .error (apiError "GitHub list pull requests response must be an array" none none)

/-! ## 4. GitHub -/

/-- ASCII letters, of which owners and names consist, in lower case. -/
def folded (part : List Char) : List Char := part.map Char.toLower

/-- What a pull request is opened for. -/
structure Draft where
  repository : List Char
  headOwner : List Char
  head : String
  base : String
  title : String
  body : String
  deriving DecidableEq, Repr

structure Pull extends Draft where
  number : ℕ
  htmlUrl : String
  isOpen : Bool
  deriving DecidableEq, Repr

/-- The branches that a pull request connects. -/
def Draft.branches (draft : Draft) : List Char × List Char × String × String :=
  (draft.repository, draft.headOwner, draft.head, draft.base)

/-- The pull request, switched if it is the one with the number. -/
def Pull.setOpen (pull : Pull) (repository : List Char) (number : ℕ) (isOpen : Bool) : Pull :=
  if pull.repository = repository ∧ pull.number = number then { pull with isOpen } else pull

/-- What people do with pull requests. -/
inductive Action where
  | openPull (draft : Draft) (skip : ℕ) (htmlUrl : String)
  | close (repository : List Char) (number : ℕ)
  | reopen (repository : List Char) (number : ℕ)

/-- The pull requests of all repositories, the last one first, and the last number of each repository,
which its issues share. -/
structure Pulls where
  pulls : List Pull
  lastNumber : List Char → ℕ

namespace Pulls

variable (hub : Pulls)

/-- The open pull request of some branches. -/
def openFor (branches : List Char × List Char × String × String) : List Pull :=
  hub.pulls.filter fun pull => pull.isOpen && decide (pull.branches = branches)

/-- A pull request is opened unless one is open for its branches. -/
def create (draft : Draft) (skip : ℕ) (htmlUrl : String) : Option Pull × Pulls :=
  if hub.openFor draft.branches ≠ [] then (none, hub)
  else
    let number := hub.lastNumber draft.repository + 1 + skip
    let pull := { draft with number, htmlUrl, isOpen := true }
    (some pull, { pulls := pull :: hub.pulls
                  lastNumber := Function.update hub.lastNumber draft.repository number })

def setOpen (repository : List Char) (number : ℕ) (isOpen : Bool) : Pulls :=
  { hub with pulls := hub.pulls.map fun pull => pull.setOpen repository number isOpen }

/-- A pull request is not opened again while another one is open for its branches. -/
def act : Action → Pulls
  | .openPull draft skip htmlUrl => (hub.create draft skip htmlUrl).2
  | .close repository number => hub.setOpen repository number false
  | .reopen repository number =>
    if hub.pulls.any (fun pull => decide (pull.repository = repository ∧ pull.number = number) &&
        decide (hub.openFor pull.branches ≠ [])) then hub
    else hub.setOpen repository number true

end Pulls

/-- What the client reads of a pull request. -/
def Pull.render (pull : Pull) : Json :=
  .dict [("number", .scalar (.int pull.number)), ("html_url", .scalar (.str pull.htmlUrl)),
    ("head", .dict [("ref", .scalar (.str pull.head))]),
    ("base", .dict [("ref", .scalar (.str pull.base))])]

/-! ## 5. Statements -/

inductive GitHubStatement where
  | resolve (slot : ℕ) (path : String)
  | isDir (slot : ℕ) (path : Location)
  | git (slot : ℕ) (workspace : Location) (arguments : List String)
  /-- `GET` of the open pull requests from a branch of the owner -/
  | list (slot : ℕ) (repository : GitHubRepository) (sourceBranch targetBranch : String)
  | create (slot : ℕ) (repository : GitHubRepository) (title head base body : String)
  | act (action : Action)

/-- How GitHub deals with a `POST`: the answer to one that is processed may be lost. -/
inductive CreateChoice where
  | refused (outcome : HttpOutcome)
  | processed (skip : ℕ) (htmlUrl : String) (requestId : Option String) (conflict : Except String Json)
    (lost : Option HttpOutcome)

namespace GitHubStatement

abbrev Reply : GitHubStatement → Type
  | resolve .. => Except ScmException Location
  | isDir .. => Except ScmException Bool
  | git .. => GitOutcome
  | list .. | create .. => HttpOutcome
  | act _ => Unit

abbrev Choice : GitHubStatement → Type
  | resolve .. => Except ScmException Location
  | isDir .. => Except ScmException Bool
  | git .. => GitOutcome
  | list .. => Option HttpOutcome
  | create .. => CreateChoice
  | act _ => Unit

/-- Whose statement it is. -/
def slot : GitHubStatement → Option ℕ
  | resolve slot _ | isDir slot _ | git slot .. | list slot .. | create slot .. => some slot
  | act _ => none

/-- What a `POST` asks to open. -/
def draft (repository : GitHubRepository) (title head base body : String) : Draft :=
  { repository := folded repository.slug, headOwner := folded repository.owner, head, base, title, body }

/-- The branches of the pull requests that a `GET` lists. -/
def listedBranches (repository : GitHubRepository) (sourceBranch targetBranch : String) :
    List Char × List Char × String × String :=
  (folded repository.slug, folded repository.owner, sourceBranch, targetBranch)

def respond (statusCode : ℕ) (requestId : Option String) (json : Except String Json) : HttpOutcome :=
  .response { statusCode, requestId, json }

def answer : (statement : GitHubStatement) → statement.Choice → Pulls → statement.Reply × Pulls
  | resolve .., location, hub => (location, hub)
  | isDir .., present, hub => (present, hub)
  | git .., outcome, hub => (outcome, hub)
  | list _ repository sourceBranch targetBranch, refused, hub =>
    (refused.getD (respond 200 none (.ok (.list
      ((hub.openFor (listedBranches repository sourceBranch targetBranch)).map Pull.render)))), hub)
  | create _ _ _ _ _ _, .refused outcome, hub => (outcome, hub)
  | create _ repository title head base body, .processed skip htmlUrl requestId conflict lost, hub =>
    match hub.create (draft repository title head base body) skip htmlUrl with
    | (some pull, hub) => (lost.getD (respond 201 requestId (.ok pull.render)), hub)
    | (none, hub) => (lost.getD (respond 422 requestId conflict), hub)
  | act action, _, hub => ((), hub.act action)

/-- GitHub answers 200 only with the list, and 201 only with the pull request that it has opened. -/
def Legal : (statement : GitHubStatement) → statement.Choice → Prop
  | list .., refused => ∀ response, refused = some (.response response) → response.statusCode ≠ 200
  | create .., .refused outcome => ∀ response, outcome = .response response → response.statusCode ≠ 201
  | create .., .processed _ _ _ _ lost =>
    ∀ response, lost = some (.response response) → response.statusCode ≠ 201
  | _, _ => True

end GitHubStatement

/-- A statement and its reply. -/
abbrev Answered := Σ statement : GitHubStatement, statement.Reply

/-- `history` is what the statements of each slot were answered, the last one first; no statement reads
it. -/
structure Hub extends Pulls where
  history : ℕ → List Answered

def Hub.record (hub : Hub) (answered : Answered) : Hub :=
  match answered.1.slot with
  | none => hub
  | some slot =>
    { hub with history := Function.update hub.history slot (answered :: hub.history slot) }

def GitHubStatement.serve (statement : GitHubStatement) (choice : statement.Choice) (hub : Hub) :
    statement.Reply × Hub :=
  let answered := statement.answer choice hub.toPulls
  (answered.1, Hub.record { hub with toPulls := answered.2 } ⟨statement, answered.1⟩)

/-! ## 6. The publisher -/

/-- What the constructor keeps: resolved roots, and a host and a remote that are stripped. -/
structure GitHubPublisher where
  workspaceRoots : List Location
  webHost : String
  remoteName : String

abbrev Publishing := Program GitHubStatement GitHubStatement.Reply ScmException

namespace GitHubPublisher

variable (publisher : GitHubPublisher) (slot : ℕ)

def ask (statement : GitHubStatement) : Publishing statement.Reply := Program.perform statement

def raiseIf (condition : Bool) (reason : String) : Publishing Unit :=
  Program.ofExcept (if condition then .error (publicationError reason) else .ok ())

def resolve (path : String) : Publishing Location := do
  let reply ← ask (.resolve slot path)
  Program.ofExcept reply

def runGit (workspace : Location) (arguments : List String) : Publishing String := do
  let outcome ← ask (.git slot workspace arguments)
  Program.ofExcept outcome.output

/-- `_trusted_workspace`. -/
def trustedWorkspace (value : String) : Publishing Location := do
  let workspace ← resolve slot value
  let reply ← ask (.isDir slot workspace)
  let isDir ← Program.ofExcept reply
  raiseIf (!isDir) "managed workspace directory does not exist"
  raiseIf (!publisher.workspaceRoots.any fun root => decide (root <+: workspace))
    "managed workspace is outside configured roots"
  pure workspace

/-- `_find`. -/
def find (repository : GitHubRepository) (sourceBranch targetBranch : String) :
    Publishing (Option GitHubPullRequest) := do
  let outcome ← ask (.list slot repository sourceBranch targetBranch)
  let response ← Program.ofExcept outcome.received
  Program.ofExcept (found tables sourceBranch targetBranch response)

/-- `find_or_create_pull_request` behind its `POST`. -/
def created (repository : GitHubRepository) (request : ScmPublicationRequest) (response : Response) :
    Publishing GitHubPullRequest :=
  if response.statusCode = 201 then do
    let payload ← Program.ofExcept response.decoded
    Program.ofExcept (pullRequest tables payload request.sourceBranch request.targetBranch)
  else if response.statusCode = 422 then do
    let existing ← find tables slot repository request.sourceBranch request.targetBranch
    Program.ofOption (response.error "create pull request") existing
  else Program.ofExcept (.error (response.error "create pull request"))

/-- `find_or_create_pull_request`. -/
def findOrCreatePullRequest (repository : GitHubRepository) (request : ScmPublicationRequest) :
    Publishing GitHubPullRequest := do
  let existing ← find tables slot repository request.sourceBranch request.targetBranch
  match existing with
  | some existing => pure existing
  | none => do
    let outcome ← ask (.create slot repository request.title request.sourceBranch request.targetBranch
      request.body)
    let response ← Program.ofExcept outcome.received
    created tables slot repository request response

def branchRef (branch : String) : String := "refs/heads/" ++ branch

def pushArguments (headCommit branch : String) : List String :=
  ["push", "--porcelain", publisher.remoteName, headCommit ++ ":" ++ branchRef branch]

/-- `publish_review` behind its check of the workspace, up to its push. -/
def push (repository : GitHubRepository) (workspace : Location) (request : ScmPublicationRequest) :
    Publishing Unit := do
  let topLevel ← runGit slot workspace ["rev-parse", "--show-toplevel"]
  let topLevel ← resolve slot topLevel
  raiseIf (topLevel ≠ workspace) "workspace path is not the Git worktree root"
  let _ ← runGit slot workspace ["check-ref-format", branchRef request.sourceBranch]
  let _ ← runGit slot workspace ["check-ref-format", branchRef request.targetBranch]
  let currentBranch ← runGit slot workspace ["branch", "--show-current"]
  raiseIf (currentBranch ≠ request.sourceBranch) "workspace branch does not match publication source"
  let status ← runGit slot workspace ["status", "--porcelain"]
  raiseIf (status ≠ "") "workspace must be clean before publication"
  let remoteUrl ← runGit slot workspace
    ["config", "--get", "remote." ++ publisher.remoteName ++ ".url"]
  let remote ← Program.ofExcept (parseGithubRepository tables remoteUrl publisher.webHost)
  raiseIf (folded remote.slug ≠ folded repository.slug)
    "Git remote does not match publication repository"
  let headCommit ← runGit slot workspace ["rev-parse", "HEAD"]
  let _ ← runGit slot workspace (publisher.pushArguments headCommit request.sourceBranch)
  pure ()

/-- `publish_review`. -/
def publishReview (request : ScmPublicationRequest) : Publishing ScmPublicationResult := do
  let repository ← Program.ofExcept (parseGithubRepository tables request.repository publisher.webHost)
  let workspace ← publisher.trustedWorkspace slot request.workspacePath
  publisher.push tables slot repository workspace request
  let pullRequest ← findOrCreatePullRequest tables slot repository request
  let hostname ← Program.ofExcept (urlHostname tables pullRequest.htmlUrl)
  raiseIf (hostname ≠ some publisher.webHost.toList)
    "GitHub review URL host does not match configured host"
  pure { provider := "github"
         repository := request.repository
         sourceBranch := request.sourceBranch
         targetBranch := request.targetBranch
         reviewUrl := pullRequest.htmlUrl
         reviewId := pullRequest.numberText }

end GitHubPublisher

inductive HubCall where
  | publish (request : ScmPublicationRequest)
  | act (action : Action)

/-- Any number of publications, and what people do with pull requests between their statements. -/
def publishing (publisher : GitHubPublisher) :
    Coroutines GitHubStatement GitHubStatement.Reply Hub ScmException ℕ HubCall
      (Option ScmPublicationResult) where
  Choice := GitHubStatement.Choice
  serve := GitHubStatement.serve
  admits _ _ := true
  program slot call :=
    match call with
    | .publish request =>
      publisher.publishReview tables slot request >>= fun result => pure (some result)
    | .act action => GitHubPublisher.ask (.act action) >>= fun _ => pure none

end JbOrchestrator.GitHub
