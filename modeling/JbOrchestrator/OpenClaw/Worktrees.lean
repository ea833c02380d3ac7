import JbOrchestrator.ExternalExecutions.Models
import JbOrchestrator.Lib.CommitGraph
import JbOrchestrator.Lib.Coroutines
import JbOrchestrator.Lib.Locations
import JbOrchestrator.Lib.Text

/-!
# Worktrees — guarded cleanup of a managed worktree

`OpenClawWorkspaceManager.cleanup`, git command by git command, on a repository that others work on at the
same time: the owner of the worktree edits files, checks out branches and adds commits, and other refs move
forward.
-/

open Lib

namespace JbOrchestrator.OpenClaw

open ExternalExecutions

/-! ## 1. The repository -/

inductive Head where
  | branch (name : String)
  | detached (commit : ℕ)
  deriving DecidableEq, Repr

/-- The linked worktree at the recorded path. -/
structure Worktree where
  head : Head
  clean : Bool
  deriving DecidableEq, Repr

/-- A commit, or the text that names one. -/
inductive Revision where
  | commit (commit : ℕ)
  | text (text : String)
  deriving DecidableEq, Repr

/-- What a command of a cleanup found out or did. -/
inductive Finding where
  | branch (name : String)
  | head (commit : ℕ)
  | target (revision : String) (commit : ℕ)
  | status (clean : Bool)
  | merged (head : Revision) (target : ℕ) (merged : Bool)
  | removed
  | deleted (commit : ℕ)
  deriving DecidableEq, Repr

/-- The repository with the worktree.  `findings` is the history of what the cleanups of a slot found out
and did, the last one first; no command reads it. -/
structure Repository where
  graph : CommitGraph
  refs : String → Option ℕ
  head : Head
  worktree : Option Worktree
  findings : ℕ → List Finding

def branchRef (branch : String) : String := "refs/heads/" ++ branch

namespace Repository

variable (repository : Repository)

def commitOf : Head → Option ℕ
  | .branch name => repository.refs (branchRef name)
  | .detached commit => some commit

def record (slot : ℕ) (finding : Finding) : Repository :=
  { repository with
    findings := Function.update repository.findings slot (finding :: repository.findings slot) }

def setRef (ref : String) (tip : Option ℕ) : Repository :=
  { repository with refs := Function.update repository.refs ref tip }

end Repository

/-- What the owner of the worktree and others do. -/
inductive Action where
  /-- the files of the worktree are edited, or the edits taken back -/
  | edit (clean : Bool)
  | checkout (head : Head)
  /-- a commit on top of a ref, with further parents where it is a merge -/
  | commit (ref : String) (others : List ℕ)
  /-- a commit on top of the detached head of the worktree -/
  | commitDetached
  /-- a ref is made, or moved forward to a commit that contains it -/
  | advance (ref : String) (commit : ℕ)

/-- The recorded branch is not made anew. -/
def Repository.act (repository : Repository) (branch : String) : Action → Repository
  | .edit clean =>
    { repository with worktree := repository.worktree.map fun worktree => { worktree with clean } }
  | .checkout head =>
    { repository with worktree := repository.worktree.map fun worktree => { worktree with head } }
  | .commit ref others =>
    match repository.refs ref with
    | none => repository
    | some tip =>
      if h : ∀ p ∈ tip :: others, p < repository.graph.parents.length then
        { repository.setRef ref (some repository.graph.parents.length) with
          graph := repository.graph.add (tip :: others) h }
      else repository
  | .commitDetached =>
    match repository.worktree with
    | some ⟨.detached tip, _⟩ =>
      if h : ∀ p ∈ [tip], p < repository.graph.parents.length then
        { repository with
          graph := repository.graph.add [tip] h
          worktree := repository.worktree.map fun worktree =>
            { worktree with head := .detached repository.graph.parents.length } }
      else repository
    | _ => repository
  | .advance ref commit =>
    match repository.refs ref with
    | none => if ref = branchRef branch then repository else repository.setRef ref (some commit)
    | some tip =>
      if repository.graph.reaches commit tip then repository.setRef ref (some commit) else repository

/-! ## 2. Git commands -/

inductive GitStatement where
  | repositoryTopLevel
  | workspaceExists
  | workspaceIsDir
  | workspaceTopLevel
  | showCurrent (slot : ℕ)
  | workspaceHead (slot : ℕ)
  | verifyTarget (slot : ℕ) (revision : String)
  | verifyBranch (branch : String)
  | status (slot : ℕ)
  | isAncestor (slot : ℕ) (head : Revision) (target : ℕ)
  | showRef (branch : String)
  | removeWorktree (slot : ℕ)
  | deleteBranch (slot : ℕ) (branch : String) (head : Revision)
  | act (action : Action)

namespace GitStatement

/-- A command that fails says why. -/
abbrev Reply : GitStatement → Type
  | repositoryTopLevel | workspaceTopLevel => Except String Location
  | workspaceExists | workspaceIsDir => Bool
  | showCurrent _ => Except String String
  | workspaceHead _ | verifyTarget .. | verifyBranch _ => Except String ℕ
  | status _ | isAncestor .. | showRef _ => Except String Bool
  | removeWorktree _ | deleteBranch .. => Except String Unit
  | act _ => Unit

/-- Any command may fail, and git says what the top level of a directory is. -/
abbrev Choice : GitStatement → Type
  | repositoryTopLevel | workspaceTopLevel => Except String Location
  | workspaceExists | workspaceIsDir | act _ => Unit
  | _ => Option String

end GitStatement

/-- What the manager gets from the operating system and from git: `Path(text).resolve()`, the commit that a
revision names, and the text of a commit. -/
structure GitEnvironment where
  resolve : String → Location
  commitOf : String → Repository → Option ℕ
  hash : ℕ → String

section

variable (env : GitEnvironment) (branch : String)

/-- The commit of a revision. -/
def GitEnvironment.revision (repository : Repository) : Revision → Option ℕ
  | .commit commit => some commit
  | .text text => env.commitOf text repository

open GitStatement

/-- A command that fails leaves the repository as it is. -/
def unlessFault {α : Type} (fault : Option String) (repository : Repository)
    (answer : Except String α × Repository) : Except String α × Repository :=
  fault.elim answer fun detail => (.error detail, repository)

/-- `git worktree remove`, which refuses a worktree that is not clean. -/
def Repository.removeWorktree (repository : Repository) (slot : ℕ) :
    Except String Unit × Repository :=
  match repository.worktree with
  | none => (.error "", repository)
  | some worktree =>
    if worktree.clean then (.ok (), { repository.record slot .removed with worktree := none })
    else (.error "", repository)

/-- `git update-ref -d ref commit`, which deletes the ref only where it is at the commit. -/
def Repository.deleteRef (repository : Repository) (slot : ℕ) (ref : String) (commit : Option ℕ) :
    Except String Unit × Repository :=
  match commit with
  | none => (.error "", repository)
  | some commit =>
    if repository.refs ref = some commit then
      (.ok (), (repository.record slot (.deleted commit)).setRef ref none)
    else (.error "", repository)

/-- What a command reads: a value that is recorded, or none. -/
def Repository.found {α : Type} (repository : Repository) (slot : ℕ) (value : Option α)
    (finding : α → Finding) : Except String α × Repository :=
  match value with
  | none => (.error "", repository)
  | some value => (.ok value, repository.record slot (finding value))

/-- `git branch --show-current`, which says nothing of a detached head. -/
def Worktree.current (worktree : Worktree) : String :=
  match worktree.head with
  | .branch name => name
  | .detached _ => ""

/-- `git merge-base --is-ancestor`. -/
def Repository.isAncestor (repository : Repository) (slot : ℕ) (head : Revision) (target : ℕ) :
    Except String Bool × Repository :=
  repository.found slot ((env.revision repository head).map fun commit =>
    repository.graph.reaches target commit) (.merged head target)

def GitStatement.serve :
    (statement : GitStatement) → statement.Choice → Repository → statement.Reply × Repository
  | repositoryTopLevel, answer, repository => (answer, repository)
  | workspaceExists, _, repository => (repository.worktree.isSome, repository)
  | workspaceIsDir, _, repository => (repository.worktree.isSome, repository)
  | workspaceTopLevel, answer, repository =>
    (if repository.worktree.isSome then answer else .error "", repository)
  | showCurrent slot, fault, repository => unlessFault fault repository
    (repository.found slot (repository.worktree.map Worktree.current) .branch)
  | workspaceHead slot, fault, repository => unlessFault fault repository
    (repository.found slot (repository.worktree.bind fun worktree => repository.commitOf worktree.head)
      .head)
  | verifyTarget slot revision, fault, repository => unlessFault fault repository
    (repository.found slot (env.commitOf revision repository) (.target revision))
  | verifyBranch branch, fault, repository => unlessFault fault repository
    (((repository.refs (branchRef branch)).elim (.error "") .ok), repository)
  | status slot, fault, repository => unlessFault fault repository
    (repository.found slot (repository.worktree.map Worktree.clean) .status)
  | isAncestor slot head target, fault, repository => unlessFault fault repository
    (repository.isAncestor env slot head target)
  | showRef branch, fault, repository => unlessFault fault repository
    (.ok (repository.refs (branchRef branch)).isSome, repository)
  | removeWorktree slot, fault, repository => unlessFault fault repository
    (repository.removeWorktree slot)
  | deleteBranch slot branch head, fault, repository => unlessFault fault repository
    (repository.deleteRef slot (branchRef branch) (env.revision repository head))
  | act action, _, repository => ((), repository.act branch action)

end

/-! ## 3. The manager -/

/-- `OpenClawWorkspaceError`. -/
structure OpenClawWorkspaceError where
  message : String
  deriving DecidableEq, Repr

structure OpenClawWorkspaceManager where
  workspaceRoot : Option Location
  repositoryRoots : List Location

structure WorkspaceRecord where
  repository : Location
  workspace : Location
  branch : String
  baseCommit : String

structure WorkspaceReview where
  path : Location
  repositoryPath : Location
  branch : String
  baseCommit : String
  headCommit : Revision
  targetRef : String
  targetCommit : ℕ
  clean : Bool
  merged : Bool

/-- The text of a revision. -/
def GitEnvironment.text (env : GitEnvironment) : Revision → String
  | .commit commit => env.hash commit
  | .text text => text

abbrev Managing := Program GitStatement GitStatement.Reply OpenClawWorkspaceError

/-- The text of a path. -/
def pathText (location : Location) : String :=
  "/" ++ "/".intercalate (location.map Subtype.val)

/-- `" ".join(arguments)` of a command. -/
def GitStatement.arguments (env : GitEnvironment) (record : WorkspaceRecord) : GitStatement → String
  | repositoryTopLevel | workspaceTopLevel => "rev-parse --show-toplevel"
  | showCurrent _ => "branch --show-current"
  | workspaceHead _ => "rev-parse HEAD"
  | verifyTarget _ revision =>
    "rev-parse --verify --end-of-options " ++ revision ++ "^\x7bcommit\x7d"
  | verifyBranch branch =>
    "rev-parse --verify --end-of-options " ++ branchRef branch ++ "^\x7bcommit\x7d"
  | status _ => "status --porcelain --untracked-files=all"
  | removeWorktree _ => "worktree remove " ++ pathText record.workspace
  | deleteBranch _ branch head => "update-ref -d " ++ branchRef branch ++ " " ++ env.text head
  | _ => ""

namespace OpenClawWorkspaceManager

variable (env : GitEnvironment) (manager : OpenClawWorkspaceManager) (execution : ExternalExecution)

def raiseIf (condition : Bool) (message : String) : Managing Unit :=
  Program.ofExcept (if condition then .error ⟨message⟩ else .ok ())

/-- The error of `_git`. -/
def commandFailed (arguments detail : String) : OpenClawWorkspaceError :=
  ⟨"Git workspace command failed (" ++ arguments ++ ")" ++
    if detail = "" then "" else ": " ++ Text.strip detail⟩

/-- The error of `_git_returncode`. -/
def lookupFailed (detail : String) : OpenClawWorkspaceError :=
  ⟨"Git workspace lookup failed: " ++ Text.strip detail⟩

def ask (statement : GitStatement) : Managing statement.Reply := Program.perform statement

/-- The checks of `_workspace_record` in front of its git command. -/
def storedRecord : Except OpenClawWorkspaceError WorkspaceRecord :=
  let values := [execution.workspaceRepositoryPath, execution.workspacePath,
    execution.workspaceBranch, execution.workspaceBaseRef]
  let repository := env.resolve (execution.workspaceRepositoryPath.getD "")
  let workspace := env.resolve (execution.workspacePath.getD "")
  if values.all (fun value => value.any fun text => !Text.isBlank text) = false then
    .error ⟨"external execution has no complete managed workspace assignment"⟩
  else
    match manager.workspaceRoot, manager.repositoryRoots with
    | none, _ | _, [] => .error ⟨"managed workspace roots are not configured"⟩
    | some workspaceRoot, repositoryRoots =>
      if repositoryRoots.any (fun root => decide (root <+: repository)) = false then
        .error ⟨"stored repository is outside the configured roots"⟩
      else if ¬ workspaceRoot <+: workspace then
        .error ⟨"stored worktree is outside the configured workspace root"⟩
      else
        .ok ⟨repository, workspace, execution.workspaceBranch.getD "",
          execution.workspaceBaseRef.getD ""⟩

/-- `_workspace_record`. -/
def workspaceRecord : Managing WorkspaceRecord := do
  let record ← Program.ofExcept (manager.storedRecord env execution)
  let reply ← ask .repositoryTopLevel
  let actual ← Program.ofExcept (reply.mapError (commandFailed "rev-parse --show-toplevel"))
  raiseIf (actual ≠ record.repository) "stored repository path is not its Git top level"
  pure record

/-- `merged_into.strip()`, which must not be empty. -/
def targetRef (mergedInto : String) : Except OpenClawWorkspaceError String :=
  if Text.strip mergedInto = "" then .error ⟨"merged-into ref must not be empty"⟩
  else .ok (Text.strip mergedInto)

def verifyTarget (slot : ℕ) (record : WorkspaceRecord) (revision : String) : Managing ℕ := do
  let reply ← ask (.verifyTarget slot revision)
  Program.ofExcept (reply.mapError (commandFailed
    ((GitStatement.verifyTarget slot revision).arguments env record)))

def isAncestor (slot : ℕ) (head : Revision) (target : ℕ) : Managing Bool := do
  let reply ← ask (.isAncestor slot head target)
  Program.ofExcept (reply.mapError lookupFailed)

/-- `_review_sync` behind its checks that the worktree is as it was assigned. -/
def reviewHead (slot : ℕ) (record : WorkspaceRecord) (mergedInto : String) : Managing WorkspaceReview := do
  let reply ← ask (.workspaceHead slot)
  let head ← Program.ofExcept (reply.mapError (commandFailed "rev-parse HEAD"))
  let revision ← Program.ofExcept (targetRef mergedInto)
  let target ← verifyTarget env slot record revision
  let reply ← ask (.status slot)
  let clean ← Program.ofExcept
    (reply.mapError (commandFailed "status --porcelain --untracked-files=all"))
  let merged ← isAncestor slot (.commit head) target
  pure {
    path := record.workspace
    repositoryPath := record.repository
    branch := record.branch
    baseCommit := record.baseCommit
    headCommit := .commit head
    targetRef := revision
    targetCommit := target
    clean := clean
    merged := merged }

/-- `_review_sync`. -/
def review (slot : ℕ) (mergedInto : String) : Managing WorkspaceReview := do
  let record ← manager.workspaceRecord env execution
  let isDir ← ask .workspaceIsDir
  raiseIf (!isDir) ("worktree does not exist: " ++ pathText record.workspace)
  let reply ← ask .workspaceTopLevel
  let actualRoot ← Program.ofExcept (reply.mapError (commandFailed "rev-parse --show-toplevel"))
  let reply ← ask (.showCurrent slot)
  let actualBranch ← Program.ofExcept (reply.mapError (commandFailed "branch --show-current"))
  raiseIf (actualRoot ≠ record.workspace || actualBranch ≠ record.branch)
    "worktree no longer matches its durable assignment"
  reviewHead env slot record mergedInto

def deleteBranch (slot : ℕ) (record : WorkspaceRecord) (head : Revision) : Managing Unit := do
  let reply ← ask (.deleteBranch slot record.branch head)
  Program.ofExcept (reply.mapError (commandFailed
    ((GitStatement.deleteBranch slot record.branch head).arguments env record)))

/-- `_cleanup_sync` while the worktree is there. -/
def cleanupWorktree (slot : ℕ) (record : WorkspaceRecord) (mergedInto : String) :
    Managing WorkspaceReview := do
  let review ← manager.review env execution slot mergedInto
  raiseIf (!review.clean) "worktree has uncommitted changes"
  raiseIf (!review.merged) ("workspace branch is not merged into " ++ review.targetRef)
  let reply ← ask (.removeWorktree slot)
  Program.ofExcept (reply.mapError (commandFailed
    ((GitStatement.removeWorktree slot).arguments env record)))
  deleteBranch env slot record review.headCommit
  pure review

/-- The head of the branch where it is there, and the base commit where it is not. -/
def branchHead (record : WorkspaceRecord) (branchExists : Bool) : Managing Revision :=
  if branchExists then do
    let reply ← ask (.verifyBranch record.branch)
    let head ← Program.ofExcept (reply.mapError (commandFailed
      ((GitStatement.verifyBranch record.branch).arguments env record)))
    pure (.commit head)
  else pure (.text record.baseCommit)

/-- `_cleanup_sync` when the worktree is gone. -/
def cleanupBranch (slot : ℕ) (record : WorkspaceRecord) (mergedInto : String) :
    Managing WorkspaceReview := do
  let revision ← Program.ofExcept (targetRef mergedInto)
  let target ← verifyTarget env slot record revision
  let reply ← ask (.showRef record.branch)
  let branchExists ← Program.ofExcept (reply.mapError lookupFailed)
  let head ← branchHead env record branchExists
  let merged ← isAncestor slot head target
  raiseIf (!merged) ("workspace branch is not merged into " ++ revision)
  if branchExists then deleteBranch env slot record head else pure ()
  pure {
    path := record.workspace
    repositoryPath := record.repository
    branch := record.branch
    baseCommit := record.baseCommit
    headCommit := head
    targetRef := revision
    targetCommit := target
    clean := true
    merged := true }

/-- `_cleanup_sync`. -/
def cleanup (slot : ℕ) (mergedInto : String) : Managing WorkspaceReview := do
  raiseIf (!execution.isTerminal) "worktree cleanup requires a terminal external execution"
  let record ← manager.workspaceRecord env execution
  let present ← ask .workspaceExists
  if present then manager.cleanupWorktree env execution slot record mergedInto
  else cleanupBranch env slot record mergedInto

end OpenClawWorkspaceManager

/-- A cleanup of the execution, or what the owner and others do. -/
inductive WorkspaceCall where
  | cleanup (mergedInto : String)
  | act (action : Action)

def recordedBranch (execution : ExternalExecution) : String := execution.workspaceBranch.getD ""

/-- Any number of cleanups of one execution, and the actions of the owner and of others between their
commands. -/
def cleaning (env : GitEnvironment) (manager : OpenClawWorkspaceManager)
    (execution : ExternalExecution) :
    Coroutines GitStatement GitStatement.Reply Repository OpenClawWorkspaceError ℕ WorkspaceCall
      (Option WorkspaceReview) where
  Choice := GitStatement.Choice
  serve := GitStatement.serve env (recordedBranch execution)
  admits _ _ := true
  program slot call :=
    match call with
    | .cleanup mergedInto =>
      manager.cleanup env execution slot mergedInto >>= fun review => pure (some review)
    | .act action => OpenClawWorkspaceManager.ask (.act action) >>= fun _ => pure none

end JbOrchestrator.OpenClaw
