import JbOrchestrator.Catalog
import JbOrchestrator.Lib.Coroutines
import JbOrchestrator.Skills.Digests

/-!
# Materialization — the shared cache of verified skills

`SkillMaterializer.materialize`, file system operation by file system operation, for calls that share one
cache entry: the calls whose skills have one content digest.  A fetcher may leave anything at its
destination, and may fail.
-/

open Lib

namespace JbOrchestrator.Skills

/-! ## 1. The cache on disk -/

/-- What stands at a path.  A link resolves to a path, with the directory that is there. -/
inductive Place where
  | file
  | directory (tree : Tree)
  | link (resolved : Option (String × Option Tree))

namespace Place

/-- `exists()`, which follows links. -/
def isThere : Place → Bool
  | link none => false
  | _ => true

/-- `resolve(strict=True)`, with the directory that is there. -/
def resolve (path : String) : Place → Option (String × Option Tree)
  | file => some (path, none)
  | directory tree => some (path, some tree)
  | link resolved => resolved

def tree? : Place → Option Tree
  | file => none
  | directory tree => some tree
  | link resolved => resolved.bind Prod.snd

/-- `os.rename` of a place onto another one: a directory replaces only an empty directory, and what is
not a directory replaces only what is none. -/
def rename : Place → Option Place → Except OsError Place
  | place, none => .ok place
  | directory tree, some (directory there) =>
    if there.entries.isEmpty then .ok (directory tree) else .error .directoryNotEmpty
  | directory _, some _ => .error .notADirectory
  | _, some (directory _) => .error .isADirectory
  | place, some _ => .ok place

end Place

/-- `compute_directory_digest`. -/
def computeDirectoryDigest (sha256 : Bytes → String) (path : String) (place : Option Place) :
    Except MaterializationError String :=
  match place.bind (Place.resolve path) with
  | none => .error (.os .fileNotFound)
  | some (_, none) => .error (.os .notADirectory)
  | some (root, some tree) => tree.digest sha256 root

/-- The names of a relative path that `pathlib` keeps. -/
def pathNames (path : String) : List String :=
  (path.splitOn "/").filter fun name => name ≠ "" && name ≠ "."

/-- `is_file()` and not `is_symlink()`. -/
def Tree.isFile (tree : Tree) (names : List String) : Bool :=
  tree.entries.any fun entry =>
    entry.1.names == names && match entry.2 with | .file _ => true | _ => false

/-- A directory that a call verifies: the cache entry, or the payload in a staging directory. -/
inductive Root where
  | target
  | payload (temporary : String)
  deriving DecidableEq

/-- A staging directory.  `owner` is the slot whose call made it. -/
structure Staging where
  owner : Option ℕ
  payload : Option Place

/-- The cache entry and the staging directories next to it.  `verified` is the history of what the calls
of a slot took a digest of, the last one first; no call reads it. -/
structure Cache where
  target : Option Place
  staging : String → Option Staging
  verified : ℕ → List (Root × Tree)

namespace Cache

variable (cache : Cache)

def place : Root → Option Place
  | .target => cache.target
  | .payload temporary => (cache.staging temporary).bind Staging.payload

def setPayload (temporary : String) (payload : Option Place) : Cache :=
  { cache with
    staging := Function.update cache.staging temporary
      ((cache.staging temporary).map fun staging => { staging with payload }) }

def record (slot : ℕ) (root : Root) : Cache :=
  match (cache.place root).bind Place.tree? with
  | none => cache
  | some tree =>
    { cache with
      verified := Function.update cache.verified slot ((root, tree) :: cache.verified slot) }

end Cache

/-! ## 2. Statements -/

inductive CacheStatement where
  | targetExists
  | mkdir
  | mkdtemp (slot : ℕ)
  | fetch (temporary : String)
  | digest (slot : ℕ) (root : Root)
  | isFile (root : Root) (names : List String)
  | rename (temporary : String)
  | rmtree (temporary : String)

/-- What a fetcher does: what it leaves at the destination, and the error it raises. -/
structure Fetched where
  payload : Option Place
  error : Option MaterializationError

namespace CacheStatement

abbrev Reply : CacheStatement → Type
  | targetExists | isFile .. => Bool
  | mkdir | rename _ => Except OsError Unit
  | mkdtemp _ => Except OsError String
  | fetch _ => Except MaterializationError Unit
  | digest .. => Except MaterializationError String
  | rmtree _ => Unit

/-- The choices of the world: an error of the operating system, the names that `mkdtemp` tries, what a
fetcher does, and what `rmtree` leaves of a staging directory when it leaves it. -/
abbrev Choice : CacheStatement → Type
  | targetExists | isFile .. => Unit
  | mkdir | rename _ | digest .. => Option OsError
  | mkdtemp _ => List String
  | fetch _ => Fetched
  | rmtree _ => Option (Option Place)

end CacheStatement

/-- `fetchers` says for which kinds of sources there is a fetcher. -/
structure SkillMaterializer where
  cacheRoot : String
  fetchers : SkillSourceKind → Bool

/-- `content_digest.removeprefix("sha256:")`. -/
def cacheKey (contentDigest : String) : String :=
  if "sha256:".toList <+: contentDigest.toList then String.ofList (contentDigest.toList.drop 7)
  else contentDigest

/-- The path of a root. -/
def SkillMaterializer.path (materializer : SkillMaterializer) (contentDigest : String) :
    Root → String
  | .target => materializer.cacheRoot ++ "/" ++ cacheKey contentDigest
  | .payload temporary => materializer.cacheRoot ++ "/.staging-" ++ temporary ++ "/payload"

section

variable (sha256 : Bytes → String) (materializer : SkillMaterializer) (contentDigest : String)

open CacheStatement

/-- `mkdtemp`: the first of the names that is free. -/
def Cache.mkdtemp (cache : Cache) (slot : ℕ) (candidates : List String) :
    Except OsError String × Cache :=
  match candidates.find? fun name => (cache.staging name).isNone with
  | none => (.error .fileExists, cache)
  | some name =>
    (.ok name,
      { cache with staging := Function.update cache.staging name (some ⟨some slot, none⟩) })

def Cache.rename (cache : Cache) (temporary : String) : Except OsError Unit × Cache :=
  match cache.place (.payload temporary) with
  | none => (.error .fileNotFound, cache)
  | some payload =>
    match payload.rename cache.target with
    | .error error => (.error error, cache)
    | .ok place => (.ok (), { cache.setPayload temporary none with target := some place })

/-- `rmtree` of a staging directory, with errors ignored. -/
def Cache.rmtree (cache : Cache) (temporary : String) : Option (Option Place) → Cache
  | none => { cache with staging := Function.update cache.staging temporary none }
  | some payload => cache.setPayload temporary payload

def CacheStatement.serve :
    (statement : CacheStatement) → statement.Choice → Cache → statement.Reply × Cache
  | targetExists, _, cache => (cache.target.any Place.isThere, cache)
  | mkdir, fault, cache => (fault.elim (.ok ()) .error, cache)
  | mkdtemp slot, candidates, cache => cache.mkdtemp slot candidates
  | fetch temporary, fetched, cache =>
    (fetched.error.elim (.ok ()) .error, cache.setPayload temporary fetched.payload)
  | digest slot root, fault, cache =>
    (fault.elim (computeDirectoryDigest sha256 (materializer.path contentDigest root)
      (cache.place root)) fun error => .error (.os error), cache.record slot root)
  | isFile root names, _, cache =>
    (((cache.place root).bind Place.tree?).any fun tree => tree.isFile names, cache)
  | rename temporary, fault, cache =>
    fault.elim (cache.rename temporary) fun error => (.error error, cache)
  | rmtree temporary, left, cache => ((), cache.rmtree temporary left)

/-! ## 3. The materializer -/

structure MaterializedSkill where
  key : String
  version : ℕ
  rootPath : String
  entrypointPath : String
  contentDigest : String

abbrev Materializing := Program CacheStatement Reply MaterializationError

namespace SkillMaterializer

def ask (statement : CacheStatement) : Materializing statement.Reply := Program.perform statement

def checkDigest (skill : SkillDefinition) (actual : String) : Except MaterializationError String :=
  if actual = skill.contentDigest then .ok actual
  else .error (.skill ("skill digest mismatch for " ++ skill.key ++ "@" ++ toString skill.version ++
    ": expected " ++ skill.contentDigest ++ ", got " ++ actual))

def checkEntrypoint (skill : SkillDefinition) (isFile : Bool) : Except MaterializationError Unit :=
  if isFile then .ok ()
  else .error (.skill ("skill entrypoint does not exist: " ++ skill.entrypoint))

/-- `_verify`. -/
def verify (slot : ℕ) (skill : SkillDefinition) (root : Root) : Materializing MaterializedSkill := do
  let reply ← ask (.digest slot root)
  let actual ← Program.ofExcept (reply >>= checkDigest skill)
  let names := pathNames skill.entrypoint
  let isFile ← ask (.isFile root names)
  Program.ofExcept (checkEntrypoint skill isFile)
  pure {
    key := skill.key
    version := skill.version
    rootPath := materializer.path contentDigest root
    entrypointPath := "/".intercalate (materializer.path contentDigest root :: names)
    contentDigest := actual }

def sourceKindName : SkillSourceKind → String
  | .local => "local"
  | .git => "git"
  | .archive => "archive"

def fetcher (skill : SkillDefinition) : Except MaterializationError Unit :=
  if materializer.fetchers skill.sourceKind then .ok ()
  else .error (.skill ("no fetcher configured for skill source: " ++ sourceKindName skill.sourceKind))

/-- A rename that fails is no error when the entry is there. -/
def publish (temporary : String) : Materializing Unit := do
  let renamed ← ask (.rename temporary)
  match renamed with
  | .ok _ => pure ()
  | .error error => do
    let there ← ask .targetExists
    Program.ofExcept (if there then .ok () else .error (.os error))

/-- The block behind `mkdtemp`: fetch, verify, publish, verify again. -/
def stage (slot : ℕ) (skill : SkillDefinition) (temporary : String) :
    Materializing MaterializedSkill := do
  Program.ofExcept (materializer.fetcher skill)
  let fetched ← ask (.fetch temporary)
  Program.ofExcept fetched
  let _ ← materializer.verify contentDigest slot skill (.payload temporary)
  publish temporary
  materializer.verify contentDigest slot skill .target

def materialize (slot : ℕ) (skill : SkillDefinition) : Materializing MaterializedSkill := do
  let there ← ask .targetExists
  if there then materializer.verify contentDigest slot skill .target
  else do
    let made ← ask .mkdir
    Program.ofExcept (made.mapError .os)
    let made ← ask (.mkdtemp slot)
    let temporary ← Program.ofExcept (made.mapError .os)
    (materializer.stage contentDigest slot skill temporary).ensuring (ask (.rmtree temporary))

end SkillMaterializer

/-- Any number of calls at a time, for skills of one content digest. -/
def materializing :
    Coroutines CacheStatement Reply Cache MaterializationError ℕ SkillDefinition
      MaterializedSkill where
  Choice := CacheStatement.Choice
  serve := CacheStatement.serve sha256 materializer contentDigest
  admits _ skill := decide (skill.contentDigest = contentDigest)
  program slot skill := materializer.materialize contentDigest slot skill

end

end JbOrchestrator.Skills
