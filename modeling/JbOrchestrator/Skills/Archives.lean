import JbOrchestrator.Lib.Locations
import JbOrchestrator.Skills.Digests
import Mathlib.Algebra.GroupWithZero.Nat

/-!
# Archives — the extraction of zip and tar archives

`ArchiveSkillFetcher._extract_zip` and `_extract_tar` on a file system that may refuse any operation, for
members whose streams may break off.
-/

open Lib

namespace JbOrchestrator.Skills

/-! ## 1. The file system -/

inductive Entry where
  | file (content : Bytes)
  | directory
  | link (resolved : Location)
  /-- a device, a socket or a pipe -/
  | special
  deriving DecidableEq

abbrev Disk := Location → Option Entry

def Entry.resolved? : Entry → Option Location
  | link resolved => some resolved
  | _ => none

/-- Where the link at a location leads to. -/
def Disk.link? (disk : Disk) (location : Location) : Option Location :=
  (disk location).bind Entry.resolved?

/-- What an extraction does: it makes a directory, or opens a file and writes to it. -/
inductive Effect where
  | directory (location : Location)
  | file (location : Location) (written : Bytes)
  deriving DecidableEq

namespace Effect

def location : Effect → Location
  | directory location => location
  | file location _ => location

def size : Effect → ℕ
  | directory _ => 0
  | file _ written => written.length

end Effect

/-- The file system in the course of an extraction, with what the extraction has done so far. -/
structure Extraction where
  disk : Disk
  effects : List Effect := []

/-- The bytes that an extraction has written. -/
def Extraction.written (e : Extraction) : ℕ := (e.effects.map Effect.size).sum

/-- What the world does with a member: which locations the system refuses to make or to open, what the
stream of the member yields, and the error that ends the copy. -/
structure Outcome where
  refuses : Location → Option OsError := fun _ => none
  stream : Option Bytes
  error : Option MaterializationError := none

namespace Extraction

variable (e : Extraction)

def put (location : Location) (entry : Entry) (effect : Effect) : Extraction where
  disk := Function.update e.disk location (some entry)
  effects := e.effects ++ [effect]

end Extraction

/-- `mkdir(parents=True, exist_ok=True)` of the directory `names` below `here`. -/
def makeDirectories (refuses : Location → Option OsError) :
    Location → List EntryName → Extraction → Except MaterializationError Unit × Extraction
  | _, [], e => (.ok (), e)
  | here, name :: names, e =>
    let there := here ++ [name]
    match e.disk there with
    | some .directory => makeDirectories refuses there names e
    | some (.link resolved) =>
      if e.disk resolved = some .directory then makeDirectories refuses resolved names e
      else (.error (.os .fileExists), e)
    | some (.file _) | some .special => (.error (.os .notADirectory), e)
    | none =>
      match refuses there with
      | some error => (.error (.os error), e)
      | none => makeDirectories refuses there names (e.put there .directory (.directory there))

/-- `open("wb")` and `copyfileobj` of the bytes that arrive. -/
def copyStream (outcome : Outcome) (target : Location) (bytes : Bytes) (e : Extraction) :
    Except MaterializationError Unit × Extraction :=
  let there := Location.follow e.disk.link? target
  match outcome.refuses there with
  | some error => (.error (.os error), e)
  | none =>
    match e.disk there with
    | some .directory => (.error (.os .isADirectory), e)
    | some (.link _) => (.error (.os .fileNotFound), e)
    | some .special =>
      (outcome.error.elim (.ok ()) .error, e.put there .special (.file there bytes))
    | none | some (.file _) =>
      (outcome.error.elim (.ok ()) .error, e.put there (.file bytes) (.file there bytes))

/-! ## 2. Members -/

/-- A member as both loops treat it.  `typeError` is what the checks in front of the size check say of
it, `fileError` what the check of a file behind the path check says. -/
structure Member where
  name : String
  size : ℤ
  isDir : Bool
  typeError : Option MaterializationError := none
  fileError : Option MaterializationError := none
  unreadable : MaterializationError

/-- `(root / name).resolve()`; an absolute name does not start at the root. -/
def memberPath (links : Location → Option Location) (root : Location) (name : String) : Location :=
  Location.resolve links (if name.toList.head? = some '/' then [] else root)
    ((name.toList.splitOn '/').map String.ofList)

/-- `_safe_target`. -/
def safeTarget (links : Location → Option Location) (root : Location) (name : String) :
    Except MaterializationError Location :=
  if '\\' ∈ name.toList then
    .error (.skill ("archive member must use POSIX path separators: " ++ name))
  else if '\x00' ∈ name.toList then .error .other
  else if root <+: memberPath links root name then .ok (memberPath links root name)
  else .error (.skill ("archive member escapes destination: " ++ name))

section

variable (limit : ℤ) (root : Location)

/-- A file below the directories that it needs. -/
def extractFile (member : Member) (outcome : Outcome) (target : Location) (e : Extraction) :
    Except MaterializationError Unit × Extraction :=
  match makeDirectories outcome.refuses [] target.dropLast e with
  | (.error error, e) => (.error error, e)
  | (.ok _, e) =>
    match outcome.stream with
    | none => (.error member.unreadable, e)
    | some bytes => copyStream outcome target bytes e

/-- A member behind the size check. -/
def extractTarget (member : Member) (outcome : Outcome) (e : Extraction) :
    Except MaterializationError Unit × Extraction :=
  match safeTarget e.disk.link? root member.name with
  | .error error => (.error error, e)
  | .ok target =>
    if member.isDir then makeDirectories outcome.refuses [] target e
    else
      match member.fileError with
      | some error => (.error error, e)
      | none => extractFile member outcome target e

/-- The loops over the members; `total` is the size of the members so far. -/
def extractMembers :
    ℤ → List (Member × Outcome) → Extraction → Except MaterializationError Unit × Extraction
  | _, [], e => (.ok (), e)
  | total, (member, outcome) :: rest, e =>
    match member.typeError with
    | some error => (.error error, e)
    | none =>
      if limit < total + member.size then
        (.error (.skill "extracted skill exceeds size limit"), e)
      else
        match extractTarget root member outcome e with
        | (.error error, e) => (.error error, e)
        | (.ok _, e) => extractMembers (total + member.size) rest e

end

/-- A member of a zip archive: its size is an unsigned number of the central directory. -/
structure ZipMember where
  filename : String
  fileSize : ℕ
  externalAttr : ℕ

inductive TarType where
  | regular | directory | symbolicLink | hardLink | special
  deriving DecidableEq, Repr

/-- A member of a tar archive: its size is the number of the header or of an extended header, which may
be below zero. -/
structure TarMember where
  name : String
  size : ℤ
  type : TarType

/-- A member as `_extract_zip` treats it. -/
def ZipMember.member (member : ZipMember) : Member where
  name := member.filename
  size := member.fileSize
  isDir := member.filename.toList.getLast? = some '/'
  fileError :=
    if (member.externalAttr >>> 16) &&& 0o170000 = 0o120000 then
      some (.skill "skill archives cannot contain symlinks")
    else none
  unreadable := .other

/-- A member as `_extract_tar` treats it. -/
def TarMember.member (member : TarMember) : Member where
  name := member.name
  size := member.size
  isDir := member.type = .directory
  typeError :=
    if member.type = .regular ∨ member.type = .directory then none
    else some (.skill "skill archives may contain only files and directories")
  unreadable := .skill ("cannot read archive member: " ++ member.name)

inductive Archive where
  | zip (members : List ZipMember)
  | tar (members : List TarMember)

def Archive.members : Archive → List Member
  | zip members => members.map ZipMember.member
  | tar members => members.map TarMember.member

end JbOrchestrator.Skills
