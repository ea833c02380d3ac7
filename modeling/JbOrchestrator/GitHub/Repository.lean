import JbOrchestrator.Lib.Urls
import JbOrchestrator.Scm.Runtime
import Mathlib.Data.Bool.AllAny

/-!
# Repository — which repository a URL names

`parse_github_repository` reads HTTPS and SSH URLs and SCP-like remotes of one host.  A publication
compares the repository that it is asked for with the remote of the workspace in this way.
-/

open Lib Urls

namespace JbOrchestrator.GitHub

open Scm

/-! ## 1. Parsing -/

structure GitHubRepository where
  owner : List Char
  name : List Char
  deriving DecidableEq, Repr

def GitHubRepository.slug (repository : GitHubRepository) : List Char :=
  repository.owner ++ '/' :: repository.name

theorem githubRepositoryError_named : Text.isBlank "GitHubRepositoryError" = false := by decide

theorem valueError_named : Text.isBlank "ValueError" = false := by decide

def repositoryError (text : String) : ScmException where
  kind := .valueError
  text := text
  typeName := "GitHubRepositoryError"
  named := githubRepositoryError_named

def urlError (text : String) : ScmException where
  kind := .valueError
  text := text
  typeName := "ValueError"
  named := valueError_named

/-- `[A-Za-z0-9_.-]`. -/
def isPartChar (c : Char) : Bool :=
  isLetter c || Text.isDigit c || c = '_' || c = '.' || c = '-'

/-- `REPOSITORY_PART`. -/
def isRepositoryPart (part : List Char) : Bool := !part.isEmpty && part.all isPartChar

def dotGit : List Char := ['.', 'g', 'i', 't']

/-- `name.removesuffix(".git")`. -/
def removeDotGit (name : List Char) : List Char :=
  if dotGit <:+ name then name.take (name.length - 4) else name

structure ScpRemote where
  host : List Char
  owner : List Char
  repo : List Char

/-- `SCP_REMOTE`; a repository that is called `.git` keeps its name. -/
def scpRemote (value : List Char) : Option ScpRemote :=
  let (user, rest) := value.span fun c => c ≠ '@' ∧ c ≠ ':' ∧ c ≠ '/'
  let (host, path) := rest.tail.span fun c => c ≠ ':' ∧ c ≠ '/'
  let owner := before '/' path.tail
  let repo := behind '/' path.tail
  if rest.head? = some '@' ∧ path.head? = some ':' ∧ '/' ∈ path.tail ∧ '/' ∉ repo ∧
      user ≠ [] ∧ host ≠ [] ∧ owner ≠ [] ∧ repo ≠ [] then
    some { host, owner, repo := if repo = dotGit then repo else removeDotGit repo }
  else none

/-- `_repository`. -/
def toRepository (owner name : List Char) : Except ScmException GitHubRepository :=
  if isRepositoryPart owner = false ∨ isRepositoryPart (removeDotGit name) = false then
    .error (repositoryError "GitHub repository owner or name is invalid")
  else .ok { owner, name := removeDotGit name }

/-- `path.strip("/").split("/")` without empty parts. -/
def pathParts (path : List Char) : List (List Char) :=
  (path.splitOn '/').filter fun part => part ≠ []

def https : List Char := ['h', 't', 't', 'p', 's']

def ssh : List Char := ['s', 's', 'h']

def git : List Char := ['g', 'i', 't']

variable (tables : Tables)

/-- `has_invalid_user`. -/
def hasInvalidUser (parsed : ParseResult) : Bool :=
  if parsed.scheme = https then parsed.username.isSome
  else parsed.username ≠ none && parsed.username ≠ some git

/-- A URL that `urlparse` has read. -/
def repositoryOfUrl (parsed : ParseResult) (host : List Char) :
    Except ScmException GitHubRepository :=
  match parsed.hostname tables with
  | none => .error (repositoryError "GitHub repository URL must use HTTPS or SSH")
  | some hostname =>
    if parsed.scheme ≠ https ∧ parsed.scheme ≠ ssh then
      .error (repositoryError "GitHub repository URL must use HTTPS or SSH")
    else if tables.lower hostname ≠ host then
      .error (repositoryError "GitHub repository host is not allowed")
    else if hasInvalidUser parsed = true ∨ parsed.password ≠ none then
      .error (repositoryError "GitHub repository URL must not contain credentials")
    else if parsed.query ≠ [] ∨ parsed.fragment ≠ [] then
      .error (repositoryError "GitHub repository URL must not contain query or fragment")
    else
      match pathParts parsed.path with
      | [owner, name] => toRepository owner name
      | _ => .error (repositoryError "GitHub repository URL must identify owner/repository")

@[irreducible] def parseGithubRepository (value webHost : String) : Except ScmException GitHubRepository :=
  let normalized := (Text.strip value).toList
  let host := tables.lower (Text.strip webHost).toList
  if normalized = [] ∨ host = [] then
    .error (repositoryError "GitHub repository and web host must not be empty")
  else
    match scpRemote normalized with
    | some remote =>
      if tables.lower remote.host ≠ host then
        .error (repositoryError "GitHub repository host is not allowed")
      else toRepository remote.owner remote.repo
    | none =>
      match urlparse tables normalized with
      | .error message => .error (urlError message)
      | .ok parsed => repositoryOfUrl tables parsed host

/-! ## 2. What is accepted -/

/-- The parts of an SCP-like remote `user@host:owner/repo`. -/
structure ScpSpelling (user host owner repo : List Char) : Prop where
  user : user ≠ [] ∧ ∀ c ∈ user, c ≠ '@' ∧ c ≠ ':' ∧ c ≠ '/'
  host : host ≠ [] ∧ ∀ c ∈ host, c ≠ ':' ∧ c ≠ '/'
  owner : owner ≠ [] ∧ '/' ∉ owner
  repo : repo ≠ [] ∧ '/' ∉ repo

def scpText (user host owner repo : List Char) : List Char :=
  user ++ '@' :: (host ++ ':' :: (owner ++ '/' :: repo))

/-- The text names the repository on the host, and it holds no password. -/
inductive Identifies (host : List Char) (repository : GitHubRepository) (text : List Char) : Prop
  | scp {user hostText repo : List Char} (hspelled : ScpSpelling user hostText repository.owner repo)
      (htext : text = scpText user hostText repository.owner repo)
      (hhost : tables.lower hostText = host)
      (hname : repo = repository.name ∨ repo = repository.name ++ dotGit ∨
        repo = repository.name ++ dotGit ++ dotGit)
  | url {parsed : ParseResult} {hostname name : List Char} (hparsed : urlparse tables text = .ok parsed)
      (hscheme : parsed.scheme = https ∨ parsed.scheme = ssh)
      (hhostname : parsed.hostname tables = some hostname) (hhost : tables.lower hostname = host)
      (huser : parsed.username = none ∨ parsed.scheme = ssh ∧ parsed.username = some git)
      (hpassword : parsed.password = none) (hquery : parsed.query = [] ∧ parsed.fragment = [])
      (hpath : pathParts parsed.path = [repository.owner, name])
      (hname : name = repository.name ∨ name = repository.name ++ dotGit)

structure GitHubRepository.Valid (repository : GitHubRepository) : Prop where
  owner : isRepositoryPart repository.owner = true
  name : isRepositoryPart repository.name = true

theorem removeDotGit_spec (name : List Char) :
    name = removeDotGit name ∨ name = removeDotGit name ++ dotGit := by
  unfold removeDotGit
  split
  · rename_i hsuffix
    obtain ⟨front, rfl⟩ := hsuffix
    right
    simp [dotGit]
  · exact .inl rfl

theorem removeDotGit_append (name : List Char) : removeDotGit (name ++ dotGit) = name := by
  unfold removeDotGit
  rw [if_pos (List.suffix_append _ _)]
  simp [dotGit]

theorem toRepository_ok {owner name : List Char} {repository : GitHubRepository}
    (h : toRepository owner name = .ok repository) :
    repository.Valid ∧ repository.owner = owner ∧ repository.name = removeDotGit name := by
  unfold toRepository at h
  split at h
  · cases h
  · rename_i hvalid
    rw [not_or, Bool.not_eq_false, Bool.not_eq_false] at hvalid
    obtain rfl := Except.ok.inj h
    exact ⟨⟨hvalid.1, hvalid.2⟩, rfl, rfl⟩

theorem toRepository_valid {repository : GitHubRepository} (hvalid : repository.Valid)
    (hname : ¬dotGit <:+ repository.name) {name : List Char}
    (h : name = repository.name ∨ name = repository.name ++ dotGit) :
    toRepository repository.owner name = .ok repository := by
  have hremoved : removeDotGit name = repository.name := by
    rcases h with rfl | rfl
    · exact if_neg hname
    · exact removeDotGit_append _
  unfold toRepository
  rw [hremoved, if_neg (by simp [hvalid.owner, hvalid.name])]

/-- A text that starts with characters of a class and one beyond it is split there. -/
theorem span_append {p : Char → Bool} {front back : List Char} {c : Char}
    (hfront : ∀ d ∈ front, p d = true) (hc : p c = false) :
    (front ++ c :: back).span p = (front, c :: back) := by
  rw [List.span_eq_takeWhile_dropWhile, List.takeWhile_append_of_pos hfront,
    List.dropWhile_append_of_pos hfront]
  simp [hc]

theorem span_spec {p : Char → Bool} {cs front back : List Char} (h : cs.span p = (front, back)) :
    cs = front ++ back ∧ ∀ d ∈ front, p d = true := by
  rw [List.span_eq_takeWhile_dropWhile] at h
  obtain ⟨rfl, rfl⟩ := Prod.mk.inj h
  exact ⟨List.takeWhile_append_dropWhile.symm, fun d hd => List.mem_takeWhile_imp hd⟩

/-- The regular expression matches the texts of its form. -/
theorem scpRemote_text {user host owner repo : List Char} (h : ScpSpelling user host owner repo) :
    scpRemote (scpText user host owner repo) =
      some { host, owner, repo := if repo = dotGit then repo else removeDotGit repo } := by
  have huser : (scpText user host owner repo).span (fun c => decide (c ≠ '@' ∧ c ≠ ':' ∧ c ≠ '/')) =
      (user, '@' :: (host ++ ':' :: (owner ++ '/' :: repo))) :=
    span_append (fun c hc => decide_eq_true (h.user.2 c hc)) (by decide)
  have hhost : (host ++ ':' :: (owner ++ '/' :: repo)).span (fun c => decide (c ≠ ':' ∧ c ≠ '/')) =
      (host, ':' :: (owner ++ '/' :: repo)) :=
    span_append (fun c hc => decide_eq_true (h.host.2 c hc)) (by decide)
  have hparts : '/' ∈ owner ++ '/' :: repo := by simp
  unfold scpRemote
  simp only [huser, List.tail_cons, hhost, before_append h.owner.2, behind_append h.owner.2]
  rw [if_pos ⟨rfl, rfl, hparts, h.repo.2, h.user.1, h.host.1, h.owner.1, h.repo.1⟩]

theorem cons_tail {c : Char} {cs : List Char} (h : cs.head? = some c) : cs = c :: cs.tail := by
  cases cs with
  | nil => cases h
  | cons d cs => rw [Option.some.inj h, List.tail_cons]

theorem scpRemote_some {value : List Char} {remote : ScpRemote} (h : scpRemote value = some remote) :
    ∃ user repo, ScpSpelling user remote.host remote.owner repo ∧
      value = scpText user remote.host remote.owner repo ∧
      remote.repo = if repo = dotGit then repo else removeDotGit repo := by
  unfold scpRemote at h
  obtain ⟨user, rest, huser⟩ : ∃ user rest, value.span
      (fun c => decide (c ≠ '@' ∧ c ≠ ':' ∧ c ≠ '/')) = (user, rest) := ⟨_, _, rfl⟩
  obtain ⟨host, path, hhost⟩ : ∃ host path, rest.tail.span
      (fun c => decide (c ≠ ':' ∧ c ≠ '/')) = (host, path) := ⟨_, _, rfl⟩
  simp only [huser, hhost] at h
  split at h
  · rename_i hparts
    obtain ⟨hat, hcolon, hslash, hrepo_slash, huser_ne, hhost_ne, howner, hrepo⟩ := hparts
    obtain rfl := Option.some.inj h
    obtain ⟨hvalue, huser_chars⟩ := span_spec huser
    obtain ⟨hrest, hhost_chars⟩ := span_spec hhost
    refine ⟨user, behind '/' path.tail, ⟨⟨huser_ne, fun c hc => ?_⟩, ⟨hhost_ne, fun c hc => ?_⟩,
      ⟨howner, notMem_before _ _⟩, ⟨hrepo, hrepo_slash⟩⟩, ?_, rfl⟩
    · exact of_decide_eq_true (huser_chars c hc)
    · exact of_decide_eq_true (hhost_chars c hc)
    · rw [scpText, ← split_before hslash, ← cons_tail hcolon, ← hrest, ← cons_tail hat, ← hvalue]
  · cases h

theorem userinfo_of_valid {parsed : ParseResult} (hscheme : parsed.scheme = https ∨ parsed.scheme = ssh)
    (h : hasInvalidUser parsed = false) :
    parsed.username = none ∨ parsed.scheme = ssh ∧ parsed.username = some git := by
  unfold hasInvalidUser at h
  split at h
  · exact .inl (Option.isNone_iff_eq_none.mp (by simpa using h))
  · rename_i hhttps
    cases husername : parsed.username with
    | none => exact .inl rfl
    | some user =>
      have huser : user = git := by simpa [husername] using h
      exact .inr ⟨hscheme.resolve_left hhttps, by rw [huser]⟩

/-- What is accepted names the repository that is returned. -/
theorem parse_identifies {value webHost : String} {repository : GitHubRepository}
    (h : parseGithubRepository tables value webHost = .ok repository) :
    repository.Valid ∧
      Identifies tables (tables.lower (Text.strip webHost).toList) repository
        (Text.strip value).toList := by
  unfold parseGithubRepository at h
  dsimp only at h
  split at h
  · cases h
  split at h
  · rename_i remote hremote
    split at h
    · cases h
    · rename_i hhost
      obtain ⟨user, repo, hspelled, htext, hrepo⟩ := scpRemote_some hremote
      obtain ⟨hvalid, howner, hname⟩ := toRepository_ok h
      rw [← howner] at hspelled htext
      refine ⟨hvalid, .scp hspelled htext (not_not.mp hhost) ?_⟩
      rw [hname, hrepo]
      split
      · exact (removeDotGit_spec repo).imp_right .inl
      · rcases removeDotGit_spec repo with hplain | hsuffix
        · rw [← hplain]
          exact (removeDotGit_spec repo).imp_right .inl
        · rcases removeDotGit_spec (removeDotGit repo) with hplain | htwice
          · rw [← hplain]
            exact .inr (.inl hsuffix)
          · rw [← htwice]
            exact .inr (.inr hsuffix)
  · split at h
    · cases h
    · rename_i parsed hparsed
      unfold repositoryOfUrl at h
      split at h
      · cases h
      rename_i hostname hhostname
      split at h
      · cases h
      rename_i hscheme
      split at h
      · cases h
      rename_i hhost
      split at h
      · cases h
      rename_i huser
      split at h
      · cases h
      rename_i hquery
      split at h
      · rename_i owner name hpath
        obtain ⟨hvalid, howner, hname⟩ := toRepository_ok h
        rw [not_or] at huser hquery
        have hscheme' : parsed.scheme = https ∨ parsed.scheme = ssh := by
          by_contra hneither
          exact hscheme (not_or.mp hneither)
        have huser' := userinfo_of_valid hscheme' (by simpa using huser.1)
        refine ⟨hvalid, .url hparsed hscheme' hhostname (not_not.mp hhost) huser'
          (not_not.mp huser.2) ⟨not_not.mp hquery.1, not_not.mp hquery.2⟩ (howner ▸ hpath) ?_⟩
        rw [hname]
        exact removeDotGit_spec name
      · cases h

/-! ## 3. What every repository is called -/

/-- The usual spellings, with or without `.git` and a slash at the end. -/
inductive Spelling where
  | https (suffix slash : Bool)
  | ssh (user suffix slash : Bool)
  | scp (suffix : Bool)
  deriving DecidableEq, Repr

namespace Spelling

def nameText (name : List Char) (suffix : Bool) : List Char :=
  if suffix then name ++ dotGit else name

/-- Host and path behind the scheme. -/
def urlText (scheme netloc : List Char) (repository : GitHubRepository) (suffix slash : Bool) :
    List Char :=
  scheme ++ ':' :: '/' :: '/' :: (netloc ++ '/' ::
    (repository.owner ++ '/' :: (nameText repository.name suffix ++ if slash then ['/'] else [])))

def text (host : List Char) (repository : GitHubRepository) : Spelling → List Char
  | .https suffix slash => urlText GitHub.https host repository suffix slash
  | .ssh user suffix slash =>
    urlText GitHub.ssh (if user then git ++ '@' :: host else host) repository suffix slash
  | .scp suffix => scpText git host repository.owner (nameText repository.name suffix)

end Spelling

section Plain

variable {tables} {host : List Char} {repository : GitHubRepository}

theorem ne_of_isPartChar {c d : Char} (hc : isPartChar c = true) (hd : isPartChar d = false) :
    c ≠ d := by
  rintro rfl
  rw [hc] at hd
  cases hd

theorem isPartChar_range {c : Char} (h : isPartChar c = true) :
    32 < c.toNat ∧ c.toNat < 128 ∧ Text.isSpace c = false := by
  have hrange : (48 ≤ c.toNat ∧ c.toNat ≤ 57) ∨ (65 ≤ c.toNat ∧ c.toNat ≤ 90) ∨
      (97 ≤ c.toNat ∧ c.toNat ≤ 122) ∨ c.toNat = 95 ∨ c.toNat = 46 ∨ c.toNat = 45 := by
    simp only [isPartChar, isLetter, Text.isDigit, Bool.or_eq_true, Bool.and_eq_true,
      decide_eq_true_eq] at h
    rcases h with (((h | h) | rfl) | rfl) | rfl
    · omega
    · omega
    all_goals decide
  refine ⟨by omega, by omega, ?_⟩
  simp only [Text.isSpace, Bool.or_eq_false_iff, Bool.and_eq_false_iff, decide_eq_false_iff_not]
  omega

/-- The characters of a spelling. -/
def isSpelled (c : Char) : Bool := isPartChar c || c = '/' || c = ':' || c = '@'

theorem isSpelled_range {c : Char} (h : isSpelled c = true) :
    32 < c.toNat ∧ c.toNat < 128 ∧ Text.isSpace c = false := by
  simp only [isSpelled, Bool.or_eq_true, decide_eq_true_eq] at h
  rcases h with ((h | rfl) | rfl) | rfl
  · exact isPartChar_range h
  all_goals decide

theorem isSpelled_of_part {part : List Char} (h : ∀ c ∈ part, isPartChar c = true) :
    ∀ c ∈ part, isSpelled c = true := by
  intro c hc
  simp [isSpelled, h c hc]

theorem part_chars {part : List Char} (h : isRepositoryPart part = true) :
    part ≠ [] ∧ ∀ c ∈ part, isPartChar c = true := by
  unfold isRepositoryPart at h
  rw [Bool.and_eq_true, List.all_eq_true] at h
  exact ⟨by simpa using h.1, h.2⟩

theorem nameText_chars {name : List Char} (h : ∀ c ∈ name, isPartChar c = true) (suffix : Bool) :
    ∀ c ∈ Spelling.nameText name suffix, isPartChar c = true := by
  unfold Spelling.nameText
  split
  · intro c hc
    rcases List.mem_append.mp hc with hc | hc
    · exact h c hc
    · have hdot : ∀ d ∈ dotGit, isPartChar d = true := List.all_iff_forall_prop.mp (by decide)
      exact hdot c hc
  · exact h

theorem nameText_spec (name : List Char) (suffix : Bool) :
    Spelling.nameText name suffix = name ∨ Spelling.nameText name suffix = name ++ dotGit := by
  cases suffix
  · exact .inl rfl
  · exact .inr rfl

theorem pathParts_eq {owner name : List Char} (howner : owner ≠ [] ∧ '/' ∉ owner)
    (hname : name ≠ [] ∧ '/' ∉ name) (slash : Bool) :
    pathParts ('/' :: (owner ++ '/' :: (name ++ if slash then ['/'] else []))) = [owner, name] := by
  have hlast : (name ++ if slash then ['/'] else []).splitOn '/' =
      name :: if slash then [[]] else [] := by
    cases slash with
    | false => simpa using List.splitOn_eq_singleton hname.2
    | true => exact List.splitOn_append_cons_self_of_not_mem hname.2 _
  have hsplit : ('/' :: (owner ++ '/' :: (name ++ if slash then ['/'] else []))).splitOn '/' =
      [] :: owner :: name :: if slash then [[]] else [] := by
    rw [← hlast]
    have hfront := List.splitOn_append_cons_self_of_not_mem (List.not_mem_nil (a := '/'))
      (owner ++ '/' :: (name ++ if slash then ['/'] else []))
    rw [List.nil_append] at hfront
    rw [hfront, List.splitOn_append_cons_self_of_not_mem howner.2]
  unfold pathParts
  rw [hsplit]
  cases slash <;> simp [howner.1, hname.1]

/-- A host name: letters, digits, dots and hyphens, and underscores. -/
def IsHost (host : List Char) : Prop := host ≠ [] ∧ ∀ c ∈ host, isPartChar c = true

theorem toLower_ascii {c : Char} (h : c.toNat < 128) :
    c.toLower.toNat < 128 ∧ c.toLower.toLower = c.toLower := by
  have hall : ∀ n < 128, (Char.ofNat n).toLower.toNat < 128 ∧
      (Char.ofNat n).toLower.toLower = (Char.ofNat n).toLower := by decide
  rw [← Char.ofNat_toNat c]
  exact hall c.toNat h

theorem lower_host (htables : tables.Standard) (hhost : IsHost host) :
    tables.lower host ≠ [] ∧ tables.lower (tables.lower host) = tables.lower host := by
  have hascii : ∀ c ∈ host, c.toNat < 128 := fun c hc => (isPartChar_range (hhost.2 c hc)).2.1
  have hlower := htables.lower host hascii
  have hlowered : ∀ c ∈ host.map Char.toLower, c.toNat < 128 := by
    intro c hc
    obtain ⟨d, hd, rfl⟩ := List.mem_map.mp hc
    exact (toLower_ascii (hascii d hd)).1
  constructor
  · rw [hlower]
    simpa using hhost.1
  · rw [hlower, htables.lower _ hlowered, List.map_map]
    exact List.map_congr_left fun c hc => (toLower_ascii (hascii c hc)).2

theorem notMem_part {part : List Char} (hpart : ∀ c ∈ part, isPartChar c = true) {d : Char}
    (hd : isPartChar d = false) : d ∉ part := fun hmem => ne_of_isPartChar (hpart d hmem) hd rfl

/-- The netlocs of the spellings: the host, behind `git` at most in an SSH URL. -/
def IsNetloc (scheme host netloc : List Char) : Prop :=
  scheme = https ∧ netloc = host ∨ scheme = ssh ∧ (netloc = host ∨ netloc = git ++ '@' :: host)

theorem IsNetloc.chars {scheme netloc : List Char} (h : IsNetloc scheme host netloc)
    (hhost : IsHost host) : ∀ c ∈ netloc, isPartChar c = true ∨ c = '@' := by
  have hgit : ∀ c ∈ git, isPartChar c = true := List.all_iff_forall_prop.mp (by decide)
  intro c hc
  rcases h with ⟨-, rfl⟩ | ⟨-, rfl | rfl⟩
  · exact .inl (hhost.2 c hc)
  · exact .inl (hhost.2 c hc)
  · rw [List.mem_append, List.mem_cons] at hc
    rcases hc with hc | hc | hc
    · exact .inl (hgit c hc)
    · exact .inr hc
    · exact .inl (hhost.2 c hc)

def urlPath (repository : GitHubRepository) (suffix slash : Bool) : List Char :=
  repository.owner ++ '/' ::
    (Spelling.nameText repository.name suffix ++ if slash then ['/'] else [])

theorem urlPath_chars (hvalid : repository.Valid) (suffix slash : Bool) :
    ∀ c ∈ urlPath repository suffix slash, isPartChar c = true ∨ c = '/' := by
  intro c hc
  simp only [urlPath, List.mem_append, List.mem_cons] at hc
  rcases hc with hc | hc | hc | hc
  · exact .inl ((part_chars hvalid.owner).2 c hc)
  · exact .inr hc
  · exact .inl (nameText_chars (part_chars hvalid.name).2 suffix c hc)
  · cases slash with
    | false => cases hc
    | true => exact .inr (List.mem_singleton.mp hc)

theorem urlparse_urlText (htables : tables.Standard) (hhost : IsHost host) (hvalid : repository.Valid)
    {scheme netloc : List Char} (hnetloc : IsNetloc scheme host netloc) (suffix slash : Bool) :
    urlparse tables (Spelling.urlText scheme netloc repository suffix slash) =
      .ok { scheme, netloc, path := '/' :: urlPath repository suffix slash
            query := [], fragment := [] } := by
  have hchars := hnetloc.chars hhost
  have hpath := urlPath_chars hvalid suffix slash
  have hschemes : scheme = https ∨ scheme = ssh := hnetloc.imp And.left And.left
  have hschemeChars : ∀ c ∈ scheme, isPartChar c = true := by
    rcases hschemes with rfl | rfl <;> exact List.all_iff_forall_prop.mp (by decide)
  apply urlparse_plain htables
  · rcases hschemes with rfl | rfl <;> exact ⟨by decide, by decide, by decide, by decide⟩
  · intro c hc
    rw [List.mem_append, List.mem_append, List.mem_cons] at hc
    have hspelled : isSpelled c = true := by
      rcases hc with (hc | hc) | rfl | hc
      · simp [isSpelled, hschemeChars c hc]
      · rcases hchars c hc with hpart | rfl
        · simp [isSpelled, hpart]
        · decide
      · decide
      · rcases hpath c hc with hpart | rfl
        · simp [isSpelled, hpart]
        · decide
    exact ⟨(isSpelled_range hspelled).1, (isSpelled_range hspelled).2.1⟩
  · have hout : ∀ d ∈ ['/', '?', '#', '[', ']'], isPartChar d = false ∧ d ≠ '@' :=
      List.all_iff_forall_prop.mp (by decide)
    intro d hd hmem
    rcases hchars d hmem with hpart | hat
    · exact ne_of_isPartChar hpart (hout d hd).1 rfl
    · exact (hout d hd).2 hat
  · have hout : ∀ d ∈ ['?', '#', ';'], isPartChar d = false ∧ d ≠ '/' :=
      List.all_iff_forall_prop.mp (by decide)
    intro d hd hmem
    rcases hpath d hmem with hpart | hslash
    · exact ne_of_isPartChar hpart (hout d hd).1 rfl
    · exact (hout d hd).2 hslash

/-- Of a spelled netloc, host and user are found, and there is no password. -/
theorem userinfo_of_netloc (hhost : IsHost host) (parsed : ParseResult)
    (hnetloc : IsNetloc parsed.scheme host parsed.netloc) :
    parsed.hostinfo = host ∧ hasInvalidUser parsed = false ∧ parsed.password = none := by
  have hat : '@' ∉ host := notMem_part hhost.2 (by decide)
  have hgit : beforeLast '@' (git ++ '@' :: host) = git := beforeLast_append hat
  have hcolon : ':' ∉ git := by decide
  unfold ParseResult.hostinfo hasInvalidUser ParseResult.username ParseResult.password
  rcases hnetloc with ⟨hscheme, hnetloc⟩ | ⟨hscheme, hnetloc | hnetloc⟩
  · rw [hnetloc, hscheme]
    exact ⟨behindLast_of_notMem hat, by simp [hat], by simp [hat]⟩
  · rw [hnetloc, hscheme]
    exact ⟨behindLast_of_notMem hat, by simp [hat], by simp [hat]⟩
  · rw [hnetloc, hscheme]
    refine ⟨behindLast_append hat, ?_, by simp [hgit, hcolon]⟩
    rw [hgit, before_of_notMem hcolon]
    simp [show ssh ≠ https by decide]

/-- A URL of the host names its repository. -/
theorem repositoryOfUrl_urlText (htables : tables.Standard) (hhost : IsHost host)
    (hvalid : repository.Valid) (hname : ¬dotGit <:+ repository.name) {scheme netloc : List Char}
    (hnetloc : IsNetloc scheme host netloc) (suffix slash : Bool) :
    repositoryOfUrl tables { scheme, netloc, path := '/' :: urlPath repository suffix slash
                             query := [], fragment := [] } (tables.lower host) = .ok repository := by
  have hslash : isPartChar '/' = false := by decide
  obtain ⟨howner_ne, howner⟩ := part_chars hvalid.owner
  obtain ⟨hname_ne, hname_chars⟩ := part_chars hvalid.name
  have hnames_ne : Spelling.nameText repository.name suffix ≠ [] := by
    cases suffix <;> simp [Spelling.nameText, hname_ne]
  have hparts := pathParts_eq ⟨howner_ne, notMem_part howner hslash⟩
    ⟨hnames_ne, notMem_part (nameText_chars hname_chars suffix) hslash⟩ slash
  have hout : ∀ d ∈ [':', '[', '%'], isPartChar d = false := List.all_iff_forall_prop.mp (by decide)
  obtain ⟨hhostinfo, huser, hpassword⟩ := userinfo_of_netloc hhost
    { scheme, netloc, path := '/' :: urlPath repository suffix slash
      query := [], fragment := [] } hnetloc
  have hschemes : scheme = https ∨ scheme = ssh := hnetloc.imp And.left And.left
  unfold repositoryOfUrl
  rw [ParseResult.hostname_eq hhostinfo hhost.1 fun d hd => notMem_part hhost.2 (hout d hd)]
  dsimp only
  rw [if_neg (by rcases hschemes with rfl | rfl <;> decide), if_neg (by simp [(lower_host htables hhost).2]),
    if_neg (by simp [huser, hpassword]), if_neg (by simp), urlPath, hparts]
  exact toRepository_valid hvalid hname (nameText_spec _ _)

theorem text_chars (hhost : IsHost host) (hvalid : repository.Valid) (spelling : Spelling) :
    ∀ c ∈ spelling.text host repository, isSpelled c = true := by
  have hpart : ∀ {c : Char}, isPartChar c = true ∨ c = '/' ∨ c = ':' ∨ c = '@' → isSpelled c = true := by
    intro c hc
    simpa [isSpelled, or_assoc] using hc
  have hurl : ∀ {scheme netloc : List Char} (_ : IsNetloc scheme host netloc) (suffix slash : Bool),
      ∀ c ∈ Spelling.urlText scheme netloc repository suffix slash, isSpelled c = true := by
    intro scheme netloc hnetloc suffix slash c hc
    have hscheme : ∀ c ∈ scheme, isPartChar c = true := by
      rcases hnetloc.imp And.left And.left with rfl | rfl <;>
        exact List.all_iff_forall_prop.mp (by decide)
    rw [Spelling.urlText, List.mem_append, List.mem_cons, List.mem_cons, List.mem_cons,
      List.mem_append, List.mem_cons] at hc
    rcases hc with hc | rfl | rfl | rfl | hc | rfl | hc
    · exact hpart (.inl (hscheme c hc))
    · decide
    · decide
    · decide
    · exact hpart ((hnetloc.chars hhost c hc).imp_right fun h => .inr (.inr h))
    · decide
    · exact hpart ((urlPath_chars hvalid suffix slash c hc).imp_right .inl)
  cases spelling with
  | https suffix slash => exact hurl (.inl ⟨rfl, rfl⟩) suffix slash
  | ssh user suffix slash =>
    cases user
    · exact hurl (.inr ⟨rfl, .inl rfl⟩) suffix slash
    · exact hurl (.inr ⟨rfl, .inr rfl⟩) suffix slash
  | scp suffix =>
    have hgit : ∀ c ∈ git, isPartChar c = true := List.all_iff_forall_prop.mp (by decide)
    intro c hc
    rw [Spelling.text, scpText, List.mem_append, List.mem_cons, List.mem_append, List.mem_cons,
      List.mem_append, List.mem_cons] at hc
    rcases hc with hc | rfl | hc | rfl | hc | rfl | hc
    · exact hpart (.inl (hgit c hc))
    · decide
    · exact hpart (.inl (hhost.2 c hc))
    · decide
    · exact hpart (.inl ((part_chars hvalid.owner).2 c hc))
    · decide
    · exact hpart (.inl (nameText_chars (part_chars hvalid.name).2 suffix c hc))

/-- A URL is not read as an SCP-like remote. -/
theorem scpRemote_urlText {scheme netloc : List Char} (hscheme : scheme = https ∨ scheme = ssh)
    (suffix slash : Bool) : scpRemote (Spelling.urlText scheme netloc repository suffix slash) = none := by
  have hspan : ∀ rest : List Char, (scheme ++ ':' :: rest).span
      (fun c => decide (c ≠ '@' ∧ c ≠ ':' ∧ c ≠ '/')) = (scheme, ':' :: rest) := by
    intro rest
    apply span_append _ (by decide)
    rcases hscheme with rfl | rfl <;> exact List.all_iff_forall_prop.mp (by decide)
  unfold scpRemote Spelling.urlText
  simp only [hspan, List.head?_cons]
  exact if_neg fun h => absurd (Option.some.inj h.1) (by decide)

/-- Every usual spelling names the repository. -/
theorem spelling_parses (htables : tables.Standard) (hhost : IsHost host) (hvalid : repository.Valid)
    (hname : ¬dotGit <:+ repository.name) (spelling : Spelling) :
    parseGithubRepository tables (String.ofList (spelling.text host repository))
      (String.ofList host) = .ok repository := by
  have hchars := text_chars hhost hvalid spelling
  have hvalue : (Text.strip (String.ofList (spelling.text host repository))).toList =
      spelling.text host repository := by
    rw [Text.strip_eq_self, String.toList_ofList]
    rw [String.toList_ofList]
    exact fun c hc => (isSpelled_range (hchars c hc)).2.2
  have hweb : (Text.strip (String.ofList host)).toList = host := by
    rw [Text.strip_eq_self, String.toList_ofList]
    rw [String.toList_ofList]
    exact fun c hc => (isPartChar_range (hhost.2 c hc)).2.2
  have hne : spelling.text host repository ≠ [] := by
    cases spelling <;> simp [Spelling.text, Spelling.urlText, scpText]
  unfold parseGithubRepository
  dsimp only
  rw [hvalue, hweb, if_neg (by simp [hne, (lower_host htables hhost).1])]
  have hurl : ∀ {scheme netloc : List Char}, IsNetloc scheme host netloc → ∀ suffix slash,
      spelling.text host repository = Spelling.urlText scheme netloc repository suffix slash →
      scpRemote (spelling.text host repository) = none ∧ ∃ parsed,
        urlparse tables (spelling.text host repository) = .ok parsed ∧
          repositoryOfUrl tables parsed (tables.lower host) = .ok repository := by
    intro scheme netloc hnetloc suffix slash htext
    rw [htext]
    exact ⟨scpRemote_urlText (hnetloc.imp And.left And.left) suffix slash, _,
      urlparse_urlText htables hhost hvalid hnetloc suffix slash,
      repositoryOfUrl_urlText htables hhost hvalid hname hnetloc suffix slash⟩
  cases spelling with
  | https suffix slash =>
    obtain ⟨hscp, parsed, hparsed, hrepository⟩ := hurl (.inl ⟨rfl, rfl⟩) suffix slash rfl
    rw [hscp]
    dsimp only
    rw [hparsed]
    exact hrepository
  | ssh user suffix slash =>
    have hnetloc : IsNetloc ssh host (if user then git ++ '@' :: host else host) := by
      cases user
      · exact .inr ⟨rfl, .inl rfl⟩
      · exact .inr ⟨rfl, .inr rfl⟩
    obtain ⟨hscp, parsed, hparsed, hrepository⟩ := hurl hnetloc suffix slash rfl
    rw [hscp]
    dsimp only
    rw [hparsed]
    exact hrepository
  | scp suffix =>
    have hslash : isPartChar '/' = false := by decide
    have hcolon : isPartChar ':' = false := by decide
    obtain ⟨howner_ne, howner⟩ := part_chars hvalid.owner
    obtain ⟨hname_ne, hname_chars⟩ := part_chars hvalid.name
    have hnames := nameText_chars hname_chars suffix
    have hspelled : ScpSpelling git host repository.owner (Spelling.nameText repository.name suffix) := by
      refine ⟨⟨by decide, List.all_iff_forall_prop.mp (by decide)⟩, ⟨hhost.1, fun c hc => ?_⟩,
        ⟨howner_ne, notMem_part howner hslash⟩, ⟨?_, notMem_part hnames hslash⟩⟩
      · exact ⟨ne_of_isPartChar (hhost.2 c hc) hcolon, ne_of_isPartChar (hhost.2 c hc) hslash⟩
      · cases suffix <;> simp [Spelling.nameText, hname_ne]
    have hdot : Spelling.nameText repository.name suffix ≠ dotGit := by
      cases suffix with
      | false => exact fun heq => hname (heq ▸ List.suffix_rfl)
      | true => simpa [Spelling.nameText] using hname_ne
    have hremoved : removeDotGit (Spelling.nameText repository.name suffix) = repository.name := by
      cases suffix
      · exact if_neg hname
      · exact removeDotGit_append _
    rw [Spelling.text, scpRemote_text hspelled]
    dsimp only
    rw [if_neg (by simp), if_neg hdot, hremoved]
    exact toRepository_valid hvalid hname (.inl rfl)

end Plain

/-- What is accepted names the returned repository on the configured host and holds no password, and
every usual spelling of a repository is accepted as that repository. -/
theorem repository_identified :
    (∀ (tables : Tables) (value webHost : String) (repository : GitHubRepository),
      parseGithubRepository tables value webHost = .ok repository →
        repository.Valid ∧ Identifies tables (tables.lower (Text.strip webHost).toList) repository
          (Text.strip value).toList) ∧
    ∀ (tables : Tables) (host : List Char) (repository : GitHubRepository) (spelling : Spelling),
      tables.Standard → IsHost host → repository.Valid → ¬dotGit <:+ repository.name →
        parseGithubRepository tables (String.ofList (spelling.text host repository))
          (String.ofList host) = .ok repository :=
  ⟨fun tables _ _ _ h => parse_identifies tables h,
    fun _ _ _ spelling htables hhost hvalid hname =>
      spelling_parses htables hhost hvalid hname spelling⟩

/-- The tables of ASCII. -/
def asciiTables : Tables where
  lower := List.map Char.toLower
  refused _ := none

theorem asciiTables_standard : asciiTables.Standard := ⟨fun _ _ => rfl, fun _ _ _ => rfl⟩

theorem repository_identified_tool :
    parseGithubRepository asciiTables "git@github.com:acme/tool.git" "github.com" =
      .ok { owner := "acme".toList, name := "tool".toList } := by
  have hhost : IsHost "github.com".toList := ⟨by decide, List.all_iff_forall_prop.mp (by decide)⟩
  have hvalid : GitHubRepository.Valid { owner := "acme".toList, name := "tool".toList } :=
    ⟨by decide, by decide⟩
  exact repository_identified.2 asciiTables "github.com".toList
    { owner := "acme".toList, name := "tool".toList } (.scp true) asciiTables_standard hhost hvalid
    (by decide)

end JbOrchestrator.GitHub
