import JbOrchestrator.GitHub.Publisher

/-!
# Safety — what publications do to a repository

Whatever other publications and people do in between: a branch is pushed only after every check of the same
call, a pull request is opened only behind that push, where none was listed, and the review that a
publication returns is a pull request of its branches.
-/

open Lib Urls

namespace JbOrchestrator.GitHub

open Scm GitHubPublisher

/-! ## 1. Pull requests over time -/

/-- The same pull request, whether it is open or not. -/
structure Pull.Same (pull pull' : Pull) : Prop where
  draft : pull'.toDraft = pull.toDraft
  number : pull'.number = pull.number
  htmlUrl : pull'.htmlUrl = pull.htmlUrl

theorem Pull.Same.refl (pull : Pull) : pull.Same pull := ⟨rfl, rfl, rfl⟩

theorem Pull.Same.trans {pull pull' pull'' : Pull} (h : pull.Same pull') (h' : pull'.Same pull'') :
    pull.Same pull'' :=
  ⟨h'.draft.trans h.draft, h'.number.trans h.number, h'.htmlUrl.trans h.htmlUrl⟩

theorem Pull.same_setOpen (pull : Pull) (repository : List Char) (number : ℕ) (isOpen : Bool) :
    pull.Same (pull.setOpen repository number isOpen) := by
  unfold Pull.setOpen
  split
  · exact ⟨rfl, rfl, rfl⟩
  · exact .refl pull

namespace Pulls

/-- No pull request is lost or renamed. -/
def Later (hub hub' : Pulls) : Prop := ∀ pull ∈ hub.pulls, ∃ pull' ∈ hub'.pulls, pull.Same pull'

/-- A number names one pull request of a repository, and one at most is open for a head and a base. -/
structure Valid (hub : Pulls) : Prop where
  numbered : ∀ pull ∈ hub.pulls, pull.number ≤ hub.lastNumber pull.repository
  distinct : ∀ pull ∈ hub.pulls, ∀ pull' ∈ hub.pulls,
    pull.repository = pull'.repository → pull.number = pull'.number → pull = pull'
  single : ∀ pull ∈ hub.pulls, ∀ pull' ∈ hub.pulls, pull.isOpen = true → pull'.isOpen = true →
    pull.branches = pull'.branches → pull = pull'

variable {hub hub' hub'' : Pulls}

theorem Later.refl (hub : Pulls) : Later hub hub := fun pull hpull => ⟨pull, hpull, .refl pull⟩

theorem Later.trans (h : Later hub hub') (h' : Later hub' hub'') : Later hub hub'' := by
  intro pull hpull
  obtain ⟨pull', hpull', hsame⟩ := h pull hpull
  obtain ⟨pull'', hpull'', hsame'⟩ := h' pull' hpull'
  exact ⟨pull'', hpull'', hsame.trans hsame'⟩

theorem mem_openFor {pull : Pull} {branches : List Char × List Char × String × String} :
    pull ∈ hub.openFor branches ↔ pull ∈ hub.pulls ∧ pull.isOpen = true ∧ pull.branches = branches := by
  simp [openFor]

/-- A pull request is opened, or one is open already. -/
theorem create_cases (hub : Pulls) (draft : Draft) (skip : ℕ) (htmlUrl : String) :
    hub.create draft skip htmlUrl = (none, hub) ∨ ∃ pull : Pull, hub.openFor draft.branches = [] ∧
      pull.toDraft = draft ∧ pull.isOpen = true ∧ hub.lastNumber draft.repository < pull.number ∧
      hub.create draft skip htmlUrl = (some pull,
        { pulls := pull :: hub.pulls
          lastNumber := Function.update hub.lastNumber draft.repository pull.number }) := by
  unfold create
  split
  · exact .inl rfl
  · rename_i hnone
    refine .inr ⟨_, not_not.mp hnone, rfl, rfl, ?_, rfl⟩
    show hub.lastNumber draft.repository < hub.lastNumber draft.repository + 1 + skip
    omega

theorem create_later (draft : Draft) (skip : ℕ) (htmlUrl : String) :
    Later hub (hub.create draft skip htmlUrl).2 := by
  rcases hub.create_cases draft skip htmlUrl with h | ⟨pull, -, -, -, -, h⟩
  · rw [h]
    exact .refl hub
  · rw [h]
    exact fun pull' hpull' => ⟨pull', List.mem_cons_of_mem _ hpull', .refl pull'⟩

theorem create_valid (hvalid : hub.Valid) (draft : Draft) (skip : ℕ) (htmlUrl : String) :
    (hub.create draft skip htmlUrl).2.Valid := by
  rcases hub.create_cases draft skip htmlUrl with h | ⟨pull, hnone, rfl, hopen, hnumber, h⟩
  · rw [h]
    exact hvalid
  rw [h]
  -- the number is beyond those of the repository, and nothing was open for the branches
  have hfresh : ∀ other ∈ hub.pulls, other.repository = pull.repository → other.number < pull.number := by
    intro other hother hrepository
    have hle := hvalid.numbered other hother
    rw [hrepository] at hle
    omega
  have hfree : ∀ other ∈ hub.pulls, other.isOpen = true → other.branches ≠ pull.branches := by
    intro other hother hisOpen hbranches
    have hmem : other ∈ hub.openFor pull.branches := mem_openFor.mpr ⟨hother, hisOpen, hbranches⟩
    rw [hnone] at hmem
    cases hmem
  refine ⟨?_, ?_, ?_⟩
  · intro other hother
    show other.number ≤ Function.update hub.lastNumber pull.repository pull.number other.repository
    rw [Function.update_apply]
    rcases List.mem_cons.mp hother with rfl | hother
    · rw [if_pos rfl]
    · split
      · rename_i hrepository
        exact (hfresh other hother hrepository).le
      · exact hvalid.numbered other hother
  · intro other hother other' hother' hrepository hnumbers
    rcases List.mem_cons.mp hother with rfl | hold <;>
      rcases List.mem_cons.mp hother' with rfl | hold'
    · rfl
    · have := hfresh other' hold' hrepository.symm
      omega
    · have := hfresh other hold hrepository
      omega
    · exact hvalid.distinct other hold other' hold' hrepository hnumbers
  · intro other hother other' hother' hisOpen hisOpen' hbranches
    rcases List.mem_cons.mp hother with rfl | hold <;>
      rcases List.mem_cons.mp hother' with rfl | hold'
    · rfl
    · exact absurd hbranches.symm (hfree other' hold' hisOpen')
    · exact absurd hbranches (hfree other hold hisOpen)
    · exact hvalid.single other hold other' hold' hisOpen hisOpen' hbranches

theorem setOpen_later (repository : List Char) (number : ℕ) (isOpen : Bool) :
    Later hub (hub.setOpen repository number isOpen) := fun pull hpull =>
  ⟨_, List.mem_map_of_mem hpull, pull.same_setOpen repository number isOpen⟩

theorem setOpen_valid (hvalid : hub.Valid) {repository : List Char} {number : ℕ} {isOpen : Bool}
    (hsingle : ∀ pull ∈ hub.pulls, ∀ pull' ∈ hub.pulls,
      (pull.setOpen repository number isOpen).isOpen = true →
      (pull'.setOpen repository number isOpen).isOpen = true → pull.branches = pull'.branches →
      pull = pull') : (hub.setOpen repository number isOpen).Valid := by
  have hsame := fun pull : Pull => pull.same_setOpen repository number isOpen
  refine ⟨?_, ?_, ?_⟩
  · intro pull hpull
    obtain ⟨pull, hmem, rfl⟩ := List.mem_map.mp hpull
    rw [(hsame pull).number, (hsame pull).draft]
    exact hvalid.numbered pull hmem
  · intro pull hpull pull' hpull' hrepository hnumber
    obtain ⟨pull, hmem, rfl⟩ := List.mem_map.mp hpull
    obtain ⟨pull', hmem', rfl⟩ := List.mem_map.mp hpull'
    rw [(hsame pull).draft, (hsame pull').draft] at hrepository
    rw [(hsame pull).number, (hsame pull').number] at hnumber
    rw [hvalid.distinct pull hmem pull' hmem' hrepository hnumber]
  · intro pull hpull pull' hpull' hopen hopen' hbranches
    obtain ⟨pull, hmem, rfl⟩ := List.mem_map.mp hpull
    obtain ⟨pull', hmem', rfl⟩ := List.mem_map.mp hpull'
    rw [(hsame pull).draft, (hsame pull').draft] at hbranches
    rw [hsingle pull hmem pull' hmem' hopen hopen' hbranches]

/-- A closed pull request is no longer open for its branches. -/
theorem close_valid (hvalid : hub.Valid) (repository : List Char) (number : ℕ) :
    (hub.setOpen repository number false).Valid := by
  have hwas : ∀ pull : Pull, (pull.setOpen repository number false).isOpen = true →
      pull.isOpen = true := by
    intro pull h
    unfold Pull.setOpen at h
    split at h
    · cases h
    · exact h
  exact setOpen_valid hvalid fun pull hpull pull' hpull' hopen hopen' =>
    hvalid.single pull hpull pull' hpull' (hwas pull hopen) (hwas pull' hopen')

theorem reopen_valid (hvalid : hub.Valid) {repository : List Char} {number : ℕ}
    (hfree : ∀ pull ∈ hub.pulls, pull.repository = repository → pull.number = number →
      hub.openFor pull.branches = []) : (hub.setOpen repository number true).Valid := by
  -- the switched pull request is one, and no other is open for its branches
  have hother : ∀ pull ∈ hub.pulls, ∀ pull' ∈ hub.pulls,
      pull.repository = repository ∧ pull.number = number → pull'.isOpen = true →
      pull.branches = pull'.branches → False := by
    intro pull hpull pull' hpull' hnamed hopen hbranches
    have hmem := mem_openFor.mpr ⟨hpull', hopen, hbranches.symm⟩
    rw [hfree pull hpull hnamed.1 hnamed.2] at hmem
    cases hmem
  apply setOpen_valid hvalid
  intro pull hpull pull' hpull' hopen hopen' hbranches
  unfold Pull.setOpen at hopen hopen'
  split at hopen <;> split at hopen'
  · rename_i hnamed hnamed'
    exact hvalid.distinct pull hpull pull' hpull' (hnamed.1.trans hnamed'.1.symm)
      (hnamed.2.trans hnamed'.2.symm)
  · rename_i hnamed _
    exact (hother pull hpull pull' hpull' hnamed hopen' hbranches).elim
  · rename_i _ hnamed'
    exact (hother pull' hpull' pull hpull hnamed' hopen hbranches.symm).elim
  · exact hvalid.single pull hpull pull' hpull' hopen hopen' hbranches

theorem act_spec (action : Action) : Later hub (hub.act action) ∧ (hub.Valid → (hub.act action).Valid) := by
  cases action with
  | openPull draft skip htmlUrl =>
    exact ⟨create_later draft skip htmlUrl, fun hvalid => create_valid hvalid draft skip htmlUrl⟩
  | close repository number =>
    exact ⟨setOpen_later repository number false, fun hvalid => close_valid hvalid repository number⟩
  | reopen repository number =>
    unfold act
    dsimp only
    split
    · exact ⟨.refl hub, id⟩
    · rename_i hfree
      refine ⟨setOpen_later repository number true, fun hvalid => reopen_valid hvalid ?_⟩
      intro pull hpull hrepository hnumber
      by_contra hne
      apply hfree
      rw [List.any_eq_true]
      exact ⟨pull, hpull, by simp [hrepository, hnumber, hne]⟩

end Pulls

/-! ## 2. What a statement does -/

/-- What GitHub's answers say of the pull requests: a list is that of the open ones, and what it has
opened is there. -/
def Honest (hub : Pulls) : (statement : GitHubStatement) → statement.Reply → Prop
  | .list _ repository sourceBranch targetBranch, outcome =>
    ∀ response, outcome = HttpOutcome.response response → response.statusCode = 200 →
      response.json = .ok (.list ((hub.openFor
        (GitHubStatement.listedBranches repository sourceBranch targetBranch)).map Pull.render))
  | .create _ repository title head base body, outcome =>
    ∀ response, outcome = HttpOutcome.response response → response.statusCode = 201 →
      ∃ pull ∈ hub.pulls, pull.toDraft = GitHubStatement.draft repository title head base body ∧
        response.json = .ok pull.render
  | _, _ => True

/-- Pull requests are opened by a `POST` and switched by people. -/
inductive Changes (hub : Pulls) : GitHubStatement → Pulls → Prop where
  | same (statement : GitHubStatement) : Changes hub statement hub
  | opened (slot : ℕ) (repository : GitHubRepository) (title head base body : String) (pull : Pull)
    (lastNumber : List Char → ℕ)
    (hdraft : pull.toDraft = GitHubStatement.draft repository title head base body)
    (hopen : pull.isOpen = true) (hnone : hub.openFor pull.branches = []) :
    Changes hub (.create slot repository title head base body) ⟨pull :: hub.pulls, lastNumber⟩
  | acted (action : Action) : Changes hub (.act action) (hub.act action)

@[simp] theorem Hub.record_toPulls (s : Hub) (answered : Answered) :
    (s.record answered).toPulls = s.toPulls := by
  unfold Hub.record
  split <;> rfl

/-- The history of a slot gets its own statements. -/
theorem Hub.record_history (s : Hub) (answered : Answered) (slot : ℕ) :
    (s.record answered).history slot =
      if answered.1.slot = some slot then answered :: s.history slot else s.history slot := by
  unfold Hub.record
  cases hslot : answered.1.slot with
  | none => simp
  | some slot' =>
    show Function.update s.history slot' (answered :: s.history slot') slot = _
    rw [Function.update_apply]
    by_cases heq : slot = slot'
    · subst heq
      simp
    · rw [if_neg heq, if_neg fun h => heq (Option.some.inj h).symm]

/-- `legal` is what GitHub's honesty rests on. -/
structure Served (legal : Prop) (s : Hub) (statement : GitHubStatement) (reply : statement.Reply)
    (s' : Hub) : Prop where
  changes : Changes s.toPulls statement s'.toPulls
  later : s.toPulls.Later s'.toPulls
  valid : s.toPulls.Valid → s'.toPulls.Valid
  honest : legal → Honest s'.toPulls statement reply
  history : ∀ slot, s'.history slot =
    if statement.slot = some slot then ⟨statement, reply⟩ :: s.history slot else s.history slot

theorem getD_refused {α : Type} {refused : Option α} {value answer : α} (hne : refused ≠ some answer)
    (h : refused.getD value = answer) : value = answer := by
  cases refused with
  | none => exact h
  | some other => exact absurd (congrArg some h) hne

theorem served_record {legal : Prop} {s : Hub} {hub : Pulls} {statement : GitHubStatement}
    {reply : statement.Reply} (hchanges : Changes s.toPulls statement hub) (hlater : s.toPulls.Later hub)
    (hvalid : s.toPulls.Valid → hub.Valid) (hhonest : legal → Honest hub statement reply) :
    Served legal s statement reply (Hub.record ⟨hub, s.history⟩ ⟨statement, reply⟩) := by
  have hpulls : (Hub.record ⟨hub, s.history⟩ ⟨statement, reply⟩).toPulls = hub := Hub.record_toPulls _ _
  refine ⟨?_, ?_, ?_, ?_, fun slot => Hub.record_history _ _ slot⟩
  · rw [hpulls]
    exact hchanges
  · rw [hpulls]
    exact hlater
  · rw [hpulls]
    exact hvalid
  · rw [hpulls]
    exact hhonest

/-- A statement that leaves the pull requests as they are. -/
theorem served_same {legal : Prop} (s : Hub) {statement : GitHubStatement} {reply : statement.Reply}
    (hhonest : legal → Honest s.toPulls statement reply) :
    Served legal s statement reply (s.record ⟨statement, reply⟩) :=
  served_record (.same statement) (.refl _) id hhonest

theorem serve_spec (statement : GitHubStatement) (choice : statement.Choice) (s : Hub) :
    Served (statement.Legal choice) s statement (statement.serve choice s).1 (statement.serve choice s).2 := by
  cases statement with
  | resolve slot path => exact served_same s fun _ => trivial
  | isDir slot path => exact served_same s fun _ => trivial
  | git slot workspace arguments => exact served_same s fun _ => trivial
  | list slot repository sourceBranch targetBranch =>
    apply served_same s
    intro hlegal response hresponse hstatus
    have hlisted := getD_refused (fun hrefused => hlegal response hrefused hstatus) hresponse
    obtain rfl := HttpOutcome.response.inj hlisted
    rfl
  | act action =>
    have hact := s.toPulls.act_spec action
    exact ⟨.acted action, hact.1, hact.2, fun _ => trivial, fun slot => rfl⟩
  | create slot repository title head base body =>
    cases choice with
    | refused outcome =>
      apply served_same s
      intro hlegal response hresponse hstatus
      exact absurd hstatus (hlegal response hresponse)
    | processed skip htmlUrl requestId conflict lost =>
      have hlater : s.toPulls.Later (s.toPulls.create
          (GitHubStatement.draft repository title head base body) skip htmlUrl).2 :=
        Pulls.create_later _ _ _
      have hvalid := fun h : s.toPulls.Valid =>
        Pulls.create_valid h (GitHubStatement.draft repository title head base body) skip htmlUrl
      rcases s.toPulls.create_cases (GitHubStatement.draft repository title head base body) skip htmlUrl
        with hcreate | ⟨pull, hnone, hdraft, hopen, -, hcreate⟩
      · have hserve : GitHubStatement.serve (.create slot repository title head base body)
            (.processed skip htmlUrl requestId conflict lost) s =
            (lost.getD (GitHubStatement.respond 422 requestId conflict), s.record
              ⟨.create slot repository title head base body,
                lost.getD (GitHubStatement.respond 422 requestId conflict)⟩) := by
          simp only [GitHubStatement.serve, GitHubStatement.answer, hcreate]
        rw [hserve]
        apply served_same s
        intro hlegal response hresponse hstatus
        have hconflict := getD_refused (fun hlost => hlegal response hlost hstatus) hresponse
        obtain rfl := HttpOutcome.response.inj hconflict
        cases hstatus
      · have hserve : GitHubStatement.serve (.create slot repository title head base body)
            (.processed skip htmlUrl requestId conflict lost) s =
            (lost.getD (GitHubStatement.respond 201 requestId (.ok pull.render)),
              Hub.record { s with toPulls := (s.toPulls.create (GitHubStatement.draft repository title
                head base body) skip htmlUrl).2 } ⟨.create slot repository title head base body,
                lost.getD (GitHubStatement.respond 201 requestId (.ok pull.render))⟩) := by
          simp only [GitHubStatement.serve, GitHubStatement.answer, hcreate]
        rw [hserve]
        apply served_record _ hlater hvalid
        · rw [hcreate]
          intro hlegal response hresponse hstatus
          have hopened := getD_refused (fun hlost => hlegal response hlost hstatus) hresponse
          obtain rfl := HttpOutcome.response.inj hopened
          exact ⟨pull, List.mem_cons_self, hdraft, rfl⟩
        · rw [hcreate]
          exact .opened slot repository title head base body pull _ hdraft hopen
            (by rw [hdraft]; exact hnone)

/-! ## 3. What a publication does -/

/-- What the checks of a publication were answered. -/
structure Checks where
  repository : GitHubRepository
  workspace : Location
  topLevelText : String
  remote : GitHubRepository
  remoteText : String
  headCommit : String
  topLevel : GitOutcome
  sourceRef : GitOutcome
  targetRef : GitOutcome
  branch : GitOutcome
  status : GitOutcome
  remoteUrl : GitOutcome
  head : GitOutcome
  pushed : GitOutcome

variable (tables : Tables) (publisher : GitHubPublisher)

def ran (slot : ℕ) (workspace : Location) (arguments : List String) (outcome : GitOutcome) : Answered :=
  ⟨.git slot workspace arguments, outcome⟩

namespace Checks

variable (checks : Checks) (slot : ℕ) (request : ScmPublicationRequest)

/-- The statements in front of the push, the last one first. -/
def answered : List Answered :=
  [ran slot checks.workspace ["rev-parse", "HEAD"] checks.head,
    ran slot checks.workspace ["config", "--get", "remote." ++ publisher.remoteName ++ ".url"]
      checks.remoteUrl,
    ran slot checks.workspace ["status", "--porcelain"] checks.status,
    ran slot checks.workspace ["branch", "--show-current"] checks.branch,
    ran slot checks.workspace ["check-ref-format", branchRef request.targetBranch] checks.targetRef,
    ran slot checks.workspace ["check-ref-format", branchRef request.sourceBranch] checks.sourceRef,
    ⟨.resolve slot checks.topLevelText, Except.ok checks.workspace⟩,
    ran slot checks.workspace ["rev-parse", "--show-toplevel"] checks.topLevel,
    ⟨.isDir slot checks.workspace, Except.ok true⟩,
    ⟨.resolve slot request.workspacePath, Except.ok checks.workspace⟩]

/-- Every check was answered as it must be. -/
structure Passed : Prop where
  repository : parseGithubRepository tables request.repository publisher.webHost = .ok checks.repository
  workspace : ∃ root ∈ publisher.workspaceRoots, root <+: checks.workspace
  topLevel : checks.topLevel.output = .ok checks.topLevelText
  sourceRef : ∃ text, checks.sourceRef.output = .ok text
  targetRef : ∃ text, checks.targetRef.output = .ok text
  branch : checks.branch.output = .ok request.sourceBranch
  status : checks.status.output = .ok ""
  remoteUrl : checks.remoteUrl.output = .ok checks.remoteText
  remote : parseGithubRepository tables checks.remoteText publisher.webHost = .ok checks.remote
  same : folded checks.remote.slug = folded checks.repository.slug
  head : checks.head.output = .ok checks.headCommit

/-- The push and what is in front of it. -/
def pushAnswered : List Answered :=
  ran slot checks.workspace (publisher.pushArguments checks.headCommit request.sourceBranch)
    checks.pushed :: checks.answered publisher slot request

/-- The push went through as well. -/
structure Pushed : Prop extends checks.Passed tables publisher request where
  pushed : ∃ text, checks.pushed.output = .ok text

end Checks

/-- What a slot has asked since its call began, the last statement first. -/
def Since (slot : ℕ) (began : Hub) (asked : List Answered) (s : Hub) : Prop :=
  s.history slot = asked ++ began.history slot

/-- What is known when a statement is issued. -/
def Issues (slot : ℕ) (call : HubCall) (began s : Hub) : GitHubStatement → Prop
  | .resolve slot' _ | .isDir slot' _ => slot' = slot ∧ ∃ request, call = .publish request
  | .git slot' workspace arguments => slot' = slot ∧ ∃ request, call = .publish request ∧
    (arguments.head? = some "push" → ∃ checks, Checks.Passed tables publisher checks request ∧
      workspace = checks.workspace ∧
      arguments = publisher.pushArguments checks.headCommit request.sourceBranch ∧
      Since slot began (checks.answered publisher slot request) s)
  | .list slot' repository sourceBranch targetBranch => slot' = slot ∧ ∃ request,
    call = .publish request ∧ sourceBranch = request.sourceBranch ∧ targetBranch = request.targetBranch ∧
      ∃ checks later, Checks.Pushed tables publisher checks request ∧ repository = checks.repository ∧
        Since slot began (later ++ checks.pushAnswered publisher slot request) s
  | .create slot' repository title head base body => slot' = slot ∧ ∃ request,
    call = .publish request ∧ title = request.title ∧ head = request.sourceBranch ∧
      base = request.targetBranch ∧ body = request.body ∧
      ∃ checks response, Checks.Pushed tables publisher checks request ∧ repository = checks.repository ∧
        response.statusCode = 200 ∧ response.json = .ok (.list []) ∧
        Since slot began (⟨.list slot repository head base, HttpOutcome.response response⟩ ::
          checks.pushAnswered publisher slot request) s
  | .act _ => ∃ action, call = .act action

/-- The review that a result names. -/
structure Pull.Named (pull : Pull) (repository : GitHubRepository) (result : ScmPublicationResult) :
    Prop where
  branches : pull.branches =
    GitHubStatement.listedBranches repository result.sourceBranch result.targetBranch
  reviewId : result.reviewId = toString (pull.number : ℤ)
  reviewUrl : result.reviewUrl = pull.htmlUrl

/-- What a publication returns: a pull request of its branches, on the configured host, behind its own
push. -/
structure Published (slot : ℕ) (request : ScmPublicationRequest) (began s : Hub)
    (result : ScmPublicationResult) : Prop where
  repository : result.repository = request.repository
  sourceBranch : result.sourceBranch = request.sourceBranch
  targetBranch : result.targetBranch = request.targetBranch
  provider : result.provider = "github"
  host : urlHostname tables result.reviewUrl = .ok (some publisher.webHost.toList)
  pushed : ∃ checks later, Checks.Pushed tables publisher checks request ∧
    Since slot began (later ++ checks.pushAnswered publisher slot request) s ∧
    ∃ pull ∈ s.pulls, pull.Named checks.repository result

def Returned (slot : ℕ) (call : HubCall) (began s : Hub)
    (outcome : Except ScmException (Option ScmPublicationResult)) : Prop :=
  ∀ request, call = .publish request → ∀ answer, outcome = .ok answer →
    ∃ result, answer = some result ∧ Published tables publisher slot request began s result

def Relies (slot : ℕ) (s s' : Hub) : Prop :=
  s.toPulls.Later s'.toPulls ∧ s'.history slot = s.history slot

theorem Pull.Named.same {pull pull' : Pull} {repository : GitHubRepository}
    {result : ScmPublicationResult} (h : pull.Named repository result) (hsame : pull.Same pull') :
    pull'.Named repository result :=
  ⟨(congrArg Draft.branches hsame.draft).trans h.branches, by rw [hsame.number, h.reviewId],
    by rw [hsame.htmlUrl, h.reviewUrl]⟩

variable {tables publisher} in
theorem Published.relies {slot : ℕ} {request : ScmPublicationRequest} {began s s' : Hub}
    {result : ScmPublicationResult} (h : Published tables publisher slot request began s result)
    (hrely : Relies slot s s') : Published tables publisher slot request began s' result where
  repository := h.repository
  sourceBranch := h.sourceBranch
  targetBranch := h.targetBranch
  provider := h.provider
  host := h.host
  pushed := by
    obtain ⟨checks, later, hpushed, hs, pull, hpull, hnamed⟩ := h.pushed
    obtain ⟨pull', hpull', hsame⟩ := hrely.1 pull hpull
    exact ⟨checks, later, hpushed, hrely.2.trans hs, pull', hpull', hnamed.same hsame⟩

def Guarantees (slot : ℕ) (s s' : Hub) : Prop :=
  s.toPulls.Later s'.toPulls ∧ (s.toPulls.Valid → s'.toPulls.Valid) ∧
    ∀ other, other ≠ slot → s'.history other = s.history other

section

variable (slot : ℕ) (request : ScmPublicationRequest) (began : Hub)

/-- What is left to show of a part of a publication that ends with `P`. -/
abbrev Publishes {β : Type} (P : β → Hub → Prop) (p : Publishing β) (s : Hub) : Prop :=
  (publishing tables publisher).Safe GitHubStatement.Legal (fun s => s.toPulls.Valid) (Relies slot)
    (Guarantees slot) (Issues tables publisher slot (.publish request) began) (fun _ _ => True) P p s

variable {tables publisher slot request began} {α β : Type} {P : β → Hub → Prop} {s : Hub}
  {asked : List Answered}

theorem publishes_bind {p : Publishing α} {Q : α → Hub → Prop} {f : α → Publishing β}
    (hp : Publishes tables publisher slot request began Q p s)
    (hf : ∀ value s, Q value s → Publishes tables publisher slot request began P (f value) s) :
    Publishes tables publisher slot request began P (p >>= f) s :=
  (publishing tables publisher).safe_bind hp hf

theorem publishes_ofExcept {x : Except ScmException α} {f : α → Publishing β}
    (h : ∀ value, x = .ok value → Publishes tables publisher slot request began P (f value) s) :
    Publishes tables publisher slot request began P (Program.ofExcept x >>= f) s := by
  cases x with
  | ok value => exact h value rfl
  | error error => trivial

theorem publishes_raiseIf {condition : Bool} {reason : String} {f : Unit → Publishing β}
    (h : condition = false → Publishes tables publisher slot request began P (f ()) s) :
    Publishes tables publisher slot request began P (raiseIf condition reason >>= f) s := by
  cases condition with
  | true => trivial
  | false => exact h rfl

/-- A statement is issued on what was asked before it, and its reply comes on top of that. -/
theorem publishes_ask {statement : GitHubStatement} {f : statement.Reply → Publishing β}
    (hslot : statement.slot = some slot) (hs : Since slot began asked s)
    (hissue : ∀ s', Since slot began asked s' →
      Issues tables publisher slot (.publish request) began s' statement)
    (hnext : ∀ reply s', Since slot began (⟨statement, reply⟩ :: asked) s' →
      Honest s'.toPulls statement reply →
      Publishes tables publisher slot request began P (f reply) s') :
    Publishes tables publisher slot request began P (ask statement >>= f) s := by
  intro s' _ hrely
  have hs' : Since slot began asked s' := hrely.2.trans hs
  refine ⟨hissue s' hs', fun choice hlegal => ?_⟩
  have hserved := serve_spec statement choice s'
  refine ⟨⟨hserved.later, hserved.valid, fun other hother => ?_⟩, hnext _ _ ?_ (hserved.honest hlegal)⟩
  · apply (hserved.history other).trans (if_neg _)
    rw [hslot]
    exact fun h => hother (Option.some.inj h).symm
  · show _ = _
    exact (hserved.history slot).trans ((if_pos hslot).trans (congrArg _ hs'))

theorem resolve_safe {path : String} {f : Location → Publishing β} (hs : Since slot began asked s)
    (h : ∀ location s', Since slot began (⟨.resolve slot path, Except.ok location⟩ :: asked) s' →
      Publishes tables publisher slot request began P (f location) s') :
    Publishes tables publisher slot request began P (resolve slot path >>= f) s := by
  apply publishes_bind (Q := fun location s' => Since slot began
    (⟨.resolve slot path, Except.ok location⟩ :: asked) s') _ h
  apply publishes_ask rfl hs
  · exact fun _ _ => ⟨rfl, request, rfl⟩
  · rintro (error | location) s' hs' -
    · trivial
    · exact hs'

/-- A git command, of which only a push asks for more. -/
theorem runGit_safe {workspace : Location} {arguments : List String} {f : String → Publishing β}
    (hs : Since slot began asked s)
    (hpush : arguments.head? = some "push" → ∃ checks, Checks.Passed tables publisher checks request ∧
      workspace = checks.workspace ∧
      arguments = publisher.pushArguments checks.headCommit request.sourceBranch ∧
      asked = checks.answered publisher slot request)
    (h : ∀ outcome text s', outcome.output = .ok text →
      Since slot began (ran slot workspace arguments outcome :: asked) s' →
      Publishes tables publisher slot request began P (f text) s') :
    Publishes tables publisher slot request began P (runGit slot workspace arguments >>= f) s := by
  apply publishes_bind (Q := fun text s' => ∃ outcome, outcome.output = .ok text ∧
    Since slot began (ran slot workspace arguments outcome :: asked) s')
  · apply publishes_ask rfl hs
    · intro s' hs'
      refine ⟨rfl, request, rfl, fun hhead => ?_⟩
      obtain ⟨checks, hpassed, hworkspace, harguments, rfl⟩ := hpush hhead
      exact ⟨checks, hpassed, hworkspace, harguments, hs'⟩
    · intro outcome s' hs' _
      cases houtput : outcome.output with
      | error error => trivial
      | ok text => exact ⟨outcome, houtput, hs'⟩
  · rintro text s' ⟨outcome, houtput, hs'⟩
    exact h outcome text s' houtput hs'

theorem readGit_safe {workspace : Location} {command : String} {arguments : List String}
    {f : String → Publishing β} (hs : Since slot began asked s) (hread : command ≠ "push")
    (h : ∀ outcome text s', outcome.output = .ok text →
      Since slot began (ran slot workspace (command :: arguments) outcome :: asked) s' →
      Publishes tables publisher slot request began P (f text) s') :
    Publishes tables publisher slot request began P
      (runGit slot workspace (command :: arguments) >>= f) s :=
  runGit_safe hs (fun hpush => absurd (Option.some.inj hpush) hread) h

theorem trustedWorkspace_safe {f : Location → Publishing β} (hs : Since slot began [] s)
    (h : ∀ workspace s', (∃ root ∈ publisher.workspaceRoots, root <+: workspace) →
      Since slot began [⟨.isDir slot workspace, Except.ok true⟩,
        ⟨.resolve slot request.workspacePath, Except.ok workspace⟩] s' →
      Publishes tables publisher slot request began P (f workspace) s') :
    Publishes tables publisher slot request began P
      (publisher.trustedWorkspace slot request.workspacePath >>= f) s := by
  apply publishes_bind (Q := fun workspace s' => (∃ root ∈ publisher.workspaceRoots, root <+: workspace) ∧
    Since slot began [⟨.isDir slot workspace, Except.ok true⟩,
      ⟨.resolve slot request.workspacePath, Except.ok workspace⟩] s')
  · apply resolve_safe hs
    intro workspace s₁ hs₁
    apply publishes_ask rfl hs₁
    · exact fun _ _ => ⟨rfl, request, rfl⟩
    · rintro (error | isDir) s₂ hs₂ -
      · trivial
      · apply publishes_raiseIf
        intro hpresent
        obtain rfl : isDir = true := by simpa using hpresent
        apply publishes_raiseIf
        intro hroots
        rw [Bool.not_eq_false', List.any_eq_true] at hroots
        obtain ⟨root, hroot, hprefix⟩ := hroots
        exact ⟨⟨root, hroot, of_decide_eq_true hprefix⟩, hs₂⟩
  · rintro workspace s' ⟨hroots, hs'⟩
    exact h workspace s' hroots hs'

/-- The push is issued when every check was answered as it must be. -/
theorem push_safe {repository : GitHubRepository} {workspace : Location} {f : Unit → Publishing β}
    (hrepository : parseGithubRepository tables request.repository publisher.webHost = .ok repository)
    (hroots : ∃ root ∈ publisher.workspaceRoots, root <+: workspace)
    (hs : Since slot began [⟨.isDir slot workspace, Except.ok true⟩,
      ⟨.resolve slot request.workspacePath, Except.ok workspace⟩] s)
    (h : ∀ checks s', Checks.Pushed tables publisher checks request → checks.repository = repository →
      Since slot began (checks.pushAnswered publisher slot request) s' →
      Publishes tables publisher slot request began P (f ()) s') :
    Publishes tables publisher slot request began P
      (publisher.push tables slot repository workspace request >>= f) s := by
  apply publishes_bind (Q := fun _ s' => ∃ checks, Checks.Pushed tables publisher checks request ∧
    checks.repository = repository ∧ Since slot began (checks.pushAnswered publisher slot request) s')
  · unfold push
    apply readGit_safe hs (by decide)
    intro topLevel topLevelText s₁ htopLevel hs₁
    apply resolve_safe hs₁
    intro location s₂ hs₂
    apply publishes_raiseIf
    intro hlocation
    obtain rfl : location = workspace := by simpa using hlocation
    apply readGit_safe hs₂ (by decide)
    intro sourceRef sourceText s₃ hsource hs₃
    apply readGit_safe hs₃ (by decide)
    intro targetRef targetText s₄ htarget hs₄
    apply readGit_safe hs₄ (by decide)
    intro branch currentBranch s₅ hbranch hs₅
    apply publishes_raiseIf
    intro hcurrent
    obtain rfl : currentBranch = request.sourceBranch := by simpa using hcurrent
    apply readGit_safe hs₅ (by decide)
    intro status statusText s₆ hstatus hs₆
    apply publishes_raiseIf
    intro hclean
    obtain rfl : statusText = "" := by simpa using hclean
    apply readGit_safe hs₆ (by decide)
    intro remoteUrl remoteText s₇ hremoteUrl hs₇
    refine publishes_ofExcept ?_
    intro remote hremote
    apply publishes_raiseIf
    intro hslug
    have hsame : folded remote.slug = folded repository.slug := by simpa using hslug
    apply readGit_safe hs₇ (by decide)
    intro head headCommit s₈ hhead hs₈
    let passed (pushed : GitOutcome) : Checks :=
      { repository, workspace := location, topLevelText, remote, remoteText, headCommit, topLevel,
        sourceRef, targetRef, branch, status, remoteUrl, head, pushed }
    have hpassed : ∀ pushed, Checks.Passed tables publisher (passed pushed) request := fun pushed =>
      { repository := hrepository
        workspace := hroots
        topLevel := htopLevel
        sourceRef := ⟨sourceText, hsource⟩
        targetRef := ⟨targetText, htarget⟩
        branch := hbranch
        status := hstatus
        remoteUrl := hremoteUrl
        remote := hremote
        same := hsame
        head := hhead }
    apply runGit_safe hs₈
    · intro _
      exact ⟨passed head, hpassed head, rfl, rfl, rfl⟩
    · intro pushed text s₉ hpushed hs₉
      exact ⟨passed pushed, ⟨hpassed pushed, text, hpushed⟩, rfl, hs₉⟩
  · rintro - s' ⟨checks, hpushed, hsame, hs'⟩
    exact h checks s' hpushed hsame hs'

/-- The pull request that the client has read. -/
structure Pull.Read (pull : Pull) (repository : GitHubRepository) (request : ScmPublicationRequest)
    (answer : GitHubPullRequest) : Prop where
  branches : pull.branches =
    GitHubStatement.listedBranches repository request.sourceBranch request.targetBranch
  number : answer.numberText = toString (pull.number : ℤ)
  htmlUrl : answer.htmlUrl = pull.htmlUrl

theorem pullRequest_render {pull : Pull} {sourceBranch targetBranch : String} {answer : GitHubPullRequest}
    (h : pullRequest tables pull.render sourceBranch targetBranch = .ok answer) :
    answer.numberText = toString (pull.number : ℤ) ∧ answer.htmlUrl = pull.htmlUrl := by
  unfold pullRequest at h
  simp only [Pull.render, entriesOf] at h
  have hnumber : (Json.lookup [("number", Json.scalar (.int pull.number)),
      ("html_url", .scalar (.str pull.htmlUrl)), ("head", .dict [("ref", .scalar (.str pull.head))]),
      ("base", .dict [("ref", .scalar (.str pull.base))])] "number").bind intOf =
        some ((pull.number : ℤ), toString (pull.number : ℤ)) := rfl
  have hurl : (Json.lookup [("number", Json.scalar (.int pull.number)),
      ("html_url", .scalar (.str pull.htmlUrl)), ("head", .dict [("ref", .scalar (.str pull.head))]),
      ("base", .dict [("ref", .scalar (.str pull.base))])] "html_url").bind textOf =
        some pull.htmlUrl := rfl
  rw [hnumber] at h
  dsimp only at h
  split at h
  · cases h
  rw [hurl] at h
  obtain ⟨scheme, -, h⟩ := bind_ok h
  split at h
  · cases h
  split at h
  · cases h
  split at h
  · cases h
  obtain rfl := Except.ok.inj h
  exact ⟨rfl, rfl⟩

/-- Nothing is found in an empty list only, and otherwise its first pull request. -/
theorem found_spec {sourceBranch targetBranch : String} {response : Response}
    {answer : Option GitHubPullRequest}
    (h : found tables sourceBranch targetBranch response = .ok answer) :
    response.statusCode = 200 ∧ ∃ items, response.json = .ok (.list items) ∧
      (items = [] ∧ answer = none ∨ ∃ first rest existing, items = first :: rest ∧
        pullRequest tables first sourceBranch targetBranch = .ok existing ∧ answer = some existing) := by
  unfold found at h
  split at h
  · cases h
  rename_i hstatus
  obtain ⟨payload, hpayload, h⟩ := bind_ok h
  have hjson : response.json = .ok payload := by
    unfold Response.decoded at hpayload
    cases hjson : response.json with
    | error message =>
      rw [hjson] at hpayload
      cases hpayload
    | ok value =>
      rw [hjson] at hpayload
      rw [Except.ok.inj hpayload]
  refine ⟨not_not.mp hstatus, ?_⟩
  split at h
  · obtain rfl := Except.ok.inj h
    exact ⟨[], hjson, .inl ⟨rfl, rfl⟩⟩
  · rename_i first rest
    obtain ⟨existing, hexisting, h⟩ := bind_ok h
    obtain rfl := Except.ok.inj h
    exact ⟨_, hjson, .inr ⟨first, rest, existing, rfl, hexisting, rfl⟩⟩
  · cases h

variable {checks : Checks} {later : List Answered}

/-- What `_find` answers: an empty list, or an open pull request of the branches. -/
structure Finds (checks : Checks) (asked : List Answered) (slot : ℕ) (request : ScmPublicationRequest)
    (began : Hub) (existing : Option GitHubPullRequest) (s : Hub) : Prop where
  asked : ∃ response : Response, response.statusCode = 200 ∧
    (existing = none → response.json = .ok (.list [])) ∧ Since slot began
      (⟨.list slot checks.repository request.sourceBranch request.targetBranch,
        HttpOutcome.response response⟩ :: asked) s
  pull : ∀ answer, existing = some answer → ∃ pull ∈ s.pulls, pull.Read checks.repository request answer

variable (later) in
theorem find_safe {f : Option GitHubPullRequest → Publishing β}
    (hpushed : Checks.Pushed tables publisher checks request)
    (hs : Since slot began (later ++ checks.pushAnswered publisher slot request) s)
    (h : ∀ existing s', Finds checks (later ++ checks.pushAnswered publisher slot request) slot request
      began existing s' → Publishes tables publisher slot request began P (f existing) s') :
    Publishes tables publisher slot request began P
      (find tables slot checks.repository request.sourceBranch request.targetBranch >>= f) s := by
  apply publishes_bind (Q := fun existing s' => Finds checks
    (later ++ checks.pushAnswered publisher slot request) slot request began existing s') _ h
  apply publishes_ask rfl hs
  · exact fun s' hs' => ⟨rfl, request, rfl, rfl, rfl, checks, later, hpushed, rfl, hs'⟩
  rintro (response | typeName | exc) s' hs' hhonest
  · show Publishes tables publisher slot request began _ (Program.ofExcept (found tables
      request.sourceBranch request.targetBranch response)) s'
    cases hfound : found tables request.sourceBranch request.targetBranch response with
    | error error => trivial
    | ok existing =>
      obtain ⟨hstatus, items, hjson, hitems⟩ := found_spec hfound
      refine ⟨⟨response, hstatus, fun hnone => ?_, hs'⟩, fun answer hanswer => ?_⟩
      · rcases hitems with ⟨rfl, -⟩ | ⟨_, _, _, -, -, hsome⟩
        · exact hjson
        · cases hnone.symm.trans hsome
      · rcases hitems with ⟨-, hnone⟩ | ⟨first, rest, existing', rfl, hread, hsome⟩
        · cases hnone.symm.trans hanswer
        · -- the list is that of the open pull requests of the branches
          obtain rfl := Option.some.inj (hsome.symm.trans hanswer)
          have hlisted := Json.list.inj (Except.ok.inj (hjson.symm.trans (hhonest response rfl hstatus)))
          obtain ⟨pull, hpull, hrender⟩ := List.mem_map.mp (hlisted ▸ List.mem_cons_self)
          obtain ⟨hmem, -, hbranches⟩ := Pulls.mem_openFor.mp hpull
          obtain ⟨hnumber, hurl⟩ := pullRequest_render (hrender ▸ hread)
          exact ⟨pull, hmem, hbranches, hnumber, hurl⟩
  · trivial
  · trivial

/-- The pull request that a publication goes on with. -/
def Chosen (checks : Checks) (publisher : GitHubPublisher) (slot : ℕ) (request : ScmPublicationRequest)
    (began : Hub) (answer : GitHubPullRequest) (s : Hub) : Prop :=
  ∃ later, Since slot began (later ++ checks.pushAnswered publisher slot request) s ∧
    ∃ pull ∈ s.pulls, pull.Read checks.repository request answer

variable (later) in
theorem Finds.chosen {answer : GitHubPullRequest}
    (h : Finds checks (later ++ checks.pushAnswered publisher slot request) slot request began
      (some answer) s) : Chosen checks publisher slot request began answer s := by
  obtain ⟨response, -, -, hs⟩ := h.asked
  exact ⟨_ :: later, hs, h.pull answer rfl⟩

theorem findOrCreate_safe {f : GitHubPullRequest → Publishing β}
    (hpushed : Checks.Pushed tables publisher checks request)
    (hs : Since slot began (checks.pushAnswered publisher slot request) s)
    (h : ∀ answer s', Chosen checks publisher slot request began answer s' →
      Publishes tables publisher slot request began P (f answer) s') :
    Publishes tables publisher slot request began P
      (findOrCreatePullRequest tables slot checks.repository request >>= f) s := by
  apply publishes_bind (Q := Chosen checks publisher slot request began) _ h
  unfold findOrCreatePullRequest
  apply find_safe [] hpushed hs
  rintro (- | existing) s₁ hfinds
  · obtain ⟨listing, hstatus, hempty, hs₁⟩ := hfinds.asked
    apply publishes_ask rfl hs₁
    · intro s' hs'
      exact ⟨rfl, request, rfl, rfl, rfl, rfl, rfl, checks, listing, hpushed, rfl, hstatus, hempty rfl, hs'⟩
    rintro (response | typeName | exc) s₂ hs₂ hhonest
    · show Publishes tables publisher slot request began _
        (created tables slot checks.repository request response) s₂
      unfold created
      split
      · rename_i hcreated
        obtain ⟨pull, hpull, hdraft, hjson⟩ := hhonest response rfl hcreated
        have hdecoded : response.decoded = .ok pull.render := by
          unfold Response.decoded
          rw [hjson]
          rfl
        rw [hdecoded]
        show Publishes tables publisher slot request began _ (Program.ofExcept (pullRequest tables
          pull.render request.sourceBranch request.targetBranch)) s₂
        cases hread : pullRequest tables pull.render request.sourceBranch request.targetBranch with
        | error error => trivial
        | ok answer =>
          obtain ⟨hnumber, hurl⟩ := pullRequest_render hread
          have hbranches := congrArg Draft.branches hdraft
          exact ⟨[_, _], hs₂, pull, hpull, hbranches, hnumber, hurl⟩
      split
      · apply find_safe [_, _] hpushed hs₂
        rintro (- | existing) s₃ hfinds'
        · trivial
        · exact hfinds'.chosen _
      · trivial
    · trivial
    · trivial
  · exact hfinds.chosen []

theorem publishReview_safe (tables : Tables) (publisher : GitHubPublisher) (slot : ℕ)
    (request : ScmPublicationRequest) (began : Hub) :
    Publishes tables publisher slot request began
      (fun result s => Published tables publisher slot request began s result)
      (publisher.publishReview tables slot request) began := by
  unfold publishReview
  refine publishes_ofExcept ?_
  intro repository hrepository
  refine trustedWorkspace_safe (show Since slot began [] began from rfl) ?_
  intro workspace s₁ hroots hs₁
  refine push_safe hrepository hroots hs₁ ?_
  intro checks s₂ hpushed hsame hs₂
  subst hsame
  refine findOrCreate_safe hpushed hs₂ ?_
  rintro answer s₃ ⟨later, hs₃, pull, hpull, hread⟩
  apply publishes_ofExcept
  intro hostname hhostname
  apply publishes_raiseIf
  intro hhost
  obtain rfl : hostname = some publisher.webHost.toList := by simpa using hhost
  exact ⟨rfl, rfl, rfl, rfl, hhostname, checks, later, hpushed, hs₃, pull, hpull, hread.branches,
    hread.number, hread.htmlUrl⟩

end

/-! ## 4. Runs -/

section

abbrev PublishingStep := (publishing tables publisher).Step

variable {tables publisher} in
theorem Publishes.goes {slot : ℕ} {request : ScmPublicationRequest} {began : Hub}
    {program : Publishing ScmPublicationResult}
    (h : Publishes tables publisher slot request began
      (fun result s => Published tables publisher slot request began s result) program began) :
    (publishing tables publisher).Goes GitHubStatement.Legal (fun s => s.toPulls.Valid) Relies Guarantees
      (Issues tables publisher) (Returned tables publisher) slot (.publish request) began
      (program >>= fun result => pure (some result)) began := by
  have hsome : Publishes tables publisher slot request began
      (fun answer s => ∃ result, answer = some result ∧
        Published tables publisher slot request began s result)
      (program >>= fun result => pure (some result)) began :=
    publishes_bind h fun result _ hpublished => Exists.intro result ⟨rfl, hpublished⟩
  refine (publishing tables publisher).safe_mono (fun _ _ h => h) ?_ ?_ hsome
  · rintro error s' - s'' - - request' - answer hanswer
    cases hanswer
  · rintro answer s' ⟨result, rfl, hpublished⟩ s'' - hrely request' hcall answer hanswer
    obtain rfl := HubCall.publish.inj hcall
    obtain rfl := Except.ok.inj hanswer
    exact ⟨result, rfl, hpublished.relies hrely⟩

/-- A call keeps to its checks, whatever the others do. -/
theorem program_safe (slot : ℕ) (call : HubCall) (s : Hub) :
    (publishing tables publisher).Goes GitHubStatement.Legal (fun s => s.toPulls.Valid) Relies Guarantees
      (Issues tables publisher) (Returned tables publisher) slot call s
      ((publishing tables publisher).program slot call) s := by
  cases call with
  | publish request => exact Publishes.goes (publishReview_safe tables publisher slot request s)
  | act action =>
    intro s' _ _
    refine ⟨⟨action, rfl⟩, fun choice _ => ?_⟩
    have hserved := serve_spec (.act action) choice s'
    refine ⟨⟨hserved.later, hserved.valid, fun other _ => hserved.history other⟩, ?_⟩
    rintro s'' - - request hcall
    cases hcall

variable {tables publisher} {s : Hub} {inputs : List (publishing tables publisher).Input}
  {t : PublishingStep tables publisher}

/-- What the steps of a run keep to: every statement is issued on the answers that it asks for and changes
the pull requests as `Changes` says, no other step changes anything, and what a publication returns is
published. -/
structure Guarded (t : PublishingStep tables publisher) : Prop where
  answered : ∀ slot call began statement, t.output = .answered slot call began statement →
    Issues tables publisher slot call began t.before.shared statement ∧
      Changes t.before.shared.toPulls statement t.after.shared.toPulls ∧
      (t.before.shared.toPulls.Valid → t.after.shared.toPulls.Valid)
  kept : (∀ slot call began statement, t.output ≠ .answered slot call began statement) →
    t.after.shared = t.before.shared
  returned : ∀ slot request began answer,
    t.output = .returned slot (.publish request) began (.ok answer) →
    ∃ result, answer = some result ∧ Published tables publisher slot request began t.after.shared result

theorem trace_guarded (hvalid : s.toPulls.Valid)
    (hlawful : ∀ t ∈ (publishing tables publisher).machine.trace
      ((publishing tables publisher).initial s) inputs,
      (publishing tables publisher).Lawful GitHubStatement.Legal t)
    (ht : t ∈ (publishing tables publisher).machine.trace
      ((publishing tables publisher).initial s) inputs) : Guarded t := by
  have hcoherent : (publishing tables publisher).Coherent GitHubStatement.Legal
      (fun s => s.toPulls.Valid) Relies Guarantees (Issues tables publisher) (Returned tables publisher)
      ((publishing tables publisher).initial s) := Coroutines.coherent_initial hvalid
  have hrefl : ∀ slot s, Relies slot s s := fun _ s => ⟨.refl _, rfl⟩
  have htrans : ∀ slot s s' s'', Relies slot s s' → Relies slot s' s'' → Relies slot s s'' :=
    fun _ _ _ _ h h' => ⟨h.1.trans h'.1, h'.2.trans h.2⟩
  have hguar : ∀ slot (s s' : Hub), s.toPulls.Valid → Guarantees slot s s' →
      s'.toPulls.Valid ∧ ∀ other, other ≠ slot → Relies other s s' :=
    fun _ _ _ hs h => ⟨h.2.1 hs, fun other hother => ⟨h.1, h.2.2 other hother⟩⟩
  have hsafe := fun slot call s (_ : Pulls.Valid s.toPulls)
    (_ : (publishing tables publisher).admits slot call = true) =>
      program_safe tables publisher slot call s
  obtain ⟨-, hmeets⟩ := Coroutines.trace_spec hrefl htrans hguar hsafe hcoherent hlawful t ht
  have hissues := Coroutines.trace_answers hrefl htrans hguar hsafe hcoherent hlawful t ht
  obtain ⟨is, i, js, -, hfire⟩ := Machine.mem_trace _ ht
  refine ⟨fun slot call began statement houtput => ⟨hissues slot call began statement houtput, ?_⟩,
    fun hanswered => ?_, fun slot request began answer houtput => ?_⟩
  · have hanswered : ((publishing tables publisher).machine.step
        ((publishing tables publisher).machine.run
          ((publishing tables publisher).initial s) is) i).1 =
        .answered slot call began statement := by
      rw [← houtput, hfire]
      rfl
    obtain ⟨choice, hserve⟩ := Coroutines.answered_serve hanswered
    have hserved := serve_spec statement choice t.before.shared
    have hafter : t.after.shared = (statement.serve choice t.before.shared).2 := by
      rw [hfire]
      exact hserve
    rw [hafter]
    exact ⟨hserved.changes, hserved.valid⟩
  · unfold Coroutines.Meets at hmeets
    cases houtput : t.output with
    | answered slot call began statement => exact absurd houtput (hanswered slot call began statement)
    | issued => rw [houtput] at hmeets; exact hmeets.2
    | returned => rw [houtput] at hmeets; exact hmeets.2
    | ignored => rw [houtput] at hmeets; exact hmeets
    | started => rw [houtput] at hmeets; exact hmeets
    | interrupted => rw [houtput] at hmeets; exact hmeets
  · unfold Coroutines.Meets at hmeets
    rw [houtput] at hmeets
    rw [hmeets.2]
    exact hmeets.1 request rfl answer rfl

theorem Changes.later {hub hub' : Pulls} {statement : GitHubStatement} (h : Changes hub statement hub') :
    hub.Later hub' := by
  cases h with
  | same => exact .refl hub
  | opened => exact fun pull hpull => ⟨pull, List.mem_cons_of_mem _ hpull, .refl pull⟩
  | acted action => exact (hub.act_spec action).1

theorem Guarded.later (h : Guarded t) : t.before.shared.toPulls.Later t.after.shared.toPulls := by
  by_cases hanswered : ∀ slot call began statement, t.output ≠ .answered slot call began statement
  · rw [h.kept hanswered]
    exact .refl _
  · simp only [not_forall, not_not] at hanswered
    obtain ⟨slot, call, began, statement, houtput⟩ := hanswered
    exact (h.answered slot call began statement houtput).2.1.later

theorem Guarded.valid (h : Guarded t) (hvalid : t.before.shared.toPulls.Valid) :
    t.after.shared.toPulls.Valid := by
  by_cases hanswered : ∀ slot call began statement, t.output ≠ .answered slot call began statement
  · rw [h.kept hanswered]
    exact hvalid
  · simp only [not_forall, not_not] at hanswered
    obtain ⟨slot, call, began, statement, houtput⟩ := hanswered
    exact (h.answered slot call began statement houtput).2.2 hvalid

/-- The publication of the request returns the result. -/
def Returns (t : PublishingStep tables publisher) (request : ScmPublicationRequest)
    (result : ScmPublicationResult) : Prop :=
  ∃ slot began, t.output = .returned slot (.publish request) began (.ok (some result))

/-- What a publication returned is a pull request of its repository at the end of the run. -/
theorem returned_named (hvalid : s.toPulls.Valid)
    (hlawful : ∀ t ∈ (publishing tables publisher).machine.trace
      ((publishing tables publisher).initial s) inputs,
      (publishing tables publisher).Lawful GitHubStatement.Legal t)
    (ht : t ∈ (publishing tables publisher).machine.trace
      ((publishing tables publisher).initial s) inputs)
    {request : ScmPublicationRequest} {result : ScmPublicationResult} (h : Returns t request result) :
    ∃ repository, parseGithubRepository tables request.repository publisher.webHost = .ok repository ∧
      ∃ pull ∈ ((publishing tables publisher).machine.run
        ((publishing tables publisher).initial s) inputs).shared.pulls, pull.Named repository result := by
  obtain ⟨slot, began, houtput⟩ := h
  obtain ⟨result', hresult, hpublished⟩ :=
    (trace_guarded hvalid hlawful ht).returned slot request began _ houtput
  obtain rfl := Option.some.inj hresult
  obtain ⟨checks, -, hpushed, -, pull, hpull, hnamed⟩ := hpublished.pushed
  let Q := fun c : (publishing tables publisher).Config =>
    ∃ pull ∈ c.shared.pulls, pull.Named checks.repository result
  have hkept : Q ((publishing tables publisher).machine.run
      ((publishing tables publisher).initial s) inputs) := by
    apply Machine.trace_kept _ ht ⟨pull, hpull, hnamed⟩
    rintro t' ht' ⟨pull, hpull, hnamed⟩
    obtain ⟨pull', hpull', hsame⟩ := (trace_guarded hvalid hlawful ht').later pull hpull
    exact ⟨pull', hpull', hnamed.same hsame⟩
  exact ⟨checks.repository, hpushed.repository, hkept⟩

/-- In every run of publications among what people do with pull requests, every step keeps to its checks;
and what a publication returned is in the end a pull request of its branches, one and the same for all
publications whose pull requests of those branches are open. -/
theorem reviews_published (tables : Tables) (publisher : GitHubPublisher) (s : Hub)
    (inputs : List (publishing tables publisher).Input) (hvalid : s.toPulls.Valid)
    (hlawful : ∀ t ∈ (publishing tables publisher).machine.trace
      ((publishing tables publisher).initial s) inputs,
      (publishing tables publisher).Lawful GitHubStatement.Legal t) :
    (∀ t ∈ (publishing tables publisher).machine.trace
      ((publishing tables publisher).initial s) inputs, Guarded t) ∧
    (∀ t ∈ (publishing tables publisher).machine.trace
      ((publishing tables publisher).initial s) inputs, ∀ request result, Returns t request result →
      ∃ repository, parseGithubRepository tables request.repository publisher.webHost = .ok repository ∧
        ∃ pull ∈ ((publishing tables publisher).machine.run
          ((publishing tables publisher).initial s) inputs).shared.pulls, pull.Named repository result) ∧
    ∀ pull ∈ ((publishing tables publisher).machine.run
        ((publishing tables publisher).initial s) inputs).shared.pulls,
      ∀ pull' ∈ ((publishing tables publisher).machine.run
        ((publishing tables publisher).initial s) inputs).shared.pulls,
      ∀ repository repository' result result', pull.Named repository result →
        pull'.Named repository' result' →
        GitHubStatement.listedBranches repository result.sourceBranch result.targetBranch =
          GitHubStatement.listedBranches repository' result'.sourceBranch result'.targetBranch →
        pull.isOpen = true → pull'.isOpen = true →
        result.reviewId = result'.reviewId ∧ result.reviewUrl = result'.reviewUrl := by
  have hguarded := fun t ht => trace_guarded (t := t) hvalid hlawful ht
  have hend : ((publishing tables publisher).machine.run
      ((publishing tables publisher).initial s) inputs).shared.toPulls.Valid :=
    ((publishing tables publisher).machine.trace_keeps
      (Q := fun c => c.shared.toPulls.Valid) hvalid fun t ht => (hguarded t ht).valid).1
  refine ⟨hguarded, fun t ht request result => returned_named hvalid hlawful ht, ?_⟩
  intro pull hpull pull' hpull' repository repository' result result' hnamed hnamed' hlisted hopen hopen'
  have hbranches : pull.branches = pull'.branches := by
    rw [hnamed.branches, hnamed'.branches, hlisted]
  obtain rfl := hend.single pull hpull pull' hpull' hopen hopen' hbranches
  exact ⟨hnamed.reviewId.trans hnamed'.reviewId.symm, hnamed.reviewUrl.trans hnamed'.reviewUrl.symm⟩

end

/-! ## 5. A lost answer -/

def plainPublisher : GitHubPublisher where
  workspaceRoots := [[]]
  webHost := "github.com"
  remoteName := "origin"

def workRequest : ScmPublicationRequest where
  repository := "https://github.com/acme/tool"
  workspacePath := "/"
  sourceBranch := "work"
  targetBranch := "main"
  title := "Work"
  body := ""
  idempotencyKey := "work"

/-- The work tree at `/`, with a commit on the branch `work`. -/
def plainGitOutput : List String → String
  | "rev-parse" :: "--show-toplevel" :: _ => "/"
  | "rev-parse" :: _ => "c0ffee"
  | "branch" :: _ => "work"
  | "config" :: _ => "git@github.com:acme/tool.git"
  | _ => ""

/-- Every statement succeeds; the answer to a `POST` may be lost. -/
def plainAnswer (lost : Option HttpOutcome) : (statement : GitHubStatement) → statement.Choice
  | .resolve .. => .ok []
  | .isDir .. => .ok true
  | .git _ _ arguments => .exited 0 (plainGitOutput arguments) ""
  | .list .. => none
  | .create .. => .processed 0 "https://github.com/acme/tool/pull/1" none (.ok (.list [])) lost
  | .act _ => ()

/-- A publication whose `POST` is processed and its answer lost, and another try. -/
def lostRun : List (publishing asciiTables plainPublisher).Input :=
  .start 0 (.publish workRequest) ::
    (List.replicate 14 [.resume 0, .answer 0 (plainAnswer (some (.transport "ReadTimeout")))]).flatten ++
  .start 1 (.publish workRequest) ::
    (List.replicate 14 [.resume 1, .answer 1 (plainAnswer none)]).flatten

/-- The results of a run. -/
def reviewOf (t : PublishingStep asciiTables plainPublisher) : Option (Except String String) :=
  match t.output with
  | .returned _ _ _ (.ok (some result)) => some (.ok result.reviewId)
  | .returned _ _ _ (.error exc) => some (.error exc.text)
  | _ => none

def emptyHub : Hub where
  pulls := []
  lastNumber _ := 0
  history _ := []

theorem emptyHub_valid : emptyHub.toPulls.Valid := ⟨nofun, nofun, nofun⟩

theorem plainAnswer_legal {lost : Option HttpOutcome} (h : ∀ response, lost ≠ some (.response response))
    (statement : GitHubStatement) : statement.Legal (plainAnswer lost statement) := by
  cases statement with
  | list => exact nofun
  | create => exact fun response hlost => absurd hlost (h response)
  | resolve | isDir | git | act => trivial

theorem lostRun_lawful : ∀ t ∈ (publishing asciiTables plainPublisher).machine.trace
    ((publishing asciiTables plainPublisher).initial emptyHub) lostRun,
    (publishing asciiTables plainPublisher).Lawful GitHubStatement.Legal t := by
  rintro t ht slot choice task statement next hinput - - -
  obtain ⟨is, i, js, hinputs, rfl⟩ := Machine.mem_trace _ ht
  have hmem : .answer slot choice ∈ lostRun := by
    rw [← hinput, hinputs]
    simp
  have hchoice : choice = plainAnswer (some (.transport "ReadTimeout")) ∨ choice = plainAnswer none := by
    simp only [lostRun, List.mem_append, List.mem_cons, List.mem_flatten, List.mem_replicate] at hmem
    rcases hmem with (hmem | ⟨_, ⟨-, rfl⟩, hmem⟩) | hmem | ⟨_, ⟨-, rfl⟩, hmem⟩
    · cases hmem
    · simp only [List.mem_cons, List.not_mem_nil, or_false, reduceCtorEq, false_or] at hmem
      exact .inl (Coroutines.Input.answer.inj hmem).2
    · cases hmem
    · simp only [List.mem_cons, List.not_mem_nil, or_false, reduceCtorEq, false_or] at hmem
      exact .inr (Coroutines.Input.answer.inj hmem).2
  rcases hchoice with rfl | rfl
  · exact plainAnswer_legal (fun response => by simp) statement
  · exact plainAnswer_legal (fun response => by simp) statement

/-- The second try finds the pull request that the first one has opened. -/
theorem reviews_published_lost :
    (∀ t ∈ (publishing asciiTables plainPublisher).machine.trace
      ((publishing asciiTables plainPublisher).initial emptyHub) lostRun, Guarded t) ∧
    ((publishing asciiTables plainPublisher).machine.trace
      ((publishing asciiTables plainPublisher).initial emptyHub) lostRun).filterMap reviewOf =
        [.error "GitHub request failed: ReadTimeout", .ok "1"] :=
  ⟨(reviews_published asciiTables plainPublisher emptyHub lostRun emptyHub_valid lostRun_lawful).1,
    by decide +kernel⟩

end JbOrchestrator.GitHub
