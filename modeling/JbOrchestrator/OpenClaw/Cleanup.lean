import JbOrchestrator.OpenClaw.Worktrees

/-!
# Cleanup — what a cleanup of a worktree removes, and what it loses

A worktree is removed and its branch deleted only after the checks of the cleanup, whatever the owner of the
worktree does between two commands.  No commit becomes unreachable exactly as long as the branch is deleted
at commits that another ref contains: a target that names the branch itself, or a commit of its own, passes
every check.
-/

open Lib

namespace JbOrchestrator.OpenClaw

open ExternalExecutions OpenClawWorkspaceManager

/-! ## 1. What the steps of a run leave as it is -/

namespace Repository

/-- A later state of the repository: refs move forward, and only the recorded branch may be gone. -/
structure Later (branch : String) (s s' : Repository) : Prop where
  graph : s.graph.Grows s'.graph
  head : s'.head = s.head
  worktree : s.worktree = none → s'.worktree = none
  refs : ∀ ref tip, s.refs ref = some tip →
    (∃ tip', s'.refs ref = some tip' ∧ s'.graph.Reaches tip' tip) ∨
      (ref = branchRef branch ∧ s'.refs ref = none)
  gone : s.refs (branchRef branch) = none → s'.refs (branchRef branch) = none

/-- The states differ in their findings at most. -/
structure Alike (s s' : Repository) : Prop where
  graph : s'.graph = s.graph
  head : s'.head = s.head
  worktree : s'.worktree = s.worktree
  refs : s'.refs = s.refs

variable {branch : String} {s s' s'' : Repository}

theorem Alike.refl (s : Repository) : Alike s s := ⟨rfl, rfl, rfl, rfl⟩

theorem alike_record (s : Repository) (slot : ℕ) (finding : Finding) :
    Alike s (s.record slot finding) := ⟨rfl, rfl, rfl, rfl⟩

theorem Alike.later (h : Alike s s') : Later branch s s' where
  graph := h.graph ▸ CommitGraph.Grows.refl s.graph
  head := h.head
  worktree hgone := h.worktree.trans hgone
  refs _ tip htip := .inl ⟨tip, by rw [h.refs]; exact htip, .refl⟩
  gone hgone := by rw [h.refs]; exact hgone

theorem Later.refl (s : Repository) : Later branch s s := (Alike.refl s).later

theorem Later.trans (h : Later branch s s') (h' : Later branch s' s'') : Later branch s s'' where
  graph := h.graph.trans h'.graph
  head := h'.head.trans h.head
  worktree hgone := h'.worktree (h.worktree hgone)
  refs ref tip htip := by
    rcases h.refs ref tip htip with ⟨tip', htip', hforward⟩ | ⟨rfl, hgone⟩
    · rcases h'.refs ref tip' htip' with ⟨tip'', htip'', hforward'⟩ | hgone'
      · exact .inl ⟨tip'', htip'', hforward'.trans (h'.graph.reaches hforward)⟩
      · exact .inr hgone'
    · exact .inr ⟨rfl, h'.gone hgone⟩
  gone hgone := h'.gone (h.gone hgone)

/-- A step that takes no worktree and no ref away. -/
structure Kept (branch : String) (s s' : Repository) : Prop where
  later : Later branch s s'
  findings : s'.findings = s.findings
  worktree : s.worktree.isSome → s'.worktree.isSome
  refs : ∀ ref, (s.refs ref).isSome → (s'.refs ref).isSome

theorem Kept.refl (s : Repository) : Kept branch s s := ⟨Later.refl s, rfl, fun h => h, fun _ h => h⟩

/-- A ref is at a commit that contains where it was, or is made where it is not the recorded branch. -/
theorem kept_setRef {graph : CommitGraph} {ref : String} {commit : ℕ} (hgrows : s.graph.Grows graph)
    (hforward : ∀ tip, s.refs ref = some tip → graph.Reaches commit tip)
    (hnew : s.refs ref = none → ref ≠ branchRef branch) :
    Kept branch s { s.setRef ref (some commit) with graph := graph } where
  later :=
    { graph := hgrows
      head := rfl
      worktree := fun hgone => hgone
      refs := by
        intro ref' tip htip
        refine .inl ?_
        by_cases hsame : ref' = ref
        · subst hsame
          exact ⟨commit, Function.update_self _ _ _, hforward tip htip⟩
        · exact ⟨tip, (Function.update_of_ne hsame _ _).trans htip, .refl⟩
      gone := by
        intro hgone
        have hother : branchRef branch ≠ ref := by
          rintro rfl
          exact hnew hgone rfl
        exact (Function.update_of_ne hother _ _).trans hgone }
  findings := rfl
  worktree h := h
  refs ref' h := by
    show (Function.update s.refs ref (some commit) ref').isSome
    rw [Function.update_apply]
    split
    · rfl
    · exact h

theorem kept_worktree {graph : CommitGraph} (hgrows : s.graph.Grows graph) (f : Worktree → Worktree) :
    Kept branch s { s with graph := graph, worktree := s.worktree.map f } where
  later :=
    { graph := hgrows
      head := rfl
      worktree := fun hgone => by
        show s.worktree.map f = none
        rw [hgone]
        rfl
      refs := fun _ tip htip => .inl ⟨tip, htip, .refl⟩
      gone := fun hgone => hgone }
  findings := rfl
  worktree h := by
    show (s.worktree.map f).isSome
    rw [Option.isSome_map]
    exact h
  refs _ h := h

theorem later_remove (s : Repository) (slot : ℕ) (finding : Finding) :
    Later branch s { s.record slot finding with worktree := none } where
  graph := CommitGraph.Grows.refl s.graph
  head := rfl
  worktree _ := rfl
  refs _ tip htip := .inl ⟨tip, htip, .refl⟩
  gone hgone := hgone

/-- The recorded branch is deleted. -/
theorem later_delete (s : Repository) (branch : String) (slot : ℕ) (finding : Finding) :
    Later branch s ((s.record slot finding).setRef (branchRef branch) none) where
  graph := CommitGraph.Grows.refl s.graph
  head := rfl
  worktree hgone := hgone
  refs ref tip htip := by
    by_cases hsame : ref = branchRef branch
    · subst hsame
      exact .inr ⟨rfl, Function.update_self _ _ _⟩
    · exact .inl ⟨tip, (Function.update_of_ne hsame _ _).trans htip, .refl⟩
  gone _ := Function.update_self _ _ _

/-- What the owner of the worktree and others do. -/
theorem act_spec (s : Repository) (branch : String) (action : Action) :
    Kept branch s (s.act branch action) := by
  cases action with
  | edit clean => exact kept_worktree (CommitGraph.Grows.refl s.graph) _
  | checkout head => exact kept_worktree (CommitGraph.Grows.refl s.graph) _
  | commitDetached =>
    simp only [act]
    split
    · split
      · rename_i hparents
        exact kept_worktree (CommitGraph.grows_add hparents) _
      · exact Kept.refl s
    · exact Kept.refl s
  | commit ref others =>
    cases htip : s.refs ref with
    | none =>
      simp only [act, htip]
      exact Kept.refl s
    | some tip =>
      have htips : ∀ tip', s.refs ref = some tip' → tip = tip' :=
        fun tip' h => Option.some.inj (htip.symm.trans h)
      simp only [act, htip]
      split
      · rename_i hparents
        apply kept_setRef (CommitGraph.grows_add hparents)
        · intro tip' h
          exact htips tip' h ▸ CommitGraph.reaches_add hparents List.mem_cons_self
        · intro hgone
          cases htip.symm.trans hgone
      · exact Kept.refl s
  | advance ref commit =>
    have hset : (∀ tip, s.refs ref = some tip → s.graph.Reaches commit tip) →
        (s.refs ref = none → ref ≠ branchRef branch) → Kept branch s (s.setRef ref (some commit)) :=
      kept_setRef (CommitGraph.Grows.refl s.graph)
    cases htip : s.refs ref with
    | none =>
      simp only [act, htip]
      split
      · exact Kept.refl s
      · rename_i hother
        apply hset
        · intro tip h
          cases htip.symm.trans h
        · exact fun _ => hother
    | some tip =>
      simp only [act, htip]
      split
      · rename_i hreaches
        apply hset
        · intro tip' h
          obtain rfl := Option.some.inj (htip.symm.trans h)
          exact CommitGraph.reaches_iff.mp hreaches
        · intro hgone
          cases htip.symm.trans hgone
      · exact Kept.refl s

end Repository

/-! ## 2. What a command does -/

/-- A command of a cleanup leaves the repository as it is, removes the worktree or deletes a branch.  A
target is found out by the command that verifies it. -/
inductive Served (env : GitEnvironment) (branch : String) (s : Repository) :
    GitStatement → Repository → Prop where
  | read (statement : GitStatement) {s' : Repository} (halike : s.Alike s')
    (htarget : ∀ slot revision target, .target revision target ∈ s'.findings slot →
      .target revision target ∈ s.findings slot ∨
        (statement = .verifyTarget slot revision ∧ env.commitOf revision s = some target)) :
    Served env branch s statement s'
  | acted (action : Action) : Served env branch s (.act action) (s.act branch action)
  | removed (slot : ℕ) {worktree : Worktree} (hworktree : s.worktree = some worktree) :
    Served env branch s (.removeWorktree slot) { s.record slot .removed with worktree := none }
  | deleted (slot : ℕ) (name : String) (head : Revision) {commit : ℕ}
    (hcommit : env.revision s head = some commit) (href : s.refs (branchRef name) = some commit) :
    Served env branch s (.deleteBranch slot name head)
      ((s.record slot (.deleted commit)).setRef (branchRef name) none)

section

variable {env : GitEnvironment} {branch : String} {s : Repository} {slot : ℕ}

theorem unlessFault_cases {α : Type} (fault : Option String) (answer : Except String α × Repository) :
    (∃ detail, unlessFault fault s answer = (.error detail, s)) ∨ unlessFault fault s answer = answer := by
  cases fault with
  | none => exact .inr rfl
  | some detail => exact .inl ⟨detail, rfl⟩

/-- A command that reads fails, or records the value. -/
theorem read_cases {α : Type} (fault : Option String) (value : Option α) (finding : α → Finding) :
    (∃ detail, unlessFault fault s (s.found slot value finding) = (.error detail, s)) ∨
      ∃ v, value = some v ∧
        unlessFault fault s (s.found slot value finding) = (.ok v, s.record slot (finding v)) := by
  rcases unlessFault_cases fault (s.found slot value finding) with h | h
  · exact .inl h
  · rw [h]
    cases value with
    | none => exact .inl ⟨"", rfl⟩
    | some v => exact .inr ⟨v, rfl, rfl⟩

theorem remove_cases (fault : Option String) (s : Repository) (slot : ℕ) :
    (∃ detail, unlessFault fault s (s.removeWorktree slot) = (.error detail, s)) ∨
      ∃ worktree, s.worktree = some worktree ∧ unlessFault fault s (s.removeWorktree slot) =
        (.ok (), { s.record slot .removed with worktree := none }) := by
  rcases unlessFault_cases fault (s.removeWorktree slot) with h | h
  · exact .inl h
  · rw [h]
    unfold Repository.removeWorktree
    cases hworktree : s.worktree with
    | none => exact .inl ⟨"", rfl⟩
    | some worktree =>
      simp only
      split
      · exact .inr ⟨worktree, rfl, rfl⟩
      · exact .inl ⟨"", rfl⟩

theorem delete_cases (fault : Option String) (s : Repository) (slot : ℕ) (ref : String)
    (commit : Option ℕ) :
    (∃ detail, unlessFault fault s (s.deleteRef slot ref commit) = (.error detail, s)) ∨
      ∃ tip, commit = some tip ∧ s.refs ref = some tip ∧ unlessFault fault s (s.deleteRef slot ref commit) =
        (.ok (), (s.record slot (.deleted tip)).setRef ref none) := by
  rcases unlessFault_cases fault (s.deleteRef slot ref commit) with h | h
  · exact .inl h
  · rw [h]
    unfold Repository.deleteRef
    cases commit with
    | none => exact .inl ⟨"", rfl⟩
    | some tip =>
      simp only
      split
      · rename_i href
        exact .inr ⟨tip, rfl, href, rfl⟩
      · exact .inl ⟨"", rfl⟩

theorem Served.refl (statement : GitStatement) : Served env branch s statement s :=
  .read statement (.refl s) fun _ _ _ h => .inl h

theorem mem_record {finding finding' : Finding} {slot' : ℕ}
    (h : finding' ∈ (s.record slot finding).findings slot') :
    finding' ∈ s.findings slot' ∨ (slot' = slot ∧ finding' = finding) := by
  replace h : finding' ∈ Function.update s.findings slot (finding :: s.findings slot) slot' := h
  rw [Function.update_apply] at h
  split at h
  · rename_i hslot
    subst hslot
    exact (List.mem_cons.mp h).elim (fun heq => .inr ⟨rfl, heq⟩) .inl
  · exact .inl h

/-- A command that reads a value, and records it where it is there. -/
theorem served_read {α : Type} {statement : GitStatement} (fault : Option String) {value : Option α}
    {finding : α → Finding}
    (htarget : ∀ v revision target, value = some v → finding v = .target revision target →
      statement = .verifyTarget slot revision ∧ env.commitOf revision s = some target) :
    Served env branch s statement (unlessFault fault s (s.found slot value finding)).2 := by
  rcases read_cases fault value finding with ⟨detail, h⟩ | ⟨v, hvalue, h⟩
  · rw [h]
    exact .refl statement
  · rw [h]
    refine .read statement (s.alike_record slot _) fun slot' revision target hmem => ?_
    rcases mem_record hmem with hmem | ⟨rfl, hfinding⟩
    · exact .inl hmem
    · exact .inr (htarget v revision target hvalue hfinding.symm)

theorem serve_spec (env : GitEnvironment) (branch : String) (statement : GitStatement)
    (choice : statement.Choice) (s : Repository) :
    Served env branch s statement (statement.serve env branch choice s).2 := by
  cases statement with
  | repositoryTopLevel | workspaceExists | workspaceIsDir | workspaceTopLevel => exact .refl _
  | showCurrent slot => exact served_read choice nofun
  | workspaceHead slot => exact served_read choice nofun
  | verifyTarget slot revision =>
    apply served_read choice
    rintro target revision' target' hcommit heq
    cases heq
    exact ⟨rfl, hcommit⟩
  | status slot => exact served_read choice nofun
  | isAncestor slot head target => exact served_read choice nofun
  | verifyBranch name =>
    rcases unlessFault_cases choice (((s.refs (branchRef name)).elim (Except.error "") Except.ok), s)
      with ⟨detail, h⟩ | h
    · rw [GitStatement.serve, h]
      exact .refl _
    · rw [GitStatement.serve, h]
      exact .refl _
  | showRef name =>
    rcases unlessFault_cases choice ((Except.ok (s.refs (branchRef name)).isSome : Except String Bool), s)
      with ⟨detail, h⟩ | h
    · rw [GitStatement.serve, h]
      exact .refl _
    · rw [GitStatement.serve, h]
      exact .refl _
  | removeWorktree slot =>
    rw [GitStatement.serve]
    rcases remove_cases choice s slot with ⟨detail, h⟩ | ⟨worktree, hworktree, h⟩
    · rw [h]
      exact .refl _
    · rw [h]
      exact .removed slot hworktree
  | deleteBranch slot name head =>
    rw [GitStatement.serve]
    rcases delete_cases choice s slot (branchRef name) (env.revision s head)
      with ⟨detail, h⟩ | ⟨commit, hcommit, href, h⟩
    · rw [h]
      exact .refl _
    · rw [h]
      exact .deleted slot name head hcommit href
  | act action => exact .acted action

end

/-! ## 3. What a cleanup does -/

/-- What a slot found out and did since its cleanup began, the last first. -/
structure Since (branch : String) (slot : ℕ) (began : Repository) (found : List Finding)
    (s : Repository) : Prop where
  later : began.Later branch s
  findings : s.findings slot = found ++ began.findings slot

/-- Nothing was deleted, and nothing removed where the worktree was gone before. -/
structure Harmless (began : Repository) (found : List Finding) : Prop where
  kept : ∀ commit, .deleted commit ∉ found
  removed : began.worktree = none → .removed ∉ found

def Unfinished (branch : String) (slot : ℕ) (began s : Repository) : Prop :=
  ∃ found, Since branch slot began found s ∧ Harmless began found

/-- The review that lets a worktree be removed: it is on its branch, it is clean, and its head was compared
with the target. -/
def reviewed (branch revision : String) (head target : ℕ) : List Finding :=
  [.merged (.commit head) target true, .status true, .target revision target, .head head, .branch branch]

/-- What is known when a command is issued. -/
def Issues (branch : String) (slot : ℕ) (call : WorkspaceCall) (began s : Repository) :
    GitStatement → Prop
  | .removeWorktree slot' => slot' = slot ∧ ∃ mergedInto head target, call = .cleanup mergedInto ∧
    Since branch slot began (reviewed branch (Text.strip mergedInto) head target) s ∧
      s.graph.Reaches target head
  | .deleteBranch slot' name head => slot' = slot ∧ name = branch ∧
    ∃ mergedInto commit found target, call = .cleanup mergedInto ∧ head = .commit commit ∧
      Since branch slot began found s ∧ .target (Text.strip mergedInto) target ∈ found ∧
      .merged (.commit commit) target true ∈ found ∧ s.graph.Reaches target commit
  | .act _ => ∃ action, call = .act action
  | _ => True

/-- What a cleanup returns: the worktree and the branch are gone, or an error after which they are as
harmless commands left them. -/
def Returned (branch : String) (slot : ℕ) (call : WorkspaceCall) (began s : Repository)
    (result : Except OpenClawWorkspaceError (Option WorkspaceReview)) : Prop :=
  ∀ mergedInto, call = .cleanup mergedInto →
    (∀ review, result = .ok review → s.worktree = none ∧ s.refs (branchRef branch) = none) ∧
      ∀ error, result = .error error → Unfinished branch slot began s

def Relies (branch : String) (slot : ℕ) (s s' : Repository) : Prop :=
  s.Later branch s' ∧ s'.findings slot = s.findings slot

def Guarantees (branch : String) (slot : ℕ) (s s' : Repository) : Prop :=
  s.Later branch s' ∧ ∀ other, other ≠ slot → s'.findings other = s.findings other

section

variable {branch : String} {slot : ℕ} {began s s' : Repository} {found : List Finding}

theorem Since.relies (h : Since branch slot began found s) (hrely : Relies branch slot s s') :
    Since branch slot began found s' :=
  ⟨h.later.trans hrely.1, hrely.2.trans h.findings⟩

theorem Since.record (h : Since branch slot began found s) (finding : Finding) :
    Since branch slot began (finding :: found) (s.record slot finding) where
  later := h.later.trans (s.alike_record slot finding).later
  findings := by
    show Function.update s.findings slot (finding :: s.findings slot) slot = _
    rw [Function.update_self, h.findings, List.cons_append]

theorem guarantees_record (s : Repository) (finding : Finding) :
    Guarantees branch slot s (s.record slot finding) :=
  ⟨(s.alike_record slot finding).later, fun _ hother => Function.update_of_ne hother _ _⟩

theorem guarantees_refl (s : Repository) : Guarantees branch slot s s :=
  ⟨.refl s, fun _ _ => rfl⟩

end

section

variable (env : GitEnvironment) (manager : OpenClawWorkspaceManager) (execution : ExternalExecution)
  (slot : ℕ) (mergedInto : String) (began : Repository)

/-- What is left to show of a part of a cleanup that ends with `P`. -/
abbrev Cleans {β : Type} (P : β → Repository → Prop) (p : Managing β) (s : Repository) : Prop :=
  (cleaning env manager execution).Safe (fun _ _ => True) (fun _ => True)
    (Relies (recordedBranch execution) slot) (Guarantees (recordedBranch execution) slot)
    (Issues (recordedBranch execution) slot (.cleanup mergedInto) began)
    (fun _ s => Unfinished (recordedBranch execution) slot began s) P p s

variable {env manager execution slot mergedInto began} {α β : Type} {P : β → Repository → Prop}
  {s s' : Repository} {found : List Finding}

theorem cleans_bind {p : Managing α} {Q : α → Repository → Prop} {f : α → Managing β}
    (hp : Cleans env manager execution slot mergedInto began Q p s)
    (hf : ∀ value s, Q value s → Cleans env manager execution slot mergedInto began P (f value) s) :
    Cleans env manager execution slot mergedInto began P (p >>= f) s :=
  (cleaning env manager execution).safe_bind hp hf

theorem cleans_raiseIf {condition : Bool} {message : String} {f : Unit → Managing β}
    (hunfinished : Unfinished (recordedBranch execution) slot began s)
    (h : condition = false → Cleans env manager execution slot mergedInto began P (f ()) s) :
    Cleans env manager execution slot mergedInto began P (raiseIf condition message >>= f) s := by
  cases condition with
  | true => exact hunfinished
  | false => exact h rfl

theorem cleans_ofExcept {x : Except OpenClawWorkspaceError α} {f : α → Managing β}
    (hunfinished : Unfinished (recordedBranch execution) slot began s)
    (h : ∀ value, x = .ok value → Cleans env manager execution slot mergedInto began P (f value) s) :
    Cleans env manager execution slot mergedInto began P (Program.ofExcept x >>= f) s := by
  cases x with
  | ok value => exact h value rfl
  | error error => exact hunfinished

/-- A command that may fail. -/
theorem cleans_reply {p : Managing (Except String β)} {toError : String → OpenClawWorkspaceError}
    (h : Cleans env manager execution slot mergedInto began (fun reply s =>
      (∀ value, reply = .ok value → P value s) ∧
        ∀ detail, reply = .error detail → Unfinished (recordedBranch execution) slot began s) p s) :
    Cleans env manager execution slot mergedInto began P
      (p >>= fun reply => Program.ofExcept (reply.mapError toError)) s := by
  apply cleans_bind h
  rintro (detail | value) s' ⟨hok, herror⟩
  · exact herror detail rfl
  · exact hok value rfl

/-- A command that may fail, and what is done with its reply. -/
theorem cleans_command {p : Managing (Except String α)} {toError : String → OpenClawWorkspaceError}
    {f : α → Managing β}
    (h : Cleans env manager execution slot mergedInto began (fun reply s =>
      (∀ value, reply = .ok value → Cleans env manager execution slot mergedInto began P (f value) s) ∧
        ∀ detail, reply = .error detail → Unfinished (recordedBranch execution) slot began s) p s) :
    Cleans env manager execution slot mergedInto began P
      (p >>= fun reply => Program.ofExcept (reply.mapError toError) >>= f) s := by
  apply cleans_bind h
  rintro (detail | value) s' ⟨hok, herror⟩
  · exact herror detail rfl
  · exact hok value rfl

/-- The answer of a command that reads and records the value. -/
theorem cleans_found {value : Option α} {finding : α → Finding} {Q : α → Repository → Prop}
    (hs : Since (recordedBranch execution) slot began found s) (hharmless : Harmless began found)
    (hrely : Relies (recordedBranch execution) slot s s')
    (hnext : ∀ v, value = some v →
      Since (recordedBranch execution) slot began (finding v :: found) (s'.record slot (finding v)) →
      Q v (s'.record slot (finding v)))
    (fault : Option String) :
    Guarantees (recordedBranch execution) slot s' (unlessFault fault s' (s'.found slot value finding)).2 ∧
      (∀ v, (unlessFault fault s' (s'.found slot value finding)).1 = .ok v →
        Q v (unlessFault fault s' (s'.found slot value finding)).2) ∧
      ∀ detail, (unlessFault fault s' (s'.found slot value finding)).1 = .error detail →
        Unfinished (recordedBranch execution) slot began
          (unlessFault fault s' (s'.found slot value finding)).2 := by
  have hs' := hs.relies hrely
  rcases read_cases fault value finding with ⟨detail, h⟩ | ⟨v, hvalue, h⟩
  · rw [h]
    exact ⟨guarantees_refl s', nofun, fun _ _ => ⟨found, hs', hharmless⟩⟩
  · rw [h]
    refine ⟨guarantees_record s' _, fun v' hv => ?_, nofun⟩
    obtain rfl := Except.ok.inj hv
    exact hnext v hvalue (hs'.record _)

theorem storedRecord_branch {record : WorkspaceRecord}
    (h : manager.storedRecord env execution = .ok record) :
    record.branch = recordedBranch execution := by
  unfold storedRecord at h
  simp only at h
  split at h
  · cases h
  · split at h
    · cases h
    · cases h
    · split at h
      · cases h
      · split at h
        · cases h
        · obtain rfl := Except.ok.inj h
          rfl

theorem targetRef_eq {revision : String} (h : targetRef mergedInto = .ok revision) :
    revision = Text.strip mergedInto := by
  unfold targetRef at h
  split at h
  · cases h
  · exact (Except.ok.inj h).symm

theorem Harmless.nil (began : Repository) : Harmless began [] := ⟨fun _ => nofun, fun _ => nofun⟩

/-- A finding of a command that only reads. -/
theorem Harmless.cons {began : Repository} (h : Harmless began found) (finding : Finding)
    (hdeleted : ∀ commit, finding ≠ .deleted commit) (hremoved : finding ≠ .removed) :
    Harmless began (finding :: found) where
  kept commit hmem := by
    rcases List.mem_cons.mp hmem with heq | hmem
    · exact hdeleted commit heq.symm
    · exact h.kept commit hmem
  removed hgone hmem := by
    rcases List.mem_cons.mp hmem with heq | hmem
    · exact hremoved heq.symm
    · exact h.removed hgone hmem

theorem workspaceRecord_safe {f : WorkspaceRecord → Managing β}
    (hs : Since (recordedBranch execution) slot began [] s)
    (h : ∀ record s, record.branch = recordedBranch execution →
      Since (recordedBranch execution) slot began [] s →
      Cleans env manager execution slot mergedInto began P (f record) s) :
    Cleans env manager execution slot mergedInto began P
      (manager.workspaceRecord env execution >>= f) s := by
  apply cleans_bind (Q := fun record s => record.branch = recordedBranch execution ∧
    Since (recordedBranch execution) slot began [] s)
  · apply cleans_ofExcept ⟨[], hs, .nil began⟩
    intro record hrecord
    apply cleans_command
    intro s' _ hrely
    have hs' := hs.relies hrely
    refine ⟨trivial, fun answer _ => ⟨guarantees_refl s', fun actual _ => ?_, fun _ _ => ?_⟩⟩
    · apply cleans_raiseIf ⟨[], hs', .nil began⟩
      exact fun _ => ⟨storedRecord_branch hrecord, hs'⟩
    · exact ⟨[], hs', .nil began⟩
  · exact fun record s hrecord => h record s hrecord.1 hrecord.2

/-- What a review that ends says. -/
def ReviewedAs (branch : String) (slot : ℕ) (mergedInto : String) (began : Repository)
    (review : WorkspaceReview) (s : Repository) : Prop :=
  ∃ head target, review.headCommit = .commit head ∧
    Since branch slot began [.merged (.commit head) target review.merged, .status review.clean,
      .target (Text.strip mergedInto) target, .head head, .branch branch] s ∧
    (review.merged = true → s.graph.Reaches target head)

theorem verifyTarget_safe {record : WorkspaceRecord} {revision : String}
    (hs : Since (recordedBranch execution) slot began found s) (hharmless : Harmless began found) :
    Cleans env manager execution slot mergedInto began (fun target s' =>
      s.Later (recordedBranch execution) s' ∧
        Since (recordedBranch execution) slot began (.target revision target :: found) s')
      (verifyTarget env slot record revision) s := by
  apply cleans_reply
  intro s' _ hrely
  have hrecord : ∀ target, s.Later (recordedBranch execution)
      (s'.record slot (.target revision target)) :=
    fun target => hrely.1.trans (s'.alike_record slot _).later
  exact ⟨trivial, fun fault _ => cleans_found (Q := fun target s' =>
    s.Later (recordedBranch execution) s' ∧
      Since (recordedBranch execution) slot began (.target revision target :: found) s')
    hs hharmless hrely (fun target _ hs'' => ⟨hrecord target, hs''⟩) fault⟩

theorem isAncestor_safe {head : Revision} {target : ℕ}
    (hs : Since (recordedBranch execution) slot began found s) (hharmless : Harmless began found) :
    Cleans env manager execution slot mergedInto began (fun merged s' =>
      s.Later (recordedBranch execution) s' ∧
        Since (recordedBranch execution) slot began (.merged head target merged :: found) s' ∧
        ∀ commit, head = .commit commit → merged = true → s'.graph.Reaches target commit)
      (isAncestor slot head target) s := by
  apply cleans_reply
  intro s' _ hrely
  have hrecord : ∀ merged, s.Later (recordedBranch execution)
      (s'.record slot (.merged head target merged)) :=
    fun merged => hrely.1.trans (s'.alike_record slot _).later
  refine ⟨trivial, fun fault _ => cleans_found (Q := fun merged s' =>
    s.Later (recordedBranch execution) s' ∧
      Since (recordedBranch execution) slot began (.merged head target merged :: found) s' ∧
      ∀ commit, head = .commit commit → merged = true → s'.graph.Reaches target commit)
    hs hharmless hrely (fun merged hmerged hs'' => ⟨hrecord merged, hs'', ?_⟩) fault⟩
  rintro commit rfl rfl
  exact CommitGraph.reaches_iff.mp (Option.some.inj hmerged)

theorem reviewHead_safe {record : WorkspaceRecord}
    (hs : Since (recordedBranch execution) slot began [.branch (recordedBranch execution)] s) :
    Cleans env manager execution slot mergedInto began
      (ReviewedAs (recordedBranch execution) slot mergedInto began)
      (reviewHead env slot record mergedInto) s := by
  have hharmless := (Harmless.nil began).cons (.branch (recordedBranch execution)) nofun nofun
  unfold reviewHead
  apply cleans_command
  intro s₁ _ hrely₁
  refine ⟨trivial, fun fault _ => cleans_found hs hharmless hrely₁ (fun head _ hs₁ => ?_) fault⟩
  replace hharmless := hharmless.cons (.head head) nofun nofun
  apply cleans_ofExcept ⟨_, hs₁, hharmless⟩
  intro revision hrevision
  obtain rfl := targetRef_eq hrevision
  apply cleans_bind (verifyTarget_safe hs₁ hharmless)
  rintro target s₂ ⟨-, hs₂⟩
  replace hharmless := hharmless.cons (.target (Text.strip mergedInto) target) nofun nofun
  apply cleans_command
  intro s₃ _ hrely₃
  refine ⟨trivial, fun fault _ => cleans_found hs₂ hharmless hrely₃ (fun clean _ hs₃ => ?_) fault⟩
  replace hharmless := hharmless.cons (.status clean) nofun nofun
  apply cleans_bind (isAncestor_safe hs₃ hharmless)
  rintro merged s₄ ⟨-, hs₄, hreaches⟩
  exact ⟨head, target, rfl, hs₄, hreaches head rfl⟩

theorem review_safe (hs : Since (recordedBranch execution) slot began [] s) :
    Cleans env manager execution slot mergedInto began
      (ReviewedAs (recordedBranch execution) slot mergedInto began)
      (manager.review env execution slot mergedInto) s := by
  have hharmless := Harmless.nil began
  unfold review
  apply workspaceRecord_safe hs
  intro record s₁ hrecord hs₁ s₂ _ hrely₂
  replace hs₁ := hs₁.relies hrely₂
  refine ⟨trivial, fun _ _ => ⟨guarantees_refl s₂, ?_⟩⟩
  apply cleans_raiseIf ⟨[], hs₁, hharmless⟩
  intro _
  apply cleans_command
  intro s₃ _ hrely₃
  have hs₃ := hs₁.relies hrely₃
  refine ⟨trivial, fun answer _ => ⟨guarantees_refl s₃, fun actualRoot _ => ?_,
    fun _ _ => ⟨[], hs₃, hharmless⟩⟩⟩
  apply cleans_command
  intro s₄ _ hrely₄
  refine ⟨trivial, fun fault _ => cleans_found hs₃ hharmless hrely₄ (fun actualBranch _ hs₄ => ?_) fault⟩
  apply cleans_raiseIf ⟨_, hs₄, hharmless.cons _ nofun nofun⟩
  intro hassigned
  have hbranch : actualBranch = recordedBranch execution := by
    simp only [Bool.or_eq_false_iff, decide_eq_false_iff_not, not_not] at hassigned
    exact hassigned.2.trans hrecord
  subst hbranch
  exact reviewHead_safe hs₄

theorem deleteBranch_safe {record : WorkspaceRecord} {commit target : ℕ}
    (hs : Since (recordedBranch execution) slot began found s) (hharmless : Harmless began found)
    (hbranch : record.branch = recordedBranch execution)
    (htarget : .target (Text.strip mergedInto) target ∈ found)
    (hmerged : .merged (.commit commit) target true ∈ found) (hreaches : s.graph.Reaches target commit) :
    Cleans env manager execution slot mergedInto began (fun _ s' =>
      s.Later (recordedBranch execution) s' ∧ s'.refs (branchRef (recordedBranch execution)) = none)
      (deleteBranch env slot record (.commit commit)) s := by
  apply cleans_reply
  intro s' _ hrely
  have hs' := hs.relies hrely
  refine ⟨⟨rfl, hbranch, mergedInto, commit, found, target, rfl, rfl, hs', htarget, hmerged,
    hrely.1.graph.reaches hreaches⟩, fun fault _ => ?_⟩
  rw [hbranch]
  have hserve : (cleaning env manager execution).serve
      (.deleteBranch slot (recordedBranch execution) (.commit commit)) fault s' =
    unlessFault fault s' (s'.deleteRef slot (branchRef (recordedBranch execution)) (some commit)) := rfl
  rw [hserve]
  rcases delete_cases fault s' slot (branchRef (recordedBranch execution)) (some commit)
    with ⟨detail, h⟩ | ⟨tip, -, -, h⟩
  · rw [h]
    exact ⟨guarantees_refl s', nofun, fun _ _ => ⟨found, hs', hharmless⟩⟩
  · rw [h]
    have hdeleted := s'.later_delete (recordedBranch execution) slot (.deleted tip)
    refine ⟨⟨hdeleted, fun _ hother => Function.update_of_ne hother _ _⟩, fun _ _ => ?_, nofun⟩
    exact ⟨hrely.1.trans hdeleted, Function.update_self _ _ _⟩

theorem removeWorktree_safe {toError : String → OpenClawWorkspaceError} {f : Unit → Managing β}
    {head target : ℕ}
    (hs : Since (recordedBranch execution) slot began
      (reviewed (recordedBranch execution) (Text.strip mergedInto) head target) s)
    (hpresent : began.worktree ≠ none) (hreaches : s.graph.Reaches target head)
    (hf : ∀ s', s.Later (recordedBranch execution) s' → s'.worktree = none →
      Since (recordedBranch execution) slot began
        (.removed :: reviewed (recordedBranch execution) (Text.strip mergedInto) head target) s' →
      Cleans env manager execution slot mergedInto began P (f ()) s') :
    Cleans env manager execution slot mergedInto began P (ask (.removeWorktree slot) >>= fun reply =>
      Program.ofExcept (reply.mapError toError) >>= f) s := by
  apply cleans_command
  intro s' _ hrely
  have hs' := hs.relies hrely
  refine ⟨⟨rfl, mergedInto, head, target, rfl, hs', hrely.1.graph.reaches hreaches⟩, fun fault _ => ?_⟩
  have hserve : (cleaning env manager execution).serve (.removeWorktree slot) fault s' =
    unlessFault fault s' (s'.removeWorktree slot) := rfl
  rw [hserve]
  rcases remove_cases fault s' slot with ⟨detail, h⟩ | ⟨worktree, -, h⟩
  · rw [h]
    refine ⟨guarantees_refl s', nofun, fun _ _ => ⟨_, hs', ?_, fun hgone => absurd hgone hpresent⟩⟩
    simp [reviewed]
  · rw [h]
    have hremoved : s'.Later (recordedBranch execution)
        { s'.record slot .removed with worktree := none } := s'.later_remove slot .removed
    refine ⟨⟨hremoved, fun _ hother => Function.update_of_ne hother _ _⟩, fun _ _ => ?_, nofun⟩
    have hlater := hrely.1.trans hremoved
    exact hf _ hlater rfl ⟨hs.later.trans hlater, (hs'.record .removed).findings⟩

/-- The worktree and the recorded branch are gone. -/
def Gone (branch : String) (s : Repository) : Prop :=
  s.worktree = none ∧ s.refs (branchRef branch) = none

theorem cleanupWorktree_safe {record : WorkspaceRecord} (hpresent : began.worktree ≠ none)
    (hbranch : record.branch = recordedBranch execution)
    (hs : Since (recordedBranch execution) slot began [] s) :
    Cleans env manager execution slot mergedInto began (fun _ s => Gone (recordedBranch execution) s)
      (manager.cleanupWorktree env execution slot record mergedInto) s := by
  unfold cleanupWorktree
  apply cleans_bind (review_safe hs)
  rintro review s₁ ⟨head, target, hhead, hs₁, hreaches⟩
  have hunfinished : Unfinished (recordedBranch execution) slot began s₁ := by
    refine ⟨_, hs₁, ?_, fun hgone => absurd hgone hpresent⟩
    simp
  apply cleans_raiseIf hunfinished
  intro hclean
  apply cleans_raiseIf hunfinished
  intro hmerged
  rw [Bool.not_eq_false'] at hclean hmerged
  rw [hclean, hmerged] at hs₁
  apply removeWorktree_safe hs₁ hpresent (hreaches hmerged)
  intro s₂ hlater hremoved hs₂
  rw [hhead]
  have hharmless : Harmless began (.removed ::
      reviewed (recordedBranch execution) (Text.strip mergedInto) head target) := by
    refine ⟨?_, fun hgone => absurd hgone hpresent⟩
    simp [reviewed]
  apply cleans_bind (deleteBranch_safe hs₂ hharmless hbranch (by simp [reviewed]) (by simp [reviewed])
    (hlater.graph.reaches (hreaches hmerged)))
  rintro - s₃ ⟨hlater', hdeleted⟩
  exact ⟨hlater'.worktree hremoved, hdeleted⟩

/-- The head of a branch that is there is a commit. -/
theorem branchHead_safe {record : WorkspaceRecord} {branchExists : Bool}
    (hs : Since (recordedBranch execution) slot began found s) (hharmless : Harmless began found) :
    Cleans env manager execution slot mergedInto began (fun head s' =>
      s.Later (recordedBranch execution) s' ∧ Since (recordedBranch execution) slot began found s' ∧
        (branchExists = true → ∃ commit, head = .commit commit))
      (branchHead env record branchExists) s := by
  unfold branchHead
  cases branchExists with
  | false => exact ⟨.refl s, hs, nofun⟩
  | true =>
    apply cleans_command
    intro s' _ hrely
    have hs' := hs.relies hrely
    refine ⟨trivial, fun fault _ => ?_⟩
    have hserve : (cleaning env manager execution).serve (.verifyBranch record.branch) fault s' =
      unlessFault fault s' ((s'.refs (branchRef record.branch)).elim (.error "") .ok, s') := rfl
    rw [hserve]
    rcases unlessFault_cases fault
      ((s'.refs (branchRef record.branch)).elim (Except.error "") Except.ok, s') with ⟨detail, h⟩ | h
    · rw [h]
      exact ⟨guarantees_refl s', nofun, fun _ _ => ⟨found, hs', hharmless⟩⟩
    · rw [h]
      refine ⟨guarantees_refl s', fun head _ => ?_, fun _ _ => ⟨found, hs', hharmless⟩⟩
      exact ⟨hrely.1, hs', fun _ => ⟨head, rfl⟩⟩

theorem showRef_safe {name : String} {toError : String → OpenClawWorkspaceError} {f : Bool → Managing β}
    (hs : Since (recordedBranch execution) slot began found s) (hharmless : Harmless began found)
    (hf : ∀ there s', s.Later (recordedBranch execution) s' →
      Since (recordedBranch execution) slot began found s' →
      (there = false → s'.refs (branchRef name) = none) →
      Cleans env manager execution slot mergedInto began P (f there) s') :
    Cleans env manager execution slot mergedInto began P (ask (.showRef name) >>= fun reply =>
      Program.ofExcept (reply.mapError toError) >>= f) s := by
  apply cleans_command
  intro s' _ hrely
  have hs' := hs.relies hrely
  refine ⟨trivial, fun fault _ => ?_⟩
  have hserve : (cleaning env manager execution).serve (.showRef name) fault s' =
    unlessFault fault s' (.ok (s'.refs (branchRef name)).isSome, s') := rfl
  rw [hserve]
  rcases unlessFault_cases fault
    ((Except.ok (s'.refs (branchRef name)).isSome : Except String Bool), s') with ⟨detail, h⟩ | h
  · rw [h]
    exact ⟨guarantees_refl s', nofun, fun _ _ => ⟨found, hs', hharmless⟩⟩
  · rw [h]
    refine ⟨guarantees_refl s', fun there hthere => ?_, nofun⟩
    obtain rfl := Except.ok.inj hthere
    exact hf _ s' hrely.1 hs' fun hnone => Option.isNone_iff_eq_none.mp (Option.isSome_eq_false_iff.mp hnone)

theorem cleanupBranch_safe {record : WorkspaceRecord} (hgone : s.worktree = none)
    (hbranch : record.branch = recordedBranch execution)
    (hs : Since (recordedBranch execution) slot began [] s) :
    Cleans env manager execution slot mergedInto began (fun _ s => Gone (recordedBranch execution) s)
      (cleanupBranch env slot record mergedInto) s := by
  have hharmless := Harmless.nil began
  unfold cleanupBranch
  apply cleans_ofExcept ⟨[], hs, hharmless⟩
  intro revision hrevision
  obtain rfl := targetRef_eq hrevision
  apply cleans_bind (verifyTarget_safe hs hharmless)
  rintro target s₁ ⟨hlater₁, hs₁⟩
  replace hharmless := hharmless.cons (.target (Text.strip mergedInto) target) nofun nofun
  apply showRef_safe hs₁ hharmless
  intro branchExists s₂ hlater₂ hs₂ hnone
  apply cleans_bind (branchHead_safe hs₂ hharmless)
  rintro head s₃ ⟨hlater₃, hs₃, hcommit⟩
  apply cleans_bind (isAncestor_safe hs₃ hharmless)
  rintro merged s₄ ⟨hlater₄, hs₄, hreaches⟩
  replace hharmless := hharmless.cons (.merged head target merged) nofun nofun
  apply cleans_raiseIf ⟨_, hs₄, hharmless⟩
  intro hmerged
  rw [Bool.not_eq_false'] at hmerged
  subst hmerged
  have hlater := hlater₃.trans hlater₄
  have hworktree := hlater.worktree (hlater₂.worktree (hlater₁.worktree hgone))
  cases branchExists with
  | false =>
    rw [hbranch] at hnone
    exact ⟨hworktree, hlater.gone (hnone rfl)⟩
  | true =>
    obtain ⟨commit, rfl⟩ := hcommit rfl
    apply cleans_bind (deleteBranch_safe hs₄ hharmless hbranch (by simp) (by simp)
      (hreaches commit rfl rfl))
    rintro - s₅ ⟨hlater₅, hdeleted⟩
    exact ⟨hlater₅.worktree hworktree, hdeleted⟩

theorem cleanup_safe (env : GitEnvironment) (manager : OpenClawWorkspaceManager)
    (execution : ExternalExecution) (slot : ℕ) (mergedInto : String) (began : Repository) :
    Cleans env manager execution slot mergedInto began (fun _ s => Gone (recordedBranch execution) s)
      (manager.cleanup env execution slot mergedInto) began := by
  have hs : Since (recordedBranch execution) slot began [] began := ⟨.refl began, rfl⟩
  unfold cleanup
  apply cleans_raiseIf ⟨[], hs, .nil began⟩
  intro _
  apply workspaceRecord_safe hs
  intro record s₁ hrecord hs₁ s₂ _ hrely₂
  have hs₂ := hs₁.relies hrely₂
  refine ⟨trivial, fun choice _ => ⟨guarantees_refl s₂, ?_⟩⟩
  have hserve : (cleaning env manager execution).serve .workspaceExists choice s₂ =
    (s₂.worktree.isSome, s₂) := rfl
  rw [hserve]
  cases hworktree : s₂.worktree with
  | none => exact cleanupBranch_safe hworktree hrecord hs₂
  | some worktree =>
    have hpresent : began.worktree ≠ none := by
      intro hgone
      cases hworktree.symm.trans (hs₂.later.worktree hgone)
    exact cleanupWorktree_safe hpresent hrecord hs₂

end

/-! ## 4. Runs -/

section

variable (env : GitEnvironment) (manager : OpenClawWorkspaceManager) (execution : ExternalExecution)

abbrev CleaningStep := (cleaning env manager execution).Step

theorem unfinished_relies {branch : String} {slot : ℕ} {began s s' : Repository}
    (h : Unfinished branch slot began s) (hrely : Relies branch slot s s') :
    Unfinished branch slot began s' := by
  obtain ⟨found, hs, hharmless⟩ := h
  exact ⟨found, hs.relies hrely, hharmless⟩

/-- A call keeps to its checks, whatever the others do. -/
theorem program_safe (slot : ℕ) (call : WorkspaceCall) (s : Repository) :
    (cleaning env manager execution).Goes (fun _ _ => True) (fun _ => True)
      (Relies (recordedBranch execution)) (Guarantees (recordedBranch execution))
      (Issues (recordedBranch execution)) (Returned (recordedBranch execution)) slot call s
      ((cleaning env manager execution).program slot call) s := by
  cases call with
  | cleanup mergedInto =>
    have hcleanup : Cleans env manager execution slot mergedInto s
        (fun _ s => Gone (recordedBranch execution) s)
        (manager.cleanup env execution slot mergedInto >>= fun review => pure (some review)) s :=
      cleans_bind (cleanup_safe env manager execution slot mergedInto s) fun _ _ hgone => hgone
    apply (cleaning env manager execution).safe_mono (fun _ _ h => h) _ _ hcleanup
    · rintro error s' hunfinished s'' - hrely mergedInto' -
      exact ⟨nofun, fun _ _ => unfinished_relies hunfinished hrely⟩
    · rintro review s' hgone s'' - hrely mergedInto' -
      exact ⟨fun _ _ => ⟨hrely.1.worktree hgone.1, hrely.1.gone hgone.2⟩, nofun⟩
  | act action =>
    intro s' _ _
    refine ⟨⟨action, rfl⟩, fun choice _ => ?_⟩
    have hkept := s'.act_spec (recordedBranch execution) action
    refine ⟨⟨hkept.later, fun other _ => congrFun hkept.findings other⟩, ?_⟩
    rintro s'' - hrely mergedInto hcall
    cases hcall

variable {env manager execution}

/-- What a step of a run does to the repository. -/
inductive StepCases (t : CleaningStep env manager execution) : Prop where
  | same (h : t.after.shared = t.before.shared)
    (hanswered : ∀ slot call began statement, t.output ≠ .answered slot call began statement)
  | served (slot : ℕ) (call : WorkspaceCall) (began : Repository) (statement : GitStatement)
    (houtput : t.output = .answered slot call began statement)
    (hissue : Issues (recordedBranch execution) slot call began t.before.shared statement)
    (hserved : Served env (recordedBranch execution) t.before.shared statement t.after.shared)
    (hlater : t.before.shared.Later (recordedBranch execution) t.after.shared)

variable {s : Repository} {inputs : List (cleaning env manager execution).Input}
  {t : CleaningStep env manager execution}

theorem trace_meets
    (ht : t ∈ (cleaning env manager execution).machine.trace
      ((cleaning env manager execution).initial s) inputs) :
    (cleaning env manager execution).Meets (Guarantees (recordedBranch execution))
        (Issues (recordedBranch execution)) (Returned (recordedBranch execution)) t ∧
      ∀ slot call began statement, t.output = .answered slot call began statement →
        Issues (recordedBranch execution) slot call began t.before.shared statement := by
  have hcoherent : (cleaning env manager execution).Coherent (fun _ _ => True) (fun _ => True)
      (Relies (recordedBranch execution)) (Guarantees (recordedBranch execution))
      (Issues (recordedBranch execution)) (Returned (recordedBranch execution))
      ((cleaning env manager execution).initial s) := Coroutines.coherent_initial trivial
  have hrefl : ∀ slot s, Relies (recordedBranch execution) slot s s := fun _ s => ⟨.refl s, rfl⟩
  have htrans : ∀ slot s s' s'', Relies (recordedBranch execution) slot s s' →
      Relies (recordedBranch execution) slot s' s'' → Relies (recordedBranch execution) slot s s'' :=
    fun _ _ _ _ h h' => ⟨h.1.trans h'.1, h'.2.trans h.2⟩
  have hguar : ∀ slot (s s' : Repository), True → Guarantees (recordedBranch execution) slot s s' →
      True ∧ ∀ other, other ≠ slot → Relies (recordedBranch execution) other s s' :=
    fun _ _ _ _ h => ⟨trivial, fun other hother => ⟨h.1, h.2 other hother⟩⟩
  have hlawful : ∀ t ∈ (cleaning env manager execution).machine.trace
      ((cleaning env manager execution).initial s) inputs,
      (cleaning env manager execution).Lawful (fun _ _ => True) t :=
    fun _ _ _ _ _ _ _ _ _ _ _ => trivial
  have hsafe := fun slot call s (_ : True)
    (_ : (cleaning env manager execution).admits slot call = true) =>
      program_safe env manager execution slot call s
  exact ⟨(Coroutines.trace_spec hrefl htrans hguar hsafe hcoherent hlawful t ht).2,
    Coroutines.trace_answers hrefl htrans hguar hsafe hcoherent hlawful t ht⟩

theorem step_cases
    (ht : t ∈ (cleaning env manager execution).machine.trace
      ((cleaning env manager execution).initial s) inputs) : StepCases t := by
  obtain ⟨hmeets, hissues⟩ := trace_meets ht
  obtain ⟨is, i, js, -, hfire⟩ := Machine.mem_trace _ ht
  unfold Coroutines.Meets at hmeets
  cases houtput : t.output with
  | answered slot call began statement =>
    rw [houtput] at hmeets
    have hanswered : ((cleaning env manager execution).machine.step
        ((cleaning env manager execution).machine.run
          ((cleaning env manager execution).initial s) is) i).1 =
        .answered slot call began statement := by
      rw [← houtput, hfire]
      rfl
    obtain ⟨choice, hserve⟩ := Coroutines.answered_serve hanswered
    have hafter : t.after.shared =
        (statement.serve env (recordedBranch execution) choice t.before.shared).2 := by
      rw [hfire]
      exact hserve
    apply StepCases.served slot call began statement houtput (hissues slot call began statement houtput)
    · rw [hafter]
      exact serve_spec env (recordedBranch execution) statement choice _
    · exact hmeets.1
  | issued slot call began statement =>
    rw [houtput] at hmeets
    exact .same hmeets.2 fun _ _ _ _ h => by cases houtput.symm.trans h
  | returned slot call began result =>
    rw [houtput] at hmeets
    exact .same hmeets.2 fun _ _ _ _ h => by cases houtput.symm.trans h
  | ignored =>
    rw [houtput] at hmeets
    exact .same hmeets fun _ _ _ _ h => by cases houtput.symm.trans h
  | started slot call =>
    rw [houtput] at hmeets
    exact .same hmeets fun _ _ _ _ h => by cases houtput.symm.trans h
  | interrupted slot call =>
    rw [houtput] at hmeets
    exact .same hmeets fun _ _ _ _ h => by cases houtput.symm.trans h

theorem StepCases.later (h : StepCases t) :
    t.before.shared.Later (recordedBranch execution) t.after.shared := by
  cases h with
  | same h => rw [h]; exact .refl _
  | served _ _ _ _ _ _ _ hlater => exact hlater

/-- What the steps of a run keep to: the worktree is removed only after a review of the same cleanup that
let it pass, the recorded branch is deleted only at a commit that the target contains, and a cleanup ends
with both gone, or with an error after which its commands have deleted no branch and have removed no
worktree that was gone when it began. -/
structure Guarded (t : CleaningStep env manager execution) : Prop where
  removed : t.before.shared.worktree ≠ none → t.after.shared.worktree = none →
    ∃ slot mergedInto began head target,
      t.output = .answered slot (.cleanup mergedInto) began (.removeWorktree slot) ∧
      t.before.shared.findings slot =
        reviewed (recordedBranch execution) (Text.strip mergedInto) head target ++ began.findings slot ∧
      t.before.shared.graph.Reaches target head
  deleted : ∀ commit, t.before.shared.refs (branchRef (recordedBranch execution)) = some commit →
    t.after.shared.refs (branchRef (recordedBranch execution)) = none →
    ∃ slot mergedInto began found target,
      t.output = .answered slot (.cleanup mergedInto) began
        (.deleteBranch slot (recordedBranch execution) (.commit commit)) ∧
      t.before.shared.findings slot = found ++ began.findings slot ∧
      .target (Text.strip mergedInto) target ∈ found ∧ .merged (.commit commit) target true ∈ found ∧
      t.before.shared.graph.Reaches target commit
  answered : ∀ slot mergedInto began statement,
    t.output = .answered slot (.cleanup mergedInto) began statement →
    t.before.shared.Alike t.after.shared ∨
      t.after.shared.findings slot = .removed :: t.before.shared.findings slot ∨
      ∃ commit, t.after.shared.findings slot = .deleted commit :: t.before.shared.findings slot
  returned : ∀ slot mergedInto began result,
    t.output = .returned slot (.cleanup mergedInto) began result →
    (∀ review, result = .ok review → Gone (recordedBranch execution) t.after.shared) ∧
      ∀ error, result = .error error →
        ∃ found, t.after.shared.findings slot = found ++ began.findings slot ∧ Harmless began found

theorem StepCases.removed (h : StepCases t) (hpresent : t.before.shared.worktree ≠ none)
    (hgone : t.after.shared.worktree = none) :
    ∃ slot mergedInto began head target,
      t.output = .answered slot (.cleanup mergedInto) began (.removeWorktree slot) ∧
      t.before.shared.findings slot =
        reviewed (recordedBranch execution) (Text.strip mergedInto) head target ++ began.findings slot ∧
      t.before.shared.graph.Reaches target head := by
  cases h with
  | same h =>
    rw [h] at hgone
    exact absurd hgone hpresent
  | served slot call began statement houtput hissue hserved =>
    generalize hafter : t.after.shared = s' at hserved hgone
    cases hserved with
    | read _ halike => exact absurd (halike.worktree.symm.trans hgone) hpresent
    | acted action =>
      have hkept := (t.before.shared.act_spec (recordedBranch execution) action).worktree
        (Option.isSome_iff_ne_none.mpr hpresent)
      rw [hgone] at hkept
      cases hkept
    | removed slot' hworktree =>
      obtain ⟨rfl, mergedInto, head, target, rfl, hs, hreaches⟩ := hissue
      exact ⟨slot', mergedInto, began, head, target, houtput, hs.findings, hreaches⟩
    | deleted slot' name head hcommit href => exact absurd hgone hpresent

/-- The step that deletes the recorded branch. -/
theorem StepCases.deleted {commit : ℕ} (h : StepCases t)
    (href : t.before.shared.refs (branchRef (recordedBranch execution)) = some commit)
    (hgone : t.after.shared.refs (branchRef (recordedBranch execution)) = none) :
    ∃ slot mergedInto began found target,
      t.output = .answered slot (.cleanup mergedInto) began
        (.deleteBranch slot (recordedBranch execution) (.commit commit)) ∧
      t.before.shared.findings slot = found ++ began.findings slot ∧
      .target (Text.strip mergedInto) target ∈ found ∧ .merged (.commit commit) target true ∈ found ∧
      t.before.shared.graph.Reaches target commit ∧
      t.after.shared = (t.before.shared.record slot (.deleted commit)).setRef
        (branchRef (recordedBranch execution)) none := by
  cases h with
  | same h =>
    rw [h, href] at hgone
    cases hgone
  | served slot call began statement houtput hissue hserved =>
    generalize hafter : t.after.shared = s' at hserved hgone
    cases hserved with
    | read _ halike =>
      rw [halike.refs, href] at hgone
      cases hgone
    | acted action =>
      have hkept := (t.before.shared.act_spec (recordedBranch execution) action).refs
        (branchRef (recordedBranch execution)) (by rw [href]; rfl)
      rw [hgone] at hkept
      cases hkept
    | removed slot' hworktree => cases href.symm.trans hgone
    | deleted slot' name head hcommit href' =>
      obtain ⟨rfl, rfl, mergedInto, commit', found, target, rfl, rfl, hs, htarget, hmerged, hreaches⟩ :=
        hissue
      obtain rfl := Option.some.inj (href.symm.trans href')
      obtain rfl := Option.some.inj hcommit
      exact ⟨slot', mergedInto, began, found, target, houtput, hs.findings, htarget, hmerged, hreaches, rfl⟩

theorem StepCases.answered (h : StepCases t) {slot : ℕ} {mergedInto : String} {began : Repository}
    {statement : GitStatement} (houtput : t.output = .answered slot (.cleanup mergedInto) began statement) :
    t.before.shared.Alike t.after.shared ∨
      t.after.shared.findings slot = .removed :: t.before.shared.findings slot ∨
      ∃ commit, t.after.shared.findings slot = .deleted commit :: t.before.shared.findings slot := by
  cases h with
  | same _ hanswered => exact absurd houtput (hanswered slot _ began statement)
  | served slot' call began' statement' houtput' hissue hserved =>
    cases houtput.symm.trans houtput'
    generalize hafter : t.after.shared = s' at hserved
    cases hserved with
    | read _ halike => exact .inl halike
    | acted action =>
      obtain ⟨action', hcall⟩ := hissue
      cases hcall
    | removed slot' hworktree =>
      obtain ⟨rfl, -⟩ := hissue
      exact .inr (.inl (Function.update_self _ _ _))
    | deleted slot' name head hcommit href =>
      obtain ⟨rfl, -⟩ := hissue
      exact .inr (.inr ⟨_, Function.update_self _ _ _⟩)

/-- A cleanup keeps to its checks in every run. -/
theorem trace_guarded
    (ht : t ∈ (cleaning env manager execution).machine.trace
      ((cleaning env manager execution).initial s) inputs) : Guarded t where
  removed hpresent hgone := (step_cases ht).removed hpresent hgone
  deleted commit href hgone := by
    obtain ⟨slot, mergedInto, began, found, target, houtput, hfound, htarget, hmerged, hreaches, -⟩ :=
      (step_cases ht).deleted href hgone
    exact ⟨slot, mergedInto, began, found, target, houtput, hfound, htarget, hmerged, hreaches⟩
  answered slot mergedInto began statement houtput := (step_cases ht).answered houtput
  returned slot mergedInto began result houtput := by
    have hmeets := (trace_meets ht).1
    unfold Coroutines.Meets at hmeets
    rw [houtput] at hmeets
    obtain ⟨hreturned, hshared⟩ := hmeets
    rw [hshared]
    refine ⟨(hreturned mergedInto rfl).1, fun error herror => ?_⟩
    obtain ⟨found, hs, hharmless⟩ := (hreturned mergedInto rfl).2 error herror
    exact ⟨found, hs.findings, hharmless⟩

end

/-! ## 5. What stays reachable -/

namespace Repository

variable (s : Repository) (branch : String) (commit : ℕ)

/-- A ref contains the commit, or the detached head of the repository does. -/
def Reachable : Prop :=
  (∃ ref tip, s.refs ref = some tip ∧ s.graph.Reaches tip commit) ∨
    ∃ tip, s.head = .detached tip ∧ s.graph.Reaches tip commit

/-- The commit is reachable without the recorded branch. -/
def Elsewhere : Prop :=
  (∃ ref tip, ref ≠ branchRef branch ∧ s.refs ref = some tip ∧ s.graph.Reaches tip commit) ∨
    ∃ tip, s.head = .detached tip ∧ s.graph.Reaches tip commit

def OnBranch : Prop := ∃ tip, s.refs (branchRef branch) = some tip ∧ s.graph.Reaches tip commit

variable {s branch commit} {s' : Repository} {ancestor : ℕ}

theorem OnBranch.reachable (h : s.OnBranch branch commit) : s.Reachable commit := by
  obtain ⟨tip, htip, hreaches⟩ := h
  exact .inl ⟨branchRef branch, tip, htip, hreaches⟩

theorem Elsewhere.reachable (h : s.Elsewhere branch commit) : s.Reachable commit := by
  rcases h with ⟨ref, tip, -, htip, hreaches⟩ | hhead
  · exact .inl ⟨ref, tip, htip, hreaches⟩
  · exact .inr hhead

theorem Elsewhere.trans (h : s.Elsewhere branch commit) (hreaches : s.graph.Reaches commit ancestor) :
    s.Elsewhere branch ancestor := by
  rcases h with ⟨ref, tip, hother, htip, htips⟩ | ⟨tip, hhead, htips⟩
  · exact .inl ⟨ref, tip, hother, htip, htips.trans hreaches⟩
  · exact .inr ⟨tip, hhead, htips.trans hreaches⟩

/-- Refs other than the recorded branch move forward. -/
theorem Elsewhere.later (h : s.Elsewhere branch commit) (hlater : s.Later branch s') :
    s'.Elsewhere branch commit := by
  rcases h with ⟨ref, tip, hother, htip, hreaches⟩ | ⟨tip, hhead, hreaches⟩
  · rcases hlater.refs ref tip htip with ⟨tip', htip', hforward⟩ | ⟨rfl, -⟩
    · exact .inl ⟨ref, tip', hother, htip', hforward.trans (hlater.graph.reaches hreaches)⟩
    · exact absurd rfl hother
  · exact .inr ⟨tip, hlater.head.trans hhead, hlater.graph.reaches hreaches⟩

/-- What is reachable stays so, unless it is lost with the recorded branch. -/
theorem Reachable.later (h : s.Reachable commit) (hlater : s.Later branch s')
    (hdeleted : ∀ tip, s.refs (branchRef branch) = some tip → s'.refs (branchRef branch) = none →
      s.Elsewhere branch tip) : s'.Reachable commit := by
  rcases h with ⟨ref, tip, htip, hreaches⟩ | hhead
  · rcases hlater.refs ref tip htip with ⟨tip', htip', hforward⟩ | ⟨rfl, hgone⟩
    · exact .inl ⟨ref, tip', htip', hforward.trans (hlater.graph.reaches hreaches)⟩
    · exact (((hdeleted tip htip hgone).trans hreaches).later hlater).reachable
  · have helsewhere : s.Elsewhere branch commit := .inr hhead
    exact (helsewhere.later hlater).reachable

/-- Without the recorded branch, only what is reachable elsewhere is reachable. -/
theorem Reachable.elsewhere {slot : ℕ} {finding : Finding}
    (h : ((s.record slot finding).setRef (branchRef branch) none).Reachable commit) :
    s.Elsewhere branch commit := by
  rcases h with ⟨ref, tip, htip, hreaches⟩ | hhead
  · have hother : ref ≠ branchRef branch := by
      rintro rfl
      cases (Function.update_self _ _ _).symm.trans htip
    exact .inl ⟨ref, tip, hother, (Function.update_of_ne hother _ _).symm.trans htip, hreaches⟩
  · exact .inr hhead

end Repository

section

variable (env : GitEnvironment) (manager : OpenClawWorkspaceManager) (execution : ExternalExecution)
  (s : Repository)

/-- The repository after a run. -/
abbrev repositoryAfter (inputs : List (cleaning env manager execution).Input) : Repository :=
  ((cleaning env manager execution).machine.run
    ((cleaning env manager execution).initial s) inputs).shared

/-- Every commit that the recorded branch contained at some time of a run is reachable ever after. -/
def LosesNothing (inputs : List (cleaning env manager execution).Input) : Prop :=
  ∀ earlier later, earlier <+: later → later <+: inputs → ∀ commit,
    (repositoryAfter env manager execution s earlier).OnBranch (recordedBranch execution) commit →
      (repositoryAfter env manager execution s later).Reachable commit

/-- A step that deletes the recorded branch finds its commit elsewhere. -/
def DeletesContained (t : CleaningStep env manager execution) : Prop :=
  ∀ commit, t.before.shared.refs (branchRef (recordedBranch execution)) = some commit →
    t.after.shared.refs (branchRef (recordedBranch execution)) = none →
    t.before.shared.Elsewhere (recordedBranch execution) commit

variable {env manager execution s}

theorem losesNothing_iff {inputs : List (cleaning env manager execution).Input} :
    LosesNothing env manager execution s inputs ↔
      ∀ t ∈ (cleaning env manager execution).machine.trace
        ((cleaning env manager execution).initial s) inputs, DeletesContained env manager execution t := by
  constructor
  · intro h t ht commit href hgone
    obtain ⟨slot, mergedInto, began, found, target, -, -, -, -, -, hafter⟩ :=
      (step_cases ht).deleted href hgone
    obtain ⟨is, i, js, rfl, hfire⟩ := Machine.mem_trace _ ht
    have hbefore : t.before.shared = repositoryAfter env manager execution s is := by rw [hfire]; rfl
    have hnext : t.after.shared = repositoryAfter env manager execution s (is ++ [i]) := by
      rw [hfire]
      unfold repositoryAfter
      rw [Machine.run_append]
      rfl
    have hreachable : t.after.shared.Reachable commit := by
      rw [hnext]
      apply h is (is ++ [i]) (List.prefix_append _ _) ⟨js, by simp⟩ commit
      rw [← hbefore]
      exact ⟨commit, href, .refl⟩
    rw [hafter] at hreachable
    exact hreachable.elsewhere
  · rintro h earlier later ⟨between, rfl⟩ ⟨rest, rfl⟩ commit hbranch
    unfold repositoryAfter
    rw [Machine.run_append]
    -- the steps between the two states keep what is reachable
    refine ((cleaning env manager execution).machine.trace_keeps
      (Q := fun c => c.shared.Reachable commit) hbranch.reachable fun t ht hreachable => ?_).1
    have hmem : t ∈ (cleaning env manager execution).machine.trace
        ((cleaning env manager execution).initial s) (earlier ++ between ++ rest) := by
      rw [Machine.trace_append, Machine.trace_append]
      exact List.mem_append_left _ (List.mem_append_right _ ht)
    exact hreachable.later (step_cases hmem).later (h t hmem)

/-- Where every target that a command verifies is contained in another ref, nothing is lost. -/
theorem losesNothing_of_targets (hfindings : s.findings = fun _ => [])
    {inputs : List (cleaning env manager execution).Input}
    (h : ∀ t ∈ (cleaning env manager execution).machine.trace
      ((cleaning env manager execution).initial s) inputs,
      ∀ slot call began slot' revision target,
        t.output = .answered slot call began (.verifyTarget slot' revision) →
        env.commitOf revision t.before.shared = some target →
        t.before.shared.Elsewhere (recordedBranch execution) target) :
    LosesNothing env manager execution s inputs := by
  rw [losesNothing_iff]
  -- every target that was found out is contained in another ref ever after
  let Q := fun c : (cleaning env manager execution).Config => ∀ slot revision target,
    .target revision target ∈ c.shared.findings slot →
      c.shared.Elsewhere (recordedBranch execution) target
  have hkept : ∀ t ∈ (cleaning env manager execution).machine.trace
      ((cleaning env manager execution).initial s) inputs, Q t.before ∧ Q t.after :=
    ((cleaning env manager execution).machine.trace_keeps (Q := Q) ?_ ?_).2
  · intro t ht commit href hgone
    obtain ⟨slot, mergedInto, began, found, target, -, hfound, htarget, -, hreaches, -⟩ :=
      (step_cases ht).deleted href hgone
    have hmem : .target (Text.strip mergedInto) target ∈ t.before.shared.findings slot := by
      rw [hfound]
      exact List.mem_append_left _ htarget
    exact ((hkept t ht).1 slot _ target hmem).trans hreaches
  · intro slot revision target hmem
    replace hmem : .target revision target ∈ s.findings slot := hmem
    rw [hfindings] at hmem
    cases hmem
  · intro t ht htargets slot revision target hmem
    refine Repository.Elsewhere.later ?_ (step_cases ht).later
    cases step_cases ht with
    | same hsame =>
      rw [hsame] at hmem
      exact htargets slot revision target hmem
    | served slot' call began statement houtput _ hserved =>
      generalize hafter : t.after.shared = s' at hserved hmem
      cases hserved with
      | read _ _ htarget =>
        rcases htarget slot revision target hmem with hmem | ⟨rfl, hcommit⟩
        · exact htargets slot revision target hmem
        · exact h t ht slot' call began slot revision target houtput hcommit
      | acted action =>
        rw [(t.before.shared.act_spec (recordedBranch execution) action).findings] at hmem
        exact htargets slot revision target hmem
      | removed _ _ | deleted _ _ _ _ _ =>
        rcases mem_record hmem with hmem | ⟨-, hfinding⟩
        · exact htargets slot revision target hmem
        · cases hfinding

/-- In every run the commands of a cleanup keep to its checks; and no commit of the recorded branch is lost
exactly as long as the branch is deleted at commits that another ref contains. -/
theorem cleanup_losesNothing_iff (env : GitEnvironment) (manager : OpenClawWorkspaceManager)
    (execution : ExternalExecution) (s : Repository)
    (inputs : List (cleaning env manager execution).Input) :
    (∀ t ∈ (cleaning env manager execution).machine.trace
      ((cleaning env manager execution).initial s) inputs, Guarded t) ∧
    (LosesNothing env manager execution s inputs ↔
      ∀ t ∈ (cleaning env manager execution).machine.trace
        ((cleaning env manager execution).initial s) inputs, DeletesContained env manager execution t) :=
  ⟨fun _ ht => trace_guarded ht, losesNothing_iff⟩

end

/-! ## 6. The branch as its own target -/

/-- A repository at `/repository` with its worktree at `/worktree`, and paths of one name. -/
def plainGit : GitEnvironment where
  resolve text := (Location.entryName? (String.ofList (text.toList.drop 1))).toList
  commitOf revision repository :=
    if revision = "HEAD" then repository.commitOf repository.head
    else repository.refs (branchRef revision)
  hash commit := toString commit

def plainManager : OpenClawWorkspaceManager where
  workspaceRoot := some []
  repositoryRoots := [[]]

def workExecution : ExternalExecution where
  executionId := 0
  runId := 1
  nodeKey := "build"
  executorKey := "openclaw"
  idempotencyKey := "0:build:1"
  externalSessionKey := "agent:main:jb:0:build"
  workspacePath := some "/worktree"
  workspaceRepositoryPath := some "/repository"
  workspaceBranch := some "work"
  workspaceBaseRef := some "0"
  status := .succeeded

/-- The branch `main`, and `work` with a commit on top of it. -/
def workRepository : Repository where
  graph := (CommitGraph.add ⟨[], nofun⟩ [] nofun).add [0] (by decide)
  refs ref := if ref = "refs/heads/main" then some 0 else if ref = "refs/heads/work" then some 1 else none
  head := .branch "main"
  worktree := some ⟨.branch "work", true⟩
  findings _ := []

/-- Every command succeeds. -/
def workAnswer : (statement : GitStatement) → statement.Choice
  | .repositoryTopLevel => .ok (plainGit.resolve "/repository")
  | .workspaceTopLevel => .ok (plainGit.resolve "/worktree")
  | .workspaceExists | .workspaceIsDir | .act _ => ()
  | .showCurrent _ | .workspaceHead _ | .verifyTarget .. | .verifyBranch _ | .status _
  | .isAncestor .. | .showRef _ | .removeWorktree _ | .deleteBranch .. => none

/-- A cleanup whose target is the recorded branch. -/
def workRun : List (cleaning plainGit plainManager workExecution).Input :=
  .start 0 (.cleanup "work") :: (List.replicate 12 [.resume 0, .answer 0 workAnswer]).flatten

theorem workRun_refs :
    (repositoryAfter plainGit plainManager workExecution workRepository workRun).refs =
      Function.update workRepository.refs "refs/heads/work" none := by
  rfl

theorem workRun_graph :
    (repositoryAfter plainGit plainManager workExecution workRepository workRun).graph =
      workRepository.graph := by
  rfl

theorem workRun_head :
    (repositoryAfter plainGit plainManager workExecution workRepository workRun).head =
      .branch "main" := by
  rfl

/-- The only commit of `work` is in no ref after the cleanup. -/
theorem cleanup_loses_branch :
    ¬ ∀ (env : GitEnvironment) (manager : OpenClawWorkspaceManager) (execution : ExternalExecution)
      (s : Repository) (inputs : List (cleaning env manager execution).Input),
      LosesNothing env manager execution s inputs := by
  intro h
  have hreachable := h plainGit plainManager workExecution workRepository workRun [] workRun
    (List.nil_prefix) List.prefix_rfl 1 ⟨1, by decide +kernel, .refl⟩
  rcases hreachable with ⟨ref, tip, htip, hreaches⟩ | ⟨tip, htip, -⟩
  · rw [workRun_graph, ← CommitGraph.reaches_iff] at hreaches
    rw [workRun_refs, Function.update_apply] at htip
    split at htip
    · cases htip
    · rename_i hother
      simp only [workRepository, hother, if_false] at htip
      split at htip
      · obtain rfl := Option.some.inj htip
        revert hreaches
        decide +kernel
      · cases htip
  · rw [workRun_head] at htip
    cases htip

end JbOrchestrator.OpenClaw
