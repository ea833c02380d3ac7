import JbOrchestrator.Application.Consistency

/-!
# Sessions — statements and commits of one session

A `Discipline` says how sessions run: what others may do between two statements, and when a statement
may be answered.  The rules below take the statements of a session one at a time, and the last part
reads the rows off the writes of a unit of work.
-/

open Lib

namespace JbOrchestrator.Application

open Domain Workflows Infrastructure Infrastructure.Database

/-! ## 1. Disciplines -/

/-- What a call that returns does to the world. -/
def WorldCommits (isolation : Isolation) (call : Call) (result : Result) (held : Set RowLock)
    (world world' : World) : Prop :=
  world'.history = world.history ++ [(call, result)] ∧
    Commits isolation held world.database world'.database call result

/-- When a call raises an `InvalidStateTransition`. -/
def Raises (isolation : Isolation) (call : Call) (error : ServiceError) (world : World) : Prop :=
  error.isTransition = true → Refuses isolation world.database call

def World.Consistent (world : World) : Prop := world.database.Consistent

structure Discipline (isolation : Isolation) where
  rely : Set RowLock → World → World → Prop
  guard : Call → World → UnitOfWork → Statement → Prop
  refl : ∀ held world, rely held world world
  trans : ∀ held world world' world'', rely held world world' → rely held world' world'' →
    rely held world world''
  mono : ∀ {held held' world world'}, held ⊆ held' → rely held' world world' →
    rely held world world'
  rows : ∀ {held world world'}, rely held world world' →
    Rely held world.database world'.database
  /-- the node row of a candidate when its execution is locked -/
  fresh : isolation.freshNodes → ∀ {call held world world' unitOfWork candidate stored},
    world.Consistent → ((∃ executorKeys, candidate ∈ world.database.readyCandidates executorKeys) ∨
      ∃ changedAt, candidate ∈ world.database.expiredCandidates changedAt) →
    rely held world world' → guard call world' unitOfWork (.lockCandidate candidate) →
    world'.database.executions.get? candidate.executionId = some stored →
    stored.nodes.get? candidate.node.nodeKey = some candidate.node
  /-- a run without an execution when `cancel_run` locks it -/
  settled : isolation.settledRuns → ∀ {held world world' unitOfWork runId now},
    world.database.Unstarted runId → unitOfWork.executions = .empty → rely held world world' →
    guard (.cancelRun runId now) world' unitOfWork (.run runId true) →
    world'.database.Unstarted runId

namespace Discipline

variable {isolation : Isolation} (D : Discipline isolation) (settings : Settings) (call : Call)

variable {D} in
theorem chain {held held' : Set RowLock} {world world' world'' : World} (hheld : held ⊆ held')
    (h : D.rely held world world') (h' : D.rely held' world' world'') : D.rely held world world'' :=
  D.trans _ _ _ _ h (D.mono hheld h')

/-- The precondition of a part of the call. -/
def wp {β : Type} (E : Set RowLock → UnitOfWork → ServiceError → World → Prop)
    (P : Set RowLock → UnitOfWork → β → World → Prop) (p : Transaction β) (held : Set RowLock)
    (unitOfWork : UnitOfWork) (world : World) : Prop :=
  (services settings).wp D.rely (D.guard call) E P p held unitOfWork world

/-- The rest of the call finds its locks. -/
def finishes (held : Set RowLock) (unitOfWork : UnitOfWork) (result : Result) (world : World) :
    Prop :=
  (services settings).Finishes D.rely World.Consistent (WorldCommits isolation) (Raises isolation)
    call held unitOfWork result world

def fails (held : Set RowLock) (unitOfWork : UnitOfWork) (error : ServiceError) (world : World) :
    Prop :=
  Store.Fails D.rely World.Consistent (Raises isolation) call held unitOfWork error world

variable {D settings call} {β δ : Type}
  {E : Set RowLock → UnitOfWork → ServiceError → World → Prop}
  {P : Set RowLock → UnitOfWork → β → World → Prop} {held : Set RowLock} {unitOfWork : UnitOfWork}
  {world : World}

theorem wp_bind {p : Transaction δ} {f : δ → Transaction β}
    (h : D.wp settings call E (fun held unitOfWork value world =>
      D.wp settings call E P (f value) held unitOfWork world) p held unitOfWork world) :
    D.wp settings call E P (p >>= f) held unitOfWork world :=
  ((services settings).wp_bind f p held unitOfWork world).mpr h

theorem wp_pure {value : β} (h : P held unitOfWork value world) :
    D.wp settings call E P (pure value) held unitOfWork world := h

theorem wp_raise {error : ServiceError} (h : E held unitOfWork error world) :
    D.wp settings call E P (.raise error) held unitOfWork world := h

/-- One statement, on the world that the others have left. -/
theorem wp_perform {statement : Statement}
    {P : Set RowLock → UnitOfWork → statement.Reply → World → Prop}
    (h : ∀ world', D.rely held world world' → D.guard call world' unitOfWork statement →
      ∀ taken, P (held ∪ {l | l ∈ statement.locks world'.database taken})
        (statement.answer world'.database taken unitOfWork).2
        (statement.answer world'.database taken unitOfWork).1 world') :
    D.wp settings call E P (perform statement) held unitOfWork world := by
  intro world' hrely hguard taken reply after acquired hexec
  obtain ⟨rfl, rfl, rfl, -⟩ := Statement.exec_eq_some hexec
  exact h world' hrely hguard taken

/-- A statement that may take locks. -/
theorem wp_locking {statement : Statement}
    {P : Set RowLock → UnitOfWork → statement.Reply → World → Prop}
    (h : ∀ held' world', held ⊆ held' → D.rely held world world' → ∀ taken,
      P held' (statement.answer world'.database taken unitOfWork).2
        (statement.answer world'.database taken unitOfWork).1 world') :
    D.wp settings call E P (perform statement) held unitOfWork world :=
  wp_perform fun world' hrely _ taken => h _ world' Set.subset_union_left hrely taken

/-- A statement that takes no lock. -/
theorem wp_unlocked {statement : Statement}
    {P : Set RowLock → UnitOfWork → statement.Reply → World → Prop}
    (hlocks : ∀ db taken, statement.locks db taken = [])
    (h : ∀ world', D.rely held world world' → ∀ taken,
      P held (statement.answer world'.database taken unitOfWork).2
        (statement.answer world'.database taken unitOfWork).1 world') :
    D.wp settings call E P (perform statement) held unitOfWork world := by
  refine wp_perform fun world' hrely _ taken => ?_
  rw [hlocks, show held ∪ {l | l ∈ ([] : List RowLock)} = held by simp]
  exact h world' hrely taken

theorem wp_ofOption {x : Option β} {error : ServiceError}
    (hsome : ∀ value, x = some value → P held unitOfWork value world)
    (hnone : x = none → E held unitOfWork error world) :
    D.wp settings call E P (Program.ofOption error x) held unitOfWork world :=
  (services settings).wp_ofOption hsome hnone

theorem wp_throwDomain {x : Except DomainError β}
    (hok : ∀ value, x = .ok value → P held unitOfWork value world)
    (herror : ∀ error, x = .error error → E held unitOfWork (.domain error) world) :
    D.wp settings call E P (throwDomain x) held unitOfWork world := by
  refine (services settings).wp_ofExcept ?_ ?_
  · rintro value hvalue
    cases x with
    | ok value' => exact hok value (by cases hvalue; rfl)
    | error error => cases hvalue
  · rintro error herror'
    cases x with
    | ok value' => cases herror'
    | error error' =>
      obtain rfl := Except.error.inj herror'
      exact herror error' rfl

theorem wp_applyOperation {execution : WorkflowExecution} {operation : Operation}
    {P : Set RowLock → UnitOfWork → WorkflowExecution → World → Prop}
    (hok : ∀ calls after, engine.step execution operation = (⟨.ok (), calls⟩, after) →
      P held unitOfWork after world)
    (herror : ∀ error, E held unitOfWork (.engine error) world) :
    D.wp settings call E P (applyOperation execution operation) held unitOfWork world := by
  unfold applyOperation
  split
  · rename_i u calls after hstep
    exact hok calls after hstep
  · exact herror _

/-- The statements that read what no session changes or that lock nothing they read. -/
def quiet : Statement → Prop
  | .project _ | .readyCandidates _ | .expiredCandidates _ | .latestArtifacts _ _
  | .definition _ _ | .phasePack _ | .skill _ | .latestModelProfiles => True
  | _ => False

theorem wp_quiet {p : Transaction β}
    (hp : p.Within quiet fun error => error.isTransition = false)
    (hP : ∀ value world', D.rely held world world' → P held unitOfWork value world')
    (hE : ∀ error world', error.isTransition = false → E held unitOfWork error world') :
    D.wp settings call E P p held unitOfWork world := by
  refine (services settings).wp_within hp ?_ D.refl D.trans hP
    fun error world' herror _ => hE error world' herror
  intro world taken unitOfWork statement reply after acquired hquiet hexec
  obtain ⟨-, rfl, rfl, -⟩ := Statement.exec_eq_some hexec
  cases statement <;> first | exact ⟨rfl, rfl⟩ | cases hquiet

theorem fails_of_not_transition {error : ServiceError} (h : error.isTransition = false) :
    D.fails call held unitOfWork error world := by
  intro world' _ _ htransition
  rw [h] at htransition
  cases htransition

end Discipline

/-! ## 2. Flushing a unit of work -/

/-- The writes on budget accounts and reservations. -/
def isBudgetWrite : Write → Bool
  | .updateAccount _ _ | .updateReservation _ => true
  | _ => false

/-- Everything but the budget tables. -/
structure SameRows (db db' : Database) : Prop where
  executions : db'.executions = db.executions
  runs : db'.runs = db.runs
  requests : db'.requests = db.requests
  artifacts : db'.artifacts = db.artifacts
  events : db'.events = db.events

theorem SameRows.trans {db db' db'' : Database} (h : SameRows db db') (h' : SameRows db' db'') :
    SameRows db db'' where
  executions := h'.executions.trans h.executions
  runs := h'.runs.trans h.runs
  requests := h'.requests.trans h.requests
  artifacts := h'.artifacts.trans h.artifacts
  events := h'.events.trans h.events

section

variable {db db' : Database}

theorem apply_budget {write : Write} (hbudget : isBudgetWrite write = true)
    (h : write.apply db = .ok db') : SameRows db db' := by
  cases write with
  | updateAccount loaded current =>
    simp only [Write.apply] at h
    split at h
    · cases h
    · split at h
      · obtain rfl := Except.ok.inj h
        exact ⟨rfl, rfl, rfl, rfl, rfl⟩
      · cases h
  | updateReservation current =>
    simp only [Write.apply] at h
    split at h
    · cases h
    · obtain rfl := Except.ok.inj h
      exact ⟨rfl, rfl, rfl, rfl, rfl⟩
  | _ => cases hbudget

theorem foldlM_cons_ok {write : Write} {writes : List Write}
    (h : (write :: writes).foldlM Write.apply db = .ok db') :
    ∃ middle, write.apply db = .ok middle ∧ writes.foldlM Write.apply middle = .ok db' := by
  rw [List.foldlM_cons] at h
  cases hwrite : write.apply db with
  | error error =>
    rw [hwrite] at h
    cases h
  | ok middle =>
    rw [hwrite] at h
    exact ⟨middle, rfl, h⟩

theorem foldlM_append_ok {writes writes' : List Write}
    (h : (writes ++ writes').foldlM Write.apply db = .ok db') :
    ∃ middle, writes.foldlM Write.apply db = .ok middle ∧
      writes'.foldlM Write.apply middle = .ok db' := by
  rw [List.foldlM_append] at h
  cases hwrites : writes.foldlM Write.apply db with
  | error error =>
    rw [hwrites] at h
    cases h
  | ok middle =>
    rw [hwrites] at h
    exact ⟨middle, rfl, h⟩

theorem foldlM_budget {writes : List Write} (hbudget : ∀ write ∈ writes, isBudgetWrite write = true)
    (h : writes.foldlM Write.apply db = .ok db') : SameRows db db' := by
  induction writes generalizing db with
  | nil =>
    obtain rfl := Except.ok.inj h
    exact ⟨rfl, rfl, rfl, rfl, rfl⟩
  | cons write writes ih =>
    rw [List.forall_mem_cons] at hbudget
    obtain ⟨middle, hwrite, hwrites⟩ := foldlM_cons_ok h
    exact (apply_budget hbudget.1 hwrite).trans (ih hbudget.2 hwrites)

/-- No write raises an `InvalidStateTransition`. -/
theorem apply_error {write : Write} {error : ServiceError} (h : write.apply db = .error error) :
    error.isTransition = false := by
  cases write <;> simp only [Write.apply] at h <;> repeat' split at h
  all_goals first | (obtain rfl := Except.error.inj h; rfl) | cases h

theorem flush_error {unitOfWork : UnitOfWork} {error : ServiceError}
    (h : unitOfWork.flush db = .error error) : error.isTransition = false := by
  have hfold : ∀ {writes : List Write} {db : Database},
      writes.foldlM Write.apply db = .error error → error.isTransition = false := by
    intro writes
    induction writes with
    | nil => intro db h; cases h
    | cons write writes ih =>
      intro db h
      rw [List.foldlM_cons] at h
      cases hwrite : write.apply db with
      | error error' =>
        rw [hwrite] at h
        obtain rfl := Except.error.inj h
        exact apply_error hwrite
      | ok middle =>
        rw [hwrite] at h
        exact ih h
  unfold UnitOfWork.flush at h
  cases hwrites : unitOfWork.writes.foldlM Write.apply db with
  | error error' =>
    rw [hwrites] at h
    obtain rfl := Except.error.inj h
    exact hfold hwrites
  | ok db' =>
    rw [hwrites] at h
    cases h

theorem flush_ok {unitOfWork : UnitOfWork} (h : unitOfWork.flush db = .ok db') :
    ∃ middle, unitOfWork.writes.foldlM Write.apply db = .ok middle ∧
      db' = { middle with events := middle.events ++ unitOfWork.events } := by
  unfold UnitOfWork.flush at h
  cases hwrites : unitOfWork.writes.foldlM Write.apply db with
  | error error =>
    rw [hwrites] at h
    cases h
  | ok middle =>
    rw [hwrites] at h
    exact ⟨middle, rfl, (Except.ok.inj h).symm⟩

def runWrites (loaded : Run) : Option Run → List Write
  | none => []
  | some current => [.updateRun loaded current]

def requestWrites (loaded : UserRequest) : Option UserRequest → List Write
  | none => []
  | some current => [.updateRequest loaded current]

theorem runWrites_ok {run : Run} {run' : Option Run}
    (h : (runWrites run run').foldlM Write.apply db = .ok db') :
    db' = { db with runs := setRun db.runs run' } ∧ ∀ changed, run' = some changed →
      ∃ stored, db.runs.get? changed.id = some stored ∧ stored.version = run.version := by
  cases run' with
  | none =>
    obtain rfl := Except.ok.inj h
    exact ⟨rfl, fun _ hnone => by cases hnone⟩
  | some current =>
    obtain ⟨middle, hwrite, hnil⟩ := foldlM_cons_ok h
    obtain rfl := Except.ok.inj hnil
    simp only [Write.apply] at hwrite
    split at hwrite
    · cases hwrite
    · rename_i stored hstored
      split at hwrite
      · rename_i hversion
        obtain rfl := Except.ok.inj hwrite
        refine ⟨rfl, ?_⟩
        rintro changed ⟨⟩
        exact ⟨stored, hstored, hversion⟩
      · cases hwrite

theorem requestWrites_ok {request : UserRequest} {request' : Option UserRequest}
    (hrow : db.requests.get? request.id = some request)
    (hchanged : ∀ changed, request' = some changed →
      ∃ status changedAt, request.setStatus status changedAt = .ok changed)
    (h : (requestWrites request request').foldlM Write.apply db = .ok db') :
    db' = { db with requests := setRequest db.requests request' } := by
  cases request' with
  | none =>
    obtain rfl := Except.ok.inj h
    rfl
  | some current =>
    obtain ⟨middle, hwrite, hnil⟩ := foldlM_cons_ok h
    obtain rfl := Except.ok.inj hnil
    obtain ⟨status, changedAt, hset⟩ := hchanged current rfl
    simp only [Write.apply, (UserRequest.setStatus_ok hset).2.2, hrow, column_self] at hwrite
    obtain rfl := Except.ok.inj hwrite
    rw [← UserRequest.setStatus_columns hset]
    show _ = { db with requests := db.requests.set current.id current }
    rw [(UserRequest.setStatus_ok hset).2.2]

theorem insertArtifacts_ok {artifacts : List TaskArtifact}
    (h : (artifacts.map Write.insertArtifact).foldlM Write.apply db = .ok db') :
    db' = { db with artifacts := db.artifacts ++ artifacts } ∧
      ∀ artifact ∈ artifacts, ∀ other ∈ db.artifacts, other.key ≠ artifact.key := by
  induction artifacts generalizing db with
  | nil =>
    obtain rfl := Except.ok.inj h
    simp
  | cons artifact artifacts ih =>
    obtain ⟨middle, hwrite, hwrites⟩ := foldlM_cons_ok h
    simp only [Write.apply] at hwrite
    split at hwrite
    · cases hwrite
    · rename_i hunique
      obtain rfl := Except.ok.inj hwrite
      obtain ⟨rfl, hrest⟩ := ih hwrites
      refine ⟨by simp, ?_⟩
      rw [List.forall_mem_cons]
      refine ⟨fun other hother heq => hunique ⟨other, hother, heq⟩, ?_⟩
      intro artifact' hartifact' other hother
      exact hrest artifact' hartifact' other (List.mem_append_left _ hother)

theorem updateExecution_ok {stored loaded current : WorkflowExecution}
    (hrow : db.executions.get? current.id = some stored)
    (h : (Write.updateExecution loaded current).apply db = .ok db') :
    db' = { db with
      executions := db.executions.set current.id (mergeExecution stored loaded current) } := by
  simp only [Write.apply, hrow] at h
  split at h
  · exact (Except.ok.inj h).symm
  · cases h

theorem insertExecution_ok {execution : WorkflowExecution}
    (h : (Write.insertExecution execution).apply db = .ok db') :
    db.executions.get? execution.id = none ∧ db.Unstarted execution.snapshot.runId ∧
      db' = { db with executions := db.executions.set execution.id execution } := by
  simp only [Write.apply] at h
  split at h
  · rename_i hnew hnone
    exact ⟨hnew, executionOf_eq_none.mp hnone, (Except.ok.inj h).symm⟩
  · cases h

/-- The rows after the artifacts, the budgets and the execution are written. -/
theorem updates_of_operation {stored loaded after : WorkflowExecution}
    {artifacts : List TaskArtifact} {budget : List Write}
    (hbudget : ∀ write ∈ budget, isBudgetWrite write = true)
    (hrow : db.executions.get? after.id = some stored)
    (h : (artifacts.map Write.insertArtifact ++ (budget ++ [Write.updateExecution loaded after])).foldlM
      Write.apply db = .ok db') :
    Updates db db' (db.executions.set after.id (mergeExecution stored loaded after)) none none
        artifacts [] ∧
      ∀ artifact ∈ artifacts, ∀ other ∈ db.artifacts, other.key ≠ artifact.key := by
  obtain ⟨db₁, hartifacts, h⟩ := foldlM_append_ok h
  obtain ⟨db₂, hbudgets, h⟩ := foldlM_append_ok h
  obtain ⟨db₃, hexecution, hnil⟩ := foldlM_cons_ok h
  obtain rfl := Except.ok.inj hnil
  obtain ⟨rfl, hunique⟩ := insertArtifacts_ok hartifacts
  have hsame := foldlM_budget hbudget hbudgets
  rw [← hsame.executions] at hrow
  obtain rfl := updateExecution_ok hrow hexecution
  refine ⟨⟨?_, hsame.runs, hsame.requests, hsame.artifacts, ?_⟩, hunique⟩
  · show db₂.executions.set _ _ = _
    rw [hsame.executions]
  · rw [List.append_nil]
    exact hsame.events

/-- The rows after the run and the request are written as well. -/
theorem Updates.synchronized {middle db'' : Database} {executions : Dict UUID WorkflowExecution}
    {artifacts : List TaskArtifact} {events : List DomainEvent} {run : Run} {request : UserRequest}
    {run' : Option Run} {request' : Option UserRequest}
    (hmiddle : Updates db middle executions none none artifacts [])
    (hrow : db.requests.get? request.id = some request)
    (hchanged : ∀ changed, request' = some changed →
      ∃ status changedAt, request.setStatus status changedAt = .ok changed)
    (h : (runWrites run run' ++ requestWrites request request').foldlM Write.apply middle =
      .ok db'') (hdb' : db' = { db'' with events := db''.events ++ events }) :
    Updates db db' executions run' request' artifacts events := by
  obtain ⟨db₁, hrun, hrequest⟩ := foldlM_append_ok h
  obtain ⟨rfl, -⟩ := runWrites_ok hrun
  have hrow' : { middle with runs := setRun middle.runs run' }.requests.get? request.id =
      some request := hmiddle.requests ▸ hrow
  obtain rfl := requestWrites_ok hrow' hchanged hrequest
  subst hdb'
  refine ⟨hmiddle.executions, ?_, ?_, hmiddle.artifacts, ?_⟩
  · show setRun middle.runs run' = _
    rw [hmiddle.runs]
    rfl
  · show setRequest middle.requests request' = _
    rw [hmiddle.requests]
    rfl
  · show middle.events ++ events = _
    rw [hmiddle.events, List.append_nil]

end

end JbOrchestrator.Application
