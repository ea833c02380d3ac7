import JbOrchestrator.Application.Sessions

/-!
# Verification — every call commits as `Commits` says or raises as `Refuses` says

One lemma for each part that the services share (loading an execution, releasing the reservations,
synchronizing the lifecycle, locking a candidate), and one for each service, under any discipline.
-/

open Lib

namespace JbOrchestrator.Application

open Domain Workflows Infrastructure Infrastructure.Database

/-! ## 1. Loaded executions -/

/-- The session has locked and loaded the row of an execution, and no run or request yet. -/
structure Opened (held : Set RowLock) (unitOfWork : UnitOfWork) (world : World)
    (stored loaded : WorkflowExecution) : Prop where
  row : world.database.executions.get? stored.id = some stored
  held : .execution stored.id ∈ held
  record : unitOfWork.executions.get? stored.id = some (.ofExecution loaded)
  nodes : unitOfWork.nodes.get? stored.id = some loaded.nodes
  overlaid : Statement.overlay stored.nodes loaded.nodes = loaded.nodes
  runs : unitOfWork.runs = .empty
  requests : unitOfWork.requests = .empty

theorem overlay_empty (stored : Dict NodeKey NodeExecution) :
    Statement.overlay stored .empty = stored :=
  Dict.mapEntries_of_eq _ _ fun _ _ _ => rfl

theorem overlay_self {stored : Dict NodeKey NodeExecution} (hkeys : stored.keys.Nodup) :
    Statement.overlay stored stored = stored := by
  refine Dict.mapEntries_of_eq _ _ fun key node hentry => ?_
  rw [Dict.get?_of_mem_entries hkeys hentry]
  rfl

theorem overlay_overlay {stored : Dict NodeKey NodeExecution} (hkeys : stored.keys.Nodup)
    (loaded : Dict NodeKey NodeExecution) :
    Statement.overlay stored (Statement.overlay stored loaded) =
      Statement.overlay stored loaded := by
  refine Dict.mapEntries_congr _ fun key node hentry => ?_
  simp only [Statement.overlay, Dict.get?_mapEntries, Dict.get?_of_mem_entries hkeys hentry,
    Option.map_some, Option.getD_some]

section

variable {isolation : Isolation} {D : Discipline isolation} {settings : Settings} {call : Call}
  {held held' : Set RowLock} {unitOfWork after : UnitOfWork} {world world' : World}
  {stored loaded : WorkflowExecution}

theorem World.Consistent.rely (hworld : world.Consistent) (h : D.rely held world world') :
    world'.Consistent :=
  (D.rows h).consistent hworld

/-- What is loaded stays loaded. -/
theorem Opened.rely (h : Opened held unitOfWork world stored loaded) (hheld : held ⊆ held')
    (hrely : D.rely held world world') (hexecutions : after.executions = unitOfWork.executions)
    (hnodes : after.nodes = unitOfWork.nodes) (hruns : after.runs = unitOfWork.runs)
    (hrequests : after.requests = unitOfWork.requests) : Opened held' after world' stored loaded where
  row := (D.rows hrely).executions _ _ h.held h.row
  held := hheld h.held
  record := hexecutions ▸ h.record
  nodes := hnodes ▸ h.nodes
  overlaid := h.overlaid
  runs := hruns.trans h.runs
  requests := hrequests.trans h.requests

end

section

variable {isolation : Isolation} {D : Discipline isolation} {settings : Settings} {call : Call}
  {E : Set RowLock → UnitOfWork → ServiceError → World → Prop} {world : World}
  (hworld : world.Consistent)
  (hE : ∀ held unitOfWork error world, error.isTransition = false → E held unitOfWork error world)
include hworld

/-- The node rows of an execution whose record is the committed one. -/
theorem wp_toExecution {held : Set RowLock} {unitOfWork : UnitOfWork} {stored : WorkflowExecution}
    {P : Set RowLock → UnitOfWork → Option WorkflowExecution → World → Prop}
    (hrow : world.database.executions.get? stored.id = some stored)
    (hheld : .execution stored.id ∈ held)
    (hrecord : unitOfWork.executions.get? stored.id = some (.ofExecution stored))
    (hruns : unitOfWork.runs = .empty) (hrequests : unitOfWork.requests = .empty)
    (hP : ∀ unitOfWork' world' loaded, world'.Consistent →
      loaded = { stored with
        nodes := Statement.overlay stored.nodes ((unitOfWork.nodes.get? stored.id).getD .empty) } →
      Opened held unitOfWork' world' stored loaded → unitOfWork'.writes = unitOfWork.writes →
      unitOfWork'.events = unitOfWork.events → P held unitOfWork' (some loaded) world') :
    D.wp settings call E P (toExecution (some (.ofExecution stored))) held unitOfWork world := by
  refine Discipline.wp_bind (Discipline.wp_unlocked (fun _ _ => rfl) fun world' hrely taken => ?_)
  have hrow' := (D.rows hrely).executions _ _ hheld hrow
  have hkeys := (hworld.stored _ _ hrow).keys
  refine Discipline.wp_pure ?_
  simp only [Statement.answer, WorkflowExecutionRecord.ofExecution_id, hrow', Option.map_some,
    Option.getD_some]
  refine hP _ world' _ (hworld.rely hrely) rfl ?_ rfl rfl
  exact ⟨hrow', hheld, hrecord, Dict.get?_set_self _ _ _, overlay_overlay hkeys _, hruns, hrequests⟩

omit hworld in
/-- Looking for the execution of a run without locking it. -/
theorem wp_executionByRun {β : Type} {runId : UUID} {held : Set RowLock} {unitOfWork : UnitOfWork}
    {f : Option WorkflowExecution → Transaction β}
    {P : Set RowLock → UnitOfWork → β → World → Prop}
    (hnone : ∀ world', D.rely held world world' → world'.database.Unstarted runId →
      D.wp settings call E P (f none) held unitOfWork world')
    (hsome : ∀ unitOfWork' world' execution,
      D.wp settings call E P (f (some execution)) held unitOfWork' world') :
    D.wp settings call E P (perform (.executionByRun runId false) >>= fun record =>
      toExecution record >>= f) held unitOfWork world := by
  refine Discipline.wp_bind (Discipline.wp_unlocked (fun _ _ => rfl) fun world' hrely taken => ?_)
  cases hrow : world'.database.executionOf runId with
  | none =>
    simp only [Statement.answer, hrow]
    exact Discipline.wp_bind (Discipline.wp_pure
      (hnone world' hrely (executionOf_eq_none.mp hrow)))
  | some stored =>
    simp only [Statement.answer, hrow, Statement.load]
    split <;> exact Discipline.wp_bind (Discipline.wp_bind (Discipline.wp_unlocked (fun _ _ => rfl)
      fun world'' _ _ => Discipline.wp_pure (hsome _ world'' _)))

/-- Looking for the execution of a run and locking it. -/
theorem wp_executionByRun_forUpdate {β : Type} {runId : UUID}
    {f : Option WorkflowExecution → Transaction β}
    {P : Set RowLock → UnitOfWork → β → World → Prop}
    (hnone : ∀ world', world'.Consistent → world'.database.Unstarted runId →
      D.wp settings call E P (f none) ∅ {} world')
    (hsome : ∀ held unitOfWork world' stored, world'.Consistent → stored.snapshot.runId = runId →
      Opened held unitOfWork world' stored stored → unitOfWork.writes = [] →
      unitOfWork.events = [] → D.wp settings call E P (f (some stored)) held unitOfWork world') :
    D.wp settings call E P (perform (.executionByRun runId true) >>= fun record =>
      toExecution record >>= f) ∅ {} world := by
  refine Discipline.wp_bind (Discipline.wp_perform fun world' hrely _ taken => ?_)
  have hworld' := hworld.rely hrely
  cases hrow : world'.database.executionOf runId with
  | none =>
    simp only [Statement.answer, Statement.locks, hrow, List.not_mem_nil, Set.ofPred_false,
      Set.union_empty]
    exact Discipline.wp_bind (Discipline.wp_pure
      (hnone world' hworld' (executionOf_eq_none.mp hrow)))
  | some stored =>
    obtain ⟨hrun, hstored⟩ := Database.Consistent.executionOf hworld' hrow
    simp only [Statement.answer, hrow, Statement.load, Dict.get?_empty]
    refine Discipline.wp_bind (wp_toExecution hworld' hstored ?_ (Dict.get?_set_self _ _ _) rfl rfl
      ?_)
    · simp [Statement.locks, hrow]
    · intro unitOfWork world'' loaded hworld'' hloaded hopened hwrites hevents
      obtain rfl : loaded = stored := by rw [hloaded, Dict.get?_empty]; simp [overlay_empty]
      exact hsome _ _ _ _ hworld'' hrun hopened hwrites hevents

include hE

theorem wp_getExecution {executionId : UUID}
    {P : Set RowLock → UnitOfWork → WorkflowExecution → World → Prop}
    (hP : ∀ held unitOfWork world' stored, world'.Consistent → stored.id = executionId →
      Opened held unitOfWork world' stored stored → unitOfWork.writes = [] →
      unitOfWork.events = [] → P held unitOfWork stored world') :
    D.wp settings call E P (getExecution executionId) ∅ {} world := by
  unfold getExecution
  refine Discipline.wp_bind (Discipline.wp_perform fun world' hrely _ taken => ?_)
  have hworld' := hworld.rely hrely
  cases hrow : world'.database.executions.get? executionId with
  | none =>
    simp only [Statement.answer, Statement.load, hrow, Option.map_none, Dict.get?_empty]
    refine Discipline.wp_bind (Discipline.wp_pure ?_)
    exact Discipline.wp_ofOption (fun _ hnone => by cases hnone) fun _ => hE _ _ _ _ rfl
  | some stored =>
    obtain rfl := hworld'.executionId _ _ hrow
    simp only [Statement.answer, Statement.load, hrow, Option.map_some, Dict.get?_empty]
    refine Discipline.wp_bind (wp_toExecution hworld' hrow ?_ (Dict.get?_set_self _ _ _) rfl rfl ?_)
    · simp [Statement.locks, hrow]
    · intro unitOfWork world'' loaded hworld'' hloaded hopened hwrites hevents
      obtain rfl : loaded = stored := by rw [hloaded, Dict.get?_empty]; simp [overlay_empty]
      refine Discipline.wp_ofOption ?_ fun hnone => by cases hnone
      rintro execution ⟨⟩
      exact hP _ _ _ _ hworld'' rfl hopened hwrites hevents

end

/-! ## 2. Budgets -/

/-- The session has only written budget rows in between. -/
structure Budgeted (before after : UnitOfWork) : Prop where
  executions : after.executions = before.executions
  nodes : after.nodes = before.nodes
  runs : after.runs = before.runs
  requests : after.requests = before.requests
  writes : ∃ writes, after.writes = before.writes ++ writes ∧
    ∀ write ∈ writes, isBudgetWrite write = true
  events : ∃ events, after.events = before.events ++ events ∧
    ∀ event ∈ events, DomainEvent.isBudget event = true

theorem Budgeted.refl (unitOfWork : UnitOfWork) : Budgeted unitOfWork unitOfWork :=
  ⟨rfl, rfl, rfl, rfl, ⟨[], by simp⟩, ⟨[], by simp⟩⟩

theorem Budgeted.trans {first second third : UnitOfWork} (h : Budgeted first second)
    (h' : Budgeted second third) : Budgeted first third where
  executions := h'.executions.trans h.executions
  nodes := h'.nodes.trans h.nodes
  runs := h'.runs.trans h.runs
  requests := h'.requests.trans h.requests
  writes := by
    obtain ⟨writes, hwrites, hbudget⟩ := h.writes
    obtain ⟨writes', hwrites', hbudget'⟩ := h'.writes
    refine ⟨writes ++ writes', by rw [hwrites', hwrites, List.append_assoc], ?_⟩
    exact List.forall_mem_append.mpr ⟨hbudget, hbudget'⟩
  events := by
    obtain ⟨events, hevents, hbudget⟩ := h.events
    obtain ⟨events', hevents', hbudget'⟩ := h'.events
    refine ⟨events ++ events', by rw [hevents', hevents, List.append_assoc], ?_⟩
    exact List.forall_mem_append.mpr ⟨hbudget, hbudget'⟩

section

variable {isolation : Isolation} {D : Discipline isolation} {settings : Settings} {call : Call}
  {E : Set RowLock → UnitOfWork → ServiceError → World → Prop}
  (hE : ∀ held unitOfWork error world, error.isTransition = false → E held unitOfWork error world)

theorem BudgetAccount.release_error {account : BudgetAccount} {amount : Decimal}
    {changedAt : Instant} {error : DomainError}
    (h : account.release amount changedAt = .error error) : error.isTransition = false := by
  unfold BudgetAccount.release at h
  split at h
  · obtain rfl := Except.error.inj h
    rfl
  · cases h

include hE

theorem wp_releaseAll {runId : UUID} {reason : String} {changedAt : Instant} {projectId : UUID}
    {reservations : List BudgetReservation} (account : BudgetAccount)
    (hreserved : ∀ reservation ∈ reservations, reservation.status = .reserved)
    {held : Set RowLock} {unitOfWork : UnitOfWork} {world : World}
    {P : Set RowLock → UnitOfWork → BudgetAccount → World → Prop}
    (hP : ∀ unitOfWork' account world', D.rely held world world' →
      Budgeted unitOfWork unitOfWork' → P held unitOfWork' account world') :
    D.wp settings call E P (releaseAll runId reason changedAt projectId account reservations) held
      unitOfWork world := by
  induction reservations generalizing account unitOfWork world with
  | nil => exact hP _ _ _ (D.refl _ _) (Budgeted.refl _)
  | cons reservation reservations ih =>
    rw [List.forall_mem_cons] at hreserved
    unfold releaseAll
    split
    · exact Discipline.wp_raise (hE _ _ _ _ rfl)
    refine Discipline.wp_bind (Discipline.wp_throwDomain (fun account' _ => ?_)
      fun error herror => hE _ _ _ _ (BudgetAccount.release_error herror))
    refine Discipline.wp_bind (Discipline.wp_throwDomain (fun released _ => ?_) ?_)
    · refine Discipline.wp_bind
        (Discipline.wp_unlocked (fun _ _ => rfl) fun world₁ hrely₁ _ => ?_)
      refine Discipline.wp_bind
        (Discipline.wp_unlocked (fun _ _ => rfl) fun world₂ hrely₂ _ => ?_)
      refine ih account' hreserved.2 fun unitOfWork' account'' world' hrely hbudgeted => ?_
      refine hP _ _ _ (D.trans _ _ _ _ hrely₁ (D.trans _ _ _ _ hrely₂ hrely))
        (Budgeted.trans ?_ hbudgeted)
      exact ⟨rfl, rfl, rfl, rfl, ⟨[.updateReservation released], rfl, by simp [isBudgetWrite]⟩,
        ⟨[.budgetReleased reservation.id runId reason], rfl, by simp [DomainEvent.isBudget]⟩⟩
    · intro error herror
      simp only [BudgetReservation.release, hreserved.1, if_true] at herror
      cases herror

/-- Releasing the reservations of a run changes budget rows only. -/
theorem wp_releaseRunReservations {runId : UUID} {reason : String} {changedAt : Instant}
    {held : Set RowLock} {unitOfWork : UnitOfWork} {world : World}
    {P : Set RowLock → UnitOfWork → Unit → World → Prop}
    (hP : ∀ held' unitOfWork' world', held ⊆ held' → D.rely held world world' →
      Budgeted unitOfWork unitOfWork' → P held' unitOfWork' () world') :
    D.wp settings call E P (releaseRunReservations runId reason changedAt) held unitOfWork world := by
  unfold releaseRunReservations
  refine Discipline.wp_bind (Discipline.wp_unlocked (fun _ _ => rfl) fun world₁ hrely₁ _ => ?_)
  split
  · exact hP _ _ _ Set.Subset.rfl hrely₁ (Budgeted.refl _)
  refine Discipline.wp_bind
    (Discipline.wp_locking fun held₂ world₂ hheld₂ hrely₂ taken₂ => ?_)
  refine Discipline.wp_bind (Discipline.wp_ofOption (fun account _ => ?_) fun _ => hE _ _ _ _ rfl)
  refine Discipline.wp_bind
    (Discipline.wp_locking fun held₃ world₃ hheld₃ hrely₃ taken₃ => ?_)
  refine Discipline.wp_bind (wp_releaseAll hE account ?_ ?_)
  · intro reservation hreservation
    simp only [Statement.answer, Database.reservedByRun, List.mem_filter, decide_eq_true_eq]
      at hreservation
    exact hreservation.2.2
  · intro unitOfWork' account' world₄ hrely₄ hbudgeted
    refine Discipline.wp_unlocked (fun _ _ => rfl) fun world₅ hrely₅ _ => ?_
    have hrely := Discipline.chain (hheld₂.trans hheld₃) (Discipline.chain hheld₂
      (D.trans _ _ _ _ hrely₁ hrely₂) hrely₃) (D.trans _ _ _ _ hrely₄ hrely₅)
    refine hP _ _ _ (hheld₂.trans hheld₃) hrely (Budgeted.trans ?_ (hbudgeted.trans ?_))
    · exact ⟨rfl, rfl, rfl, rfl, ⟨[], (List.append_nil _).symm, by simp⟩,
        ⟨[], (List.append_nil _).symm, by simp⟩⟩
    · exact ⟨rfl, rfl, rfl, rfl, ⟨[_], rfl, by simp [isBudgetWrite]⟩,
        ⟨[], (List.append_nil _).symm, by simp⟩⟩

end

/-! ## 3. Lifecycle projection -/

/-- The loaded runs and requests have their ids, and rows. -/
structure Known (unitOfWork : UnitOfWork) (db : Database) : Prop where
  run : ∀ id run, unitOfWork.runs.get? id = some run → run.id = id ∧ (db.runs.get? id).isSome
  request : ∀ id request, unitOfWork.requests.get? id = some request →
    request.id = id ∧ (db.requests.get? id).isSome

theorem Known.rely {unitOfWork : UnitOfWork} {held : Set RowLock} {db db' : Database}
    (h : Known unitOfWork db) (hrely : Rely held db db') : Known unitOfWork db' where
  run id run hrun := by
    obtain ⟨hid, hsome⟩ := h.run id run hrun
    obtain ⟨stored, hstored⟩ := Option.isSome_iff_exists.mp hsome
    obtain ⟨stored', hstored', -⟩ := hrely.grows id stored hstored
    exact ⟨hid, by rw [hstored']; rfl⟩
  request id request hrequest :=
    ⟨(h.request id request hrequest).1, hrely.kept id (h.request id request hrequest).2⟩

/-- The run and the request that a session has synchronized: those it had loaded before, or the
committed ones. -/
structure Projected (held : Set RowLock) (before after : UnitOfWork) (db : Database)
    (execution : WorkflowExecution) (run : Run) (request : UserRequest) (run' : Option Run)
    (request' : Option UserRequest) (events : List DomainEvent) : Prop where
  runRow : before.runs.get? execution.snapshot.runId = some run ∨
    before.runs.get? execution.snapshot.runId = none ∧
      db.runs.get? execution.snapshot.runId = some run
  runHeld : .run execution.snapshot.runId ∈ held
  requestRow : before.requests.get? run.requestId = some request ∨
    before.requests.get? run.requestId = none ∧ db.requests.get? run.requestId = some request
  requestHeld : .request run.requestId ∈ held
  follows : ∃ runEvents requestEvents, events = runEvents ++ requestEvents ∧
    RunFollows execution run run' runEvents ∧
    RequestFollows execution run request request' requestEvents
  writes : after.writes = before.writes ++ (runWrites run run' ++ requestWrites request request')
  events : after.events = before.events ++ events

theorem followExecution_error {execution : WorkflowExecution} {run : Run} {error : DomainError}
    (h : followExecution execution run = .error error) (htransition : error.isTransition = true) :
    runStatusByWorkflow execution.status ∉ allowedRunTransitions run.status := by
  unfold followExecution at h
  split at h
  · rename_i hfailed
    rw [hfailed]
    exact Run.fail_error h htransition
  · exact Run.transitionTo_error h

section

variable {isolation : Isolation} {D : Discipline isolation} {settings : Settings} {call : Call}
  {E : Set RowLock → UnitOfWork → ServiceError → World → Prop} {held : Set RowLock}
  {unitOfWork : UnitOfWork} {world : World} {execution : WorkflowExecution} {run : Run}
  {request : UserRequest}

theorem wp_projectRun {P : Set RowLock → UnitOfWork → Unit → World → Prop}
    (hrow : unitOfWork.runs.get? run.id = some run)
    (hP : ∀ unitOfWork' world' run' events, D.rely held world world' →
      RunFollows execution run run' events → unitOfWork'.requests = unitOfWork.requests →
      unitOfWork'.writes = unitOfWork.writes ++ runWrites run run' →
      unitOfWork'.events = unitOfWork.events ++ events → P held unitOfWork' () world')
    (hE : ∀ error, run.status ≠ runStatusByWorkflow execution.status →
      followExecution execution run = .error error → E held unitOfWork (.domain error) world) :
    D.wp settings call E P (projectRun execution run) held unitOfWork world := by
  unfold projectRun
  split
  · rename_i hsame
    exact hP _ _ _ _ (D.refl _ _) (.same hsame) rfl (List.append_nil _).symm
      (List.append_nil _).symm
  · rename_i hne
    refine Discipline.wp_bind (Discipline.wp_throwDomain (fun changed hchanged => ?_)
      fun error herror => hE error hne herror)
    have hid := (followExecution_ok hchanged).2.1
    refine Discipline.wp_bind (Discipline.wp_unlocked (fun _ _ => rfl) fun world₁ hrely₁ _ => ?_)
    refine Discipline.wp_unlocked (fun _ _ => rfl) fun world₂ hrely₂ _ => ?_
    refine hP _ _ (some changed) _ (D.trans _ _ _ _ hrely₁ hrely₂) (.changed hne hchanged) ?_ ?_ ?_
      <;> simp [Statement.answer, Statement.load, hid, hrow, runWrites]

theorem wp_projectRequest {P : Set RowLock → UnitOfWork → Unit → World → Prop}
    (hrow : unitOfWork.requests.get? request.id = some request)
    (hP : ∀ unitOfWork' world' request' events, D.rely held world world' →
      RequestFollows execution run request request' events →
      unitOfWork'.writes = unitOfWork.writes ++ requestWrites request request' →
      unitOfWork'.events = unitOfWork.events ++ events → P held unitOfWork' () world') :
    D.wp settings call E P (projectRequest execution run request) held unitOfWork world := by
  have hsave : ∀ {changed : UserRequest} {event : DomainEvent}, changed.id = request.id →
      RequestFollows execution run request (some changed) [event] →
      D.wp settings call E P (perform (.saveRequest changed) >>= fun _ => perform (.append event))
        held unitOfWork world := by
    intro changed event hid hfollows
    refine Discipline.wp_bind (Discipline.wp_unlocked (fun _ _ => rfl) fun world₁ hrely₁ _ => ?_)
    refine Discipline.wp_unlocked (fun _ _ => rfl) fun world₂ hrely₂ _ => ?_
    refine hP _ _ _ _ (D.trans _ _ _ _ hrely₁ hrely₂) hfollows ?_ ?_ <;>
      simp [Statement.answer, Statement.load, hid, hrow, requestWrites]
  unfold projectRequest
  split
  · rename_i hcompleted
    refine Discipline.wp_bind (Discipline.wp_throwDomain (fun changed hchanged => ?_) ?_)
    · exact hsave (UserRequest.setStatus_ok hchanged).2.2
        (.completed hcompleted.1 hcompleted.2 hchanged)
    · intro error herror
      refine absurd ?_ (UserRequest.setStatus_error herror)
      simp [hcompleted.2, allowedRequestTransitions]
  · rename_i hcompleted
    split
    · rename_i hcancelled
      refine Discipline.wp_bind (Discipline.wp_throwDomain (fun changed hchanged => ?_) ?_)
      · exact hsave (UserRequest.setStatus_ok hchanged).2.2
          (.cancelled hcancelled.1 hcancelled.2 hchanged)
      · intro error herror
        refine absurd ?_ (UserRequest.setStatus_error herror)
        rcases hcancelled.2 with h | h <;> simp [h, allowedRequestTransitions]
    · rename_i hcancelled
      exact hP _ _ _ _ (D.refl _ _) (.same hcompleted hcancelled) (List.append_nil _).symm
        (List.append_nil _).symm

/-- The row of a run, locked; a run that was loaded before keeps its attributes. -/
theorem wp_lockRun {β : Type} {runId : UUID} {f : Run → Transaction β}
    {P : Set RowLock → UnitOfWork → β → World → Prop} (hworld : world.Consistent)
    (hknown : Known unitOfWork world.database)
    (hE : ∀ held unitOfWork error world, error.isTransition = false → E held unitOfWork error world)
    (hP : ∀ held' world' runs run, held ⊆ held' → D.rely held world world' →
      D.guard call world' unitOfWork (.run runId true) → world'.Consistent →
      Known { unitOfWork with runs := runs } world'.database → .run runId ∈ held' →
      run.id = runId → runs.get? runId = some run →
      (unitOfWork.runs.get? runId = some run ∨ unitOfWork.runs.get? runId = none ∧
        world'.database.runs.get? runId = some run) →
      D.wp settings call E P (f run) held' { unitOfWork with runs := runs } world') :
    D.wp settings call E P (perform (.run runId true) >>= fun row =>
      Program.ofOption (notFound "run" runId) row >>= f) held unitOfWork world := by
  refine Discipline.wp_bind (Discipline.wp_perform fun world' hrely hguard taken => ?_)
  have hworld' := hworld.rely hrely
  have hknown' := hknown.rely (D.rows hrely)
  cases hloaded : unitOfWork.runs.get? runId with
  | some run =>
    simp only [Statement.answer, Statement.load, hloaded]
    refine Discipline.wp_bind (Discipline.wp_ofOption ?_ fun hnone => by cases hnone)
    rintro value ⟨⟩
    obtain ⟨hid, hsome⟩ := hknown'.run _ _ hloaded
    refine hP _ world' unitOfWork.runs run Set.subset_union_left hrely hguard hworld' hknown' ?_ hid
      hloaded (.inl hloaded)
    simp [Statement.locks, hsome]
  | none =>
    cases hrow : world'.database.runs.get? runId with
    | none =>
      simp only [Statement.answer, Statement.load, hloaded, hrow]
      exact Discipline.wp_bind (Discipline.wp_ofOption (fun _ hsome => by cases hsome)
        fun _ => hE _ _ _ _ rfl)
    | some run =>
      simp only [Statement.answer, Statement.load, hloaded, hrow]
      refine Discipline.wp_bind (Discipline.wp_ofOption ?_ fun hnone => by cases hnone)
      rintro value ⟨⟩
      have hid := Database.Consistent.runId hworld' _ _ hrow
      refine hP _ world' _ run Set.subset_union_left hrely hguard hworld' ⟨?_, hknown'.request⟩ ?_
        hid (Dict.get?_set_self _ _ _) (.inr ⟨hloaded, hrow⟩)
      · intro id other hother
        rw [Dict.get?_set] at hother
        split at hother
        · rename_i heq
          obtain rfl := Option.some.inj hother
          exact ⟨hid.trans heq.symm, by rw [heq, hrow]; rfl⟩
        · exact hknown'.run id other hother
      · simp [Statement.locks, hrow]

/-- The row of a request, locked. -/
theorem wp_lockRequest {β : Type} {requestId : UUID} {f : UserRequest → Transaction β}
    {P : Set RowLock → UnitOfWork → β → World → Prop} (hworld : world.Consistent)
    (hknown : Known unitOfWork world.database)
    (hE : ∀ held unitOfWork error world, error.isTransition = false → E held unitOfWork error world)
    (hP : ∀ held' world' requests request, held ⊆ held' → D.rely held world world' →
      world'.Consistent → .request requestId ∈ held' → request.id = requestId →
      requests.get? requestId = some request →
      (unitOfWork.requests.get? requestId = some request ∨
        unitOfWork.requests.get? requestId = none ∧
          world'.database.requests.get? requestId = some request) →
      D.wp settings call E P (f request) held' { unitOfWork with requests := requests } world') :
    D.wp settings call E P (perform (.request requestId true) >>= fun row =>
      Program.ofOption (notFound "request" requestId) row >>= f) held unitOfWork world := by
  refine Discipline.wp_bind (Discipline.wp_perform fun world' hrely _ taken => ?_)
  have hworld' := hworld.rely hrely
  have hknown' := hknown.rely (D.rows hrely)
  cases hloaded : unitOfWork.requests.get? requestId with
  | some request =>
    simp only [Statement.answer, Statement.load, hloaded]
    refine Discipline.wp_bind (Discipline.wp_ofOption ?_ fun hnone => by cases hnone)
    rintro value ⟨⟩
    obtain ⟨hid, hsome⟩ := hknown'.request _ _ hloaded
    refine hP _ world' unitOfWork.requests request Set.subset_union_left hrely hworld' ?_ hid
      hloaded (.inl hloaded)
    simp [Statement.locks, hsome]
  | none =>
    cases hrow : world'.database.requests.get? requestId with
    | none =>
      simp only [Statement.answer, Statement.load, hloaded, hrow]
      exact Discipline.wp_bind (Discipline.wp_ofOption (fun _ hsome => by cases hsome)
        fun _ => hE _ _ _ _ rfl)
    | some request =>
      simp only [Statement.answer, Statement.load, hloaded, hrow]
      refine Discipline.wp_bind (Discipline.wp_ofOption ?_ fun hnone => by cases hnone)
      rintro value ⟨⟩
      refine hP _ world' _ request Set.subset_union_left hrely hworld' ?_
        (Database.Consistent.requestId hworld' _ _ hrow) (Dict.get?_set_self _ _ _)
        (.inr ⟨hloaded, hrow⟩)
      simp [Statement.locks, hrow]

theorem wp_synchronize {P : Set RowLock → UnitOfWork → Unit → World → Prop}
    (hworld : world.Consistent) (hknown : Known unitOfWork world.database)
    (hcontext : execution.snapshot.requestContext ≠ none)
    (hP : ∀ held' unitOfWork' world' run request run' request' events, held ⊆ held' →
      D.rely held world world' →
      Projected held' unitOfWork unitOfWork' world'.database execution run request run' request'
        events → P held' unitOfWork' () world')
    (hE : ∀ held unitOfWork error world, error.isTransition = false → E held unitOfWork error world)
    (herror : ∀ held' unitOfWork' world' run error, held ⊆ held' → D.rely held world world' →
      (unitOfWork.runs.get? execution.snapshot.runId = some run ∨
        unitOfWork.runs.get? execution.snapshot.runId = none ∧
          world'.database.runs.get? execution.snapshot.runId = some run) →
      .run execution.snapshot.runId ∈ held' →
      run.status ≠ runStatusByWorkflow execution.status →
      runStatusByWorkflow execution.status ∉ allowedRunTransitions run.status →
      E held' unitOfWork' (.domain error) world') :
    D.wp settings call E P (synchronizeExecutionLifecycle execution) held unitOfWork world := by
  unfold synchronizeExecutionLifecycle
  rw [if_neg hcontext]
  refine wp_lockRun hworld hknown hE ?_
  intro held₁ world₁ runs run hheld₁ hrely₁ _ hworld₁ hknown₁ hrunHeld hrunId hruns hrunRow
  refine wp_lockRequest hworld₁ hknown₁ hE ?_
  intro held₂ world₂ requests request hheld₂ hrely₂ hworld₂ hrequestHeld hrequestId hrequests
    hrequestRow
  have hrunRow' : ∀ {world'}, D.rely held₁ world₁ world' →
      (unitOfWork.runs.get? execution.snapshot.runId = some run ∨
        unitOfWork.runs.get? execution.snapshot.runId = none ∧
          world'.database.runs.get? execution.snapshot.runId = some run) :=
    fun hrely => hrunRow.imp id fun h => ⟨h.1, (D.rows hrely).runs _ _ hrunHeld h.2⟩
  refine Discipline.wp_bind (wp_projectRun (hrunId.symm ▸ hruns) ?_ ?_)
  · intro unitOfWork₃ world₃ run' runEvents hrely₃ hfollows hrequests₃ hwrites₃ hevents₃
    refine wp_projectRequest ?_ ?_
    · rw [hrequests₃, hrequestId]
      exact hrequests
    · intro unitOfWork₄ world₄ request' requestEvents hrely₄ hfollows' hwrites₄ hevents₄
      have hrely := D.trans _ _ _ _ hrely₃ hrely₄
      refine hP held₂ unitOfWork₄ world₄ run request run' request' (runEvents ++ requestEvents)
        (hheld₁.trans hheld₂)
        (Discipline.chain (hheld₁.trans hheld₂) (Discipline.chain hheld₁ hrely₁ hrely₂) hrely) ?_
      refine ⟨hrunRow' (Discipline.chain hheld₂ hrely₂ hrely), hheld₂ hrunHeld, ?_, hrequestHeld,
        ⟨runEvents, requestEvents, rfl, hfollows, hfollows'⟩, ?_, ?_⟩
      · exact hrequestRow.imp id fun h => ⟨h.1, (D.rows hrely).requests _ _ hrequestHeld h.2⟩
      · rw [hwrites₄, hwrites₃, List.append_assoc]
      · rw [hevents₄, hevents₃, List.append_assoc]
  · intro error hne hfollows
    cases htransition : error.isTransition with
    | false => exact hE _ _ _ _ htransition
    | true =>
      exact herror _ _ _ run error (hheld₁.trans hheld₂) (Discipline.chain hheld₁ hrely₁ hrely₂)
        (hrunRow' hrely₂) (hheld₂ hrunHeld) hne (followExecution_error hfollows htransition)

end

/-! ## 4. Storing an operation -/

/-- The session has saved the execution after an operation. -/
structure Saved (held : Set RowLock) (unitOfWork : UnitOfWork) (db : Database)
    (stored loaded after : WorkflowExecution) (artifacts : List TaskArtifact)
    (event : DomainEvent) : Prop where
  row : db.executions.get? stored.id = some stored
  held : .execution stored.id ∈ held
  runs : unitOfWork.runs = .empty
  requests : unitOfWork.requests = .empty
  writes : ∃ budget, (∀ write ∈ budget, isBudgetWrite write = true) ∧ unitOfWork.writes =
    artifacts.map Write.insertArtifact ++ (budget ++ [Write.updateExecution loaded after])
  events : ∃ budget, (∀ event ∈ budget, DomainEvent.isBudget event = true) ∧
    unitOfWork.events = budget ++ [event]

section

variable {isolation : Isolation} {D : Discipline isolation} {settings : Settings} {call : Call}
  {result : Result} {held held' : Set RowLock} {unitOfWork before : UnitOfWork} {world : World}
  {operation : Operation} {stored loaded after : WorkflowExecution} {calls : List ActivateCall}
  {artifacts : List TaskArtifact} {event : DomainEvent}

theorem Saved.rely {db db' : Database} (h : Saved held unitOfWork db stored loaded after artifacts event)
    (hheld : held ⊆ held') (hrely : Rely held db db') :
    Saved held' unitOfWork db' stored loaded after artifacts event where
  row := hrely.executions _ _ h.held h.row
  held := hheld h.held
  runs := h.runs
  requests := h.requests
  writes := h.writes
  events := h.events

theorem Saved.known {db : Database}
    (h : Saved held unitOfWork db stored loaded after artifacts event) : Known unitOfWork db where
  run id run hrun := by
    rw [h.runs] at hrun
    cases hrun
  request id request hrequest := by
    rw [h.requests] at hrequest
    cases hrequest

/-- A commit that meets no constraint raises nothing; one that does raises no transition error. -/
theorem finishes_of_flush
    (h : ∀ world' database, D.rely held world world' → world'.Consistent →
      unitOfWork.flush world'.database = .ok database →
      Commits isolation held world'.database database call result) :
    D.finishes settings call held unitOfWork result world := by
  intro world' hrely hworld'
  simp only [services]
  cases hflush : unitOfWork.flush world'.database with
  | error error =>
    intro htransition
    rw [flush_error hflush] at htransition
    cases htransition
  | ok database => exact ⟨rfl, h world' database hrely hworld' hflush⟩

/-- Only the pending writes and events matter for a commit. -/
theorem finishes_congr {unitOfWork' : UnitOfWork} {world' : World}
    (h : D.finishes settings call held unitOfWork result world) (hrely : D.rely held world world')
    (hwrites : unitOfWork'.writes = unitOfWork.writes)
    (hevents : unitOfWork'.events = unitOfWork.events) :
    D.finishes settings call held unitOfWork' result world' := by
  intro world'' hrely' hworld''
  have hcommit := h world'' (D.trans _ _ _ _ hrely hrely') hworld''
  simp only [services, UnitOfWork.flush] at hcommit ⊢
  rw [hwrites, hevents]
  exact hcommit

variable (hloads : Loads isolation stored operation loaded)
  (hstep : engine.step loaded operation = (⟨.ok (), calls⟩, after)) (hid : after.id = stored.id)
include hloads hstep hid

theorem finishes_saved (hsaved : Saved held unitOfWork world.database stored loaded after artifacts event)
    (hperforms : Performs loaded after call result operation false artifacts event) :
    D.finishes settings call held unitOfWork result world := by
  refine finishes_of_flush fun world' database hrely _ hflush => ?_
  have hsaved' := hsaved.rely Set.Subset.rfl (D.rows hrely)
  obtain ⟨db, hwrites, rfl⟩ := flush_ok hflush
  obtain ⟨budget, hbudget, hbefore⟩ := hsaved.writes
  obtain ⟨budgetEvents, hbudgetEvents, hevents⟩ := hsaved.events
  rw [hbefore] at hwrites
  obtain ⟨hupdates, hunique⟩ := updates_of_operation hbudget (hid ▸ hsaved'.row) hwrites
  refine .operated hsaved'.row hsaved'.held hloads hstep hperforms (.inr ⟨rfl, rfl, rfl, rfl⟩)
    hbudgetEvents hunique ?_
  rw [hid] at hupdates
  refine ⟨hupdates.executions, hupdates.runs, hupdates.requests, hupdates.artifacts, ?_⟩
  show db.events ++ unitOfWork.events = _
  rw [hupdates.events, hevents, List.append_nil]

theorem finishes_projected {run : Run} {request : UserRequest} {run' : Option Run}
    {request' : Option UserRequest} {events : List DomainEvent}
    (hsaved : Saved held before world.database stored loaded after artifacts event)
    (hprojected : Projected held before unitOfWork world.database after run request run' request' events)
    (hperforms : Performs loaded after call result operation true artifacts event) :
    D.finishes settings call held unitOfWork result world := by
  refine finishes_of_flush fun world' database hrely hworld' hflush => ?_
  have hsaved' := hsaved.rely Set.Subset.rfl (D.rows hrely)
  obtain ⟨db, hwrites, rfl⟩ := flush_ok hflush
  obtain ⟨budget, hbudget, hbefore⟩ := hsaved.writes
  obtain ⟨budgetEvents, hbudgetEvents, hevents⟩ := hsaved.events
  rw [hprojected.writes, hbefore] at hwrites
  obtain ⟨middle, hoperation, hsynchronized⟩ := foldlM_append_ok hwrites
  obtain ⟨hupdates, hunique⟩ := updates_of_operation hbudget (hid ▸ hsaved'.row) hoperation
  have hrun : world'.database.runs.get? after.snapshot.runId = some run := by
    rcases hprojected.runRow with h | ⟨-, h⟩
    · rw [hsaved.runs] at h
      cases h
    · exact (D.rows hrely).runs _ _ hprojected.runHeld h
  have hrequest : world'.database.requests.get? run.requestId = some request := by
    rcases hprojected.requestRow with h | ⟨-, h⟩
    · rw [hsaved.requests] at h
      cases h
    · exact (D.rows hrely).requests _ _ hprojected.requestHeld h
  obtain ⟨runEvents, requestEvents, rfl, hfollows, hfollows'⟩ := hprojected.follows
  have hrequestId := Database.Consistent.requestId hworld' _ _ hrequest
  have hsync := Synchronized.mk hrun hprojected.runHeld hrequest hprojected.requestHeld hfollows
    hfollows'
  refine .operated hsaved'.row hsaved'.held hloads hstep hperforms (.inl ⟨rfl, hsync⟩)
    hbudgetEvents hunique ?_
  rw [hid] at hupdates
  refine hupdates.synchronized (hrequestId.symm ▸ hrequest) hfollows'.columns hsynchronized ?_
  rw [hprojected.events, hevents]
  simp

end

section

variable {isolation : Isolation} {D : Discipline isolation} {settings : Settings} {call : Call}
  {held : Set RowLock} {unitOfWork : UnitOfWork} {world : World} {operation : Operation}
  {stored loaded after : WorkflowExecution} {calls : List ActivateCall}
  {artifacts : List TaskArtifact} {event : DomainEvent} {β : Type}
  {P : Set RowLock → UnitOfWork → β → World → Prop}

theorem fails_operation {run : Run} {error : ServiceError}
    (hloads : Loads isolation stored operation loaded)
    (hstep : engine.step loaded operation = (⟨.ok (), calls⟩, after))
    (hsnapshot : after.snapshot = stored.snapshot)
    (hrow : world.database.executions.get? stored.id = some stored)
    (hheld : .execution stored.id ∈ held)
    (hrun : world.database.runs.get? after.snapshot.runId = some run)
    (hrunHeld : .run after.snapshot.runId ∈ held)
    (hne : run.status ≠ runStatusByWorkflow after.status)
    (hnot : runStatusByWorkflow after.status ∉ allowedRunTransitions run.status) :
    D.fails call held unitOfWork error world := by
  intro world' hrely _ _
  refine .operation ((D.rows hrely).executions _ _ hheld hrow) hloads hstep ?_ hne hnot
  rw [← hsnapshot]
  exact (D.rows hrely).runs _ _ hrunHeld hrun

variable (artifacts) in
/-- Saving a loaded execution after an operation. -/
theorem wp_save {E : Set RowLock → UnitOfWork → ServiceError → World → Prop}
    {f : Unit → Transaction β} (hopened : Opened held unitOfWork world stored loaded)
    (hid : after.id = stored.id)
    (hwrites : ∃ budget, (∀ write ∈ budget, isBudgetWrite write = true) ∧
      unitOfWork.writes = artifacts.map Write.insertArtifact ++ budget)
    (hevents : ∀ event ∈ unitOfWork.events, DomainEvent.isBudget event = true)
    (hP : ∀ unitOfWork' world', D.rely held world world' →
      Saved held unitOfWork' world'.database stored loaded after artifacts event →
      D.wp settings call E P (f ()) held unitOfWork' world') :
    D.wp settings call E P (perform (.saveExecution after) >>= fun _ =>
      perform (.append event) >>= f) held unitOfWork world := by
  refine Discipline.wp_bind (Discipline.wp_unlocked (fun _ _ => rfl) fun world₁ hrely₁ _ => ?_)
  refine Discipline.wp_bind (Discipline.wp_unlocked (fun _ _ => rfl) fun world₂ hrely₂ _ => ?_)
  have hrely := D.trans _ _ _ _ hrely₁ hrely₂
  refine hP _ world₂ hrely ?_
  obtain ⟨budget, hbudget, hbefore⟩ := hwrites
  have hrow₁ := (D.rows hrely₁).executions _ _ hopened.held hopened.row
  refine ⟨(D.rows hrely).executions _ _ hopened.held hopened.row, hopened.held, ?_, ?_, ?_, ?_⟩ <;>
    simp only [Statement.answer, hid, hrow₁, hopened.nodes, hopened.record, Statement.load,
      Option.map_some, Option.getD_some, hopened.overlaid]
  · exact hopened.runs
  · exact hopened.requests
  · refine ⟨budget, hbudget, ?_⟩
    rw [hbefore, List.append_assoc]
    rfl
  · exact ⟨unitOfWork.events, hevents, rfl⟩

/-- Synchronizing the lifecycle of a saved execution. -/
theorem wp_synchronizeSaved {P : Set RowLock → UnitOfWork → Unit → World → Prop}
    (hworld : world.Consistent)
    (hsaved : Saved held unitOfWork world.database stored loaded after artifacts event)
    (hloads : Loads isolation stored operation loaded)
    (hstep : engine.step loaded operation = (⟨.ok (), calls⟩, after))
    (hsnapshot : after.snapshot = stored.snapshot)
    (hP : ∀ held' unitOfWork' world' run request run' request' events,
      Saved held' unitOfWork world'.database stored loaded after artifacts event →
      Projected held' unitOfWork unitOfWork' world'.database after run request run' request'
        events → P held' unitOfWork' () world') :
    D.wp settings call (D.fails call) P (synchronizeExecutionLifecycle after) held unitOfWork
      world := by
  have hcontext : after.snapshot.requestContext ≠ none :=
    hsnapshot ▸ (hworld.stored _ _ hsaved.row).context
  refine wp_synchronize hworld hsaved.known hcontext ?_
    (fun _ _ _ _ => Discipline.fails_of_not_transition) ?_
  · intro held' unitOfWork' world' run request run' request' events hheld hrely hprojected
    exact hP _ _ _ _ _ _ _ _ (hsaved.rely hheld (D.rows hrely)) hprojected
  · intro held' unitOfWork' world' run error hheld hrely hrun hrunHeld hne hnot
    have hsaved' := hsaved.rely hheld (D.rows hrely)
    rcases hrun with hrun | ⟨-, hrun⟩
    · rw [hsaved.runs] at hrun
      cases hrun
    · exact fails_operation hloads hstep hsnapshot hsaved'.row hsaved'.held hrun hrunHeld hne hnot

end

end JbOrchestrator.Application
