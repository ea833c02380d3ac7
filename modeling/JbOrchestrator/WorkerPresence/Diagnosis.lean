import JbOrchestrator.Lib.Results
import JbOrchestrator.Lib.SortBy
import JbOrchestrator.WorkerPresence.Alerts
import Mathlib.Data.Prod.Lex

/-!
# Diagnosis — which READY tasks are reported to lack a worker

The presence service keeps one row for every start of a worker process.  A diagnosis takes the latest
row of every worker for the worker as it is now, and reports a READY task if none of these is online and
can run it.
-/

open Lib

namespace JbOrchestrator.WorkerPresence

open Domain Workflows

/-! ## 1. Presence -/

/-- `tuple(sorted({value.strip() for value in capabilities if value.strip()}))`. -/
def normalizeCapabilities (capabilities : List String) : List String :=
  ((capabilities.map Text.strip).filter (· ≠ "")).dedup.insertionSort (· ≤ ·)

/-- A call of the presence service; the identifier and the instants that it draws are arguments. -/
inductive PresenceCall where
  | register (id : UUID) (workerId : String) (kind : WorkerKind) (hostname : String) (processId : ℤ)
      (capabilities : List String) (now : Instant)
  | heartbeat (instanceId : UUID) (now : Instant)
  | stop (instanceId : UUID) (now : Instant)

namespace WorkerInstance

/-- The constructor with its `__post_init__`. -/
def create (id : UUID) (workerId : String) (kind : WorkerKind) (hostname : String) (processId : ℤ)
    (capabilities : List String) (now : Instant) : Except ReadinessError WorkerInstance :=
  if Text.strip workerId = "" ∨ Text.strip hostname = "" then
    .error (.domainError (.domainValidationError "worker identity and hostname must not be empty"))
  else if processId ≤ 0 then
    .error (.domainError (.domainValidationError "worker process_id must be positive"))
  else if normalizeCapabilities capabilities = [] then
    .error (.domainError (.domainValidationError "worker requires at least one capability"))
  else
    .ok {
      id := id
      workerId := Text.strip workerId
      kind := kind
      capabilities := normalizeCapabilities capabilities
      lastSeenAt := now }

def heartbeat (worker : WorkerInstance) (now : Instant) : Except ReadinessError WorkerInstance :=
  if worker.status = .stopped then
    .error (.domainError (.domainValidationError "stopped worker cannot heartbeat"))
  else .ok { worker with lastSeenAt := now }

def stop (worker : WorkerInstance) (now : Instant) : WorkerInstance :=
  if worker.status = .stopped then worker
  else { worker with status := .stopped, lastSeenAt := now }

end WorkerInstance

/-- `get(instance_id)`, or the error that names it. -/
def getInstance (workers : List WorkerInstance) (instanceId : UUID) :
    Except ReadinessError WorkerInstance :=
  match workers.find? fun worker => worker.id = instanceId with
  | none => .error (.resourceNotFound ("worker instance not found: " ++ toString instanceId))
  | some worker => .ok worker

namespace PresenceCall

/-- What a call leaves in the table. -/
def apply (workers : List WorkerInstance) : PresenceCall → Except ReadinessError (List WorkerInstance)
  | register id workerId kind hostname processId capabilities now => do
    let worker ← WorkerInstance.create id workerId kind hostname processId capabilities now
    if ∃ row ∈ workers, row.id = id then .error .integrityError
    else pure (workers ++ [worker])
  | heartbeat instanceId now => do
    let worker ← getInstance workers instanceId
    let worker ← worker.heartbeat now
    pure (put (fun row => row.id) worker workers)
  | stop instanceId now => do
    let worker ← getInstance workers instanceId
    pure (put (fun row => row.id) (worker.stop now) workers)

end PresenceCall

/-- The table of worker instances as it answers the presence service. -/
def presence : Machine (List WorkerInstance) PresenceCall (Except ReadinessError Unit) where
  step workers call :=
    match call.apply workers with
    | .ok after => (.ok (), after)
    | .error error => (.error error, workers)

/-- The identifier is the primary key. -/
theorem apply_ids_nodup {workers after : List WorkerInstance} {call : PresenceCall}
    (h : (workers.map fun worker => worker.id).Nodup) (happly : call.apply workers = .ok after) :
    (after.map fun worker => worker.id).Nodup := by
  cases call with
  | register id workerId kind hostname processId capabilities now =>
    obtain ⟨worker, hworker, happly⟩ := bind_ok happly
    split at happly
    · cases happly
    · rename_i hnew
      cases happly
      have hid : worker.id = id := by
        unfold WorkerInstance.create at hworker
        split_ifs at hworker
        cases hworker
        rfl
      rw [List.map_append, List.map_singleton, List.nodup_append_comm, List.singleton_append,
        List.nodup_cons, hid]
      refine ⟨?_, h⟩
      intro hmem
      obtain ⟨row, hrow, hrowId⟩ := List.mem_map.mp hmem
      exact hnew ⟨row, hrow, hrowId⟩
  | heartbeat instanceId now =>
    obtain ⟨worker, -, happly⟩ := bind_ok happly
    obtain ⟨worker', -, happly⟩ := bind_ok happly
    cases happly
    rw [map_key_put]
    exact h
  | stop instanceId now =>
    obtain ⟨worker, -, happly⟩ := bind_ok happly
    cases happly
    rw [map_key_put]
    exact h

theorem presence_ids_nodup (calls : List PresenceCall) :
    ((presence.run [] calls).map fun worker => worker.id).Nodup := by
  refine presence.run_invariant (I := fun workers =>
    (workers.map fun worker => worker.id).Nodup) ?_ (s := []) List.nodup_nil calls
  intro workers call h
  unfold presence
  dsimp only
  split
  · rename_i after happly
    exact apply_ids_nodup h happly
  · exact h

/-! ## 2. The listings -/

/-- Where an instance stands in the listing, latest first. -/
def WorkerInstance.position (worker : WorkerInstance) : ℤᵒᵈ ×ₗ ℕᵒᵈ :=
  toLex (OrderDual.toDual worker.lastSeenAt, OrderDual.toDual worker.id)

/-- Where an execution stands in the listing, latest first. -/
def executionPosition (execution : WorkflowExecution) : ℤᵒᵈ ×ₗ ℕ :=
  toLex (OrderDual.toDual execution.updatedAt, execution.id)

theorem listWorkers_eq (workers : List WorkerInstance) (limit : ℕ) :
    listWorkers workers limit = (sortBy WorkerInstance.position workers).take limit := by
  unfold listWorkers
  rw [SortBy.insertionSort_eq WorkerInstance.position]
  intro a b
  unfold WorkerInstance.position
  rw [Prod.Lex.toLex_le_toLex, OrderDual.toDual_lt_toDual, OrderDual.toDual_inj,
    OrderDual.toDual_le_toDual]

theorem listExecutions_eq (projectOf : UUID → UUID) (executions : List WorkflowExecution)
    (projectId : UUID) (status : WorkflowStatus) (limit : ℕ) :
    listExecutions projectOf executions projectId status limit =
      (sortBy executionPosition (executions.filter fun execution =>
        projectOf execution.id = projectId ∧ execution.status = status)).take limit := by
  unfold listExecutions
  dsimp only
  rw [SortBy.insertionSort_eq executionPosition]
  intro a b
  unfold executionPosition
  rw [Prod.Lex.toLex_le_toLex, OrderDual.toDual_lt_toDual, OrderDual.toDual_inj]

theorem positions_of_ids {α κ : Type} {rows : List α} {id : α → ℕ} {position : α → κ}
    (h : (rows.map id).Nodup) (hposition : ∀ a b, position a = position b → id a = id b) :
    (rows.map position).Nodup := by
  refine List.Nodup.map_on ?_ h.of_map
  intro a ha b hb hab
  exact List.inj_on_of_nodup_map h ha hb (hposition a b hab)

theorem WorkerInstance.id_of_position {a b : WorkerInstance} (h : a.position = b.position) :
    a.id = b.id := by
  unfold position at h
  exact OrderDual.toDual_inj.mp (congrArg (fun p => (ofLex p).2) h)

theorem id_of_executionPosition {a b : WorkflowExecution}
    (h : executionPosition a = executionPosition b) : a.id = b.id := by
  unfold executionPosition at h
  exact congrArg (fun p => (ofLex p).2) h

/-! ## 3. Workers as they are now -/

/-- The latest row of its worker. -/
def IsLatest (workers : List WorkerInstance) (worker : WorkerInstance) : Prop :=
  worker.kind = .execution ∧ ∀ other ∈ workers, other.kind = .execution →
    other.workerId = worker.workerId → worker.position ≤ other.position

/-- Among the given number of rows seen latest, of whatever kind. -/
def IsRecent (workers : List WorkerInstance) (limit : ℕ) (worker : WorkerInstance) : Prop :=
  workers.countP (fun other => other.position < worker.position) < limit

/-- In a listing the first row of a worker is its latest. -/
theorem mem_latestExecutionWorkers {rows latest : List WorkerInstance} {worker : WorkerInstance}
    (h : rows.Pairwise fun a b => a.position < b.position) :
    worker ∈ latestExecutionWorkers latest rows ↔ worker ∈ latest ∨
      (worker ∈ rows ∧ IsLatest rows worker ∧ ∀ known ∈ latest, known.workerId ≠ worker.workerId) := by
  induction rows generalizing latest with
  | nil => simp [latestExecutionWorkers]
  | cons first rest ih =>
    rw [List.pairwise_cons] at h
    -- a row of another worker, or one that is no execution worker, is not the first's rival
    have hrest : ∀ worker ∈ rest, (first.kind = .execution → first.workerId ≠ worker.workerId) →
        (IsLatest (first :: rest) worker ↔ IsLatest rest worker) := by
      intro worker hworker hother
      constructor
      · rintro ⟨hkind, hlatest⟩
        exact ⟨hkind, fun other hmem => hlatest other (List.mem_cons_of_mem _ hmem)⟩
      · rintro ⟨hkind, hlatest⟩
        refine ⟨hkind, ?_⟩
        intro other hmem hkind' hsame
        rcases List.mem_cons.mp hmem with rfl | hmem
        · exact absurd hsame (hother hkind')
        · exact hlatest other hmem hkind' hsame
    have hbehind : ∀ worker ∈ rest, first.kind = .execution → first.workerId = worker.workerId →
        ¬IsLatest (first :: rest) worker := by
      rintro worker hworker hkind hsame ⟨-, hlatest⟩
      exact absurd (h.1 worker hworker) (hlatest first List.mem_cons_self hkind hsame).not_gt
    unfold latestExecutionWorkers
    split_ifs with htaken
    · obtain ⟨hkind, hnew⟩ := htaken
      rw [ih h.2, List.mem_append, List.mem_singleton, List.mem_cons]
      constructor
      · rintro ((hknown | rfl) | ⟨hmem, hlatest, hothers⟩)
        · exact .inl hknown
        · refine .inr ⟨.inl rfl, ⟨hkind, ?_⟩, hnew⟩
          intro other hother _ _
          rcases List.mem_cons.mp hother with rfl | hother
          · exact le_rfl
          · exact (h.1 other hother).le
        · have hne : first.workerId ≠ worker.workerId := hothers first (by simp)
          exact .inr ⟨.inr hmem, (hrest worker hmem fun _ => hne).mpr hlatest,
            fun known hknown => hothers known (List.mem_append_left _ hknown)⟩
      · rintro (hknown | ⟨rfl | hmem, hlatest, hothers⟩)
        · exact .inl (.inl hknown)
        · exact .inl (.inr rfl)
        · have hne : first.workerId ≠ worker.workerId := fun hsame =>
            hbehind worker hmem hkind hsame hlatest
          refine .inr ⟨hmem, (hrest worker hmem fun _ => hne).mp hlatest, ?_⟩
          intro known hknown
          rcases List.mem_append.mp hknown with hknown | hknown
          · exact hothers known hknown
          · rw [List.mem_singleton.mp hknown]
            exact hne
    · rw [ih h.2, List.mem_cons]
      constructor
      · rintro (hknown | ⟨hmem, hlatest, hothers⟩)
        · exact .inl hknown
        · refine .inr ⟨.inr hmem, (hrest worker hmem ?_).mpr hlatest, hothers⟩
          intro hkind hsame
          apply htaken
          refine ⟨hkind, ?_⟩
          intro known hknown
          rw [hsame]
          exact hothers known hknown
      · rintro (hknown | ⟨rfl | hmem, hlatest, hothers⟩)
        · exact .inl hknown
        · exact absurd ⟨hlatest.1, hothers⟩ htaken
        · refine .inr ⟨hmem, (hrest worker hmem ?_).mp hlatest, hothers⟩
          intro hkind hsame
          exact hbehind worker hmem hkind hsame hlatest

/-- The workers that a diagnosis looks at. -/
theorem mem_currentWorkers {workers : List WorkerInstance}
    (h : (workers.map fun worker => worker.id).Nodup) {limit : ℕ} {worker : WorkerInstance} :
    worker ∈ latestExecutionWorkers [] (listWorkers workers limit) ↔
      worker ∈ workers ∧ IsRecent workers limit worker ∧ IsLatest workers worker := by
  have hpositions : (workers.map WorkerInstance.position).Nodup :=
    positions_of_ids h fun a b => WorkerInstance.id_of_position
  have hsorted : (listWorkers workers limit).Pairwise fun a b => a.position < b.position := by
    rw [listWorkers_eq]
    exact (SortBy.pairwise hpositions).sublist (List.take_sublist _ _)
  have hlisted : ∀ row, row ∈ listWorkers workers limit ↔ row ∈ workers ∧ IsRecent workers limit row := by
    intro row
    rw [listWorkers_eq]
    exact SortBy.mem_take_iff hpositions
  rw [mem_latestExecutionWorkers hsorted, hlisted]
  constructor
  · rintro (hnone | ⟨⟨hmem, hrecent⟩, hlatest, -⟩)
    · exact absurd hnone List.not_mem_nil
    · refine ⟨hmem, hrecent, hlatest.1, ?_⟩
      intro other hother hkind hsame
      by_contra hlater
      -- a later row of the worker would be listed too
      have hlater' : other.position < worker.position := not_le.mp hlater
      have hrecent' : IsRecent workers limit other := by
        unfold IsRecent at hrecent ⊢
        refine lt_of_le_of_lt (List.countP_mono_left ?_) hrecent
        intro row _ hrow
        rw [decide_eq_true_eq] at hrow ⊢
        exact hrow.trans hlater'
      exact hlater (hlatest.2 other ((hlisted other).mpr ⟨hother, hrecent'⟩) hkind hsame)
  · rintro ⟨hmem, hrecent, hkind, hlatest⟩
    refine .inr ⟨⟨hmem, hrecent⟩, ⟨hkind, ?_⟩, fun known hknown => absurd hknown List.not_mem_nil⟩
    intro other hother
    exact hlatest other ((hlisted other).mp hother).1

/-! ## 4. Coverage -/

section

variable {staleAfterSeconds : ℚ} {checkedAt : Instant}

def WorkerInstance.IsOnline (staleAfterSeconds : ℚ) (checkedAt : Instant) (worker : WorkerInstance) :
    Prop :=
  worker.observedStatus staleAfterSeconds checkedAt = .ok .online

theorem observedStatus_ok (checkedAt : Instant) (hstale : 0 < staleAfterSeconds)
    (worker : WorkerInstance) :
    ∃ status, worker.observedStatus staleAfterSeconds checkedAt = .ok status := by
  unfold WorkerInstance.observedStatus
  rw [if_neg (not_le.mpr hstale)]
  split_ifs
  · exact ⟨_, rfl⟩
  · exact ⟨_, rfl⟩
  · exact ⟨_, rfl⟩

theorem coverage_ok (hstale : 0 < staleAfterSeconds) (executorKey : String)
    (workers : List WorkerInstance) :
    ∃ item, coverage executorKey workers staleAfterSeconds checkedAt = .ok item := by
  have hobserved : ∃ observed, ((workers.filter fun worker => executorKey ∈ worker.capabilities).mapM
      fun worker => do
        let status ← worker.observedStatus staleAfterSeconds checkedAt
        return (worker.workerId, status)) = .ok observed := by
    apply exists_mapM_iff.mpr
    intro worker _
    obtain ⟨status, hstatus⟩ := observedStatus_ok checkedAt hstale worker
    refine ⟨(worker.workerId, status), ?_⟩
    rw [hstatus]
    rfl
  obtain ⟨observed, hobserved⟩ := hobserved
  unfold coverage
  dsimp only
  rw [hobserved]
  exact ⟨_, rfl⟩

/-- A capability is uncovered if no worker that has it is online. -/
theorem coverage_spec {executorKey : String} {workers : List WorkerInstance}
    {item : WorkerCapabilityCoverage}
    (h : coverage executorKey workers staleAfterSeconds checkedAt = .ok item) :
    item.executorKey = executorKey ∧ (item.onlineWorkerIds = [] ↔ ∀ worker ∈ workers,
      executorKey ∈ worker.capabilities → ¬worker.IsOnline staleAfterSeconds checkedAt) := by
  obtain ⟨observed, hobserved, h⟩ := bind_ok h
  cases h
  refine ⟨rfl, ?_⟩
  have hpairs : List.Forall₂ (fun (worker : WorkerInstance) entry =>
      worker.observedStatus staleAfterSeconds checkedAt = .ok entry.2)
      (workers.filter fun worker => executorKey ∈ worker.capabilities) observed := by
    refine (mapM_eq_ok.mp hobserved).imp ?_
    intro worker entry hentry
    obtain ⟨status, hstatus, hentry⟩ := bind_ok hentry
    cases hentry
    exact hstatus
  have hempty : ((observed.filter fun entry => entry.2 = .online).map Prod.fst).insertionSort
      (· ≤ ·) = [] ↔ ∀ entry ∈ observed, entry.2 ≠ .online := by
    rw [← List.length_eq_zero_iff, List.length_insertionSort, List.length_map,
      List.length_eq_zero_iff, List.filter_eq_nil_iff]
    simp only [decide_eq_true_eq]
  dsimp only
  rw [hempty]
  constructor
  · intro hnone worker hworker hcapable honline
    obtain ⟨entry, hentry, hstatus⟩ := exists_of_forall₂ hpairs
      (List.mem_filter.mpr ⟨hworker, decide_eq_true hcapable⟩)
    unfold WorkerInstance.IsOnline at honline
    rw [honline] at hstatus
    exact hnone entry hentry (Except.ok.inj hstatus).symm
  · intro hnone entry hentry honline
    obtain ⟨worker, hworker, hstatus⟩ := exists_of_forall₂ hpairs.flip hentry
    obtain ⟨hmem, hcapable⟩ := List.mem_filter.mp hworker
    apply hnone worker hmem (of_decide_eq_true hcapable)
    unfold WorkerInstance.IsOnline
    rw [hstatus, honline]

end

/-! ## 5. The diagnosis -/

/-- The report names the node. -/
def Reported (report : ProjectWorkerReadiness) (execution : WorkflowExecution) (node : NodeExecution) :
    Prop :=
  ∃ issue ∈ report.issues, issue.workflowExecutionId = execution.id ∧
    issue.nodeKey = node.nodeKey ∧ issue.executorKey = node.executorKey

theorem issueOf_some {coverages : List WorkerCapabilityCoverage} {execution : WorkflowExecution}
    {node : NodeExecution} {issue : WorkerReadinessIssue}
    (h : issueOf coverages execution node = some issue) :
    (∃ item ∈ coverages, item.executorKey = node.executorKey ∧ item.onlineWorkerIds = []) ∧
      issue.workflowExecutionId = execution.id ∧ issue.nodeKey = node.nodeKey ∧
        issue.executorKey = node.executorKey := by
  unfold issueOf at h
  split at h
  · cases h
  · rename_i item hitem
    split at h
    · rename_i honline
      cases h
      exact ⟨⟨item, List.mem_of_find?_eq_some hitem, by simpa using List.find?_some hitem, honline⟩,
        rfl, rfl, rfl⟩
    · cases h

theorem issueOf_isSome {coverages : List WorkerCapabilityCoverage} (execution : WorkflowExecution)
    {node : NodeExecution} (hcovered : ∃ item ∈ coverages, item.executorKey = node.executorKey)
    (huncovered : ∀ item ∈ coverages, item.executorKey = node.executorKey → item.onlineWorkerIds = []) :
    ∃ issue, issueOf coverages execution node = some issue := by
  obtain ⟨item, hitem, hkey⟩ := hcovered
  unfold issueOf
  split
  · rename_i hnone
    exact absurd (List.find?_eq_none.mp hnone item hitem) (by simp [hkey])
  · rename_i item hitem
    rw [if_pos (huncovered item (List.mem_of_find?_eq_some hitem) (by simpa using List.find?_some hitem))]
    exact ⟨_, rfl⟩

section

variable {projectOf : UUID → UUID} {tables : Tables} {alerts : List WorkerReadinessAlert}
  {projectId : UUID} {staleAfterSeconds : ℚ} {checkedAt : Instant}

/-- What an inspection reports, on the listings that it reads. -/
theorem inspectProject_spec (projectOf : UUID → UUID) (tables : Tables)
    (alerts : List WorkerReadinessAlert) (checkedAt : Instant)
    (hproject : projectId ∈ tables.projects) (hstale : 0 < staleAfterSeconds) :
    ∃ report, inspectProject projectOf tables alerts projectId staleAfterSeconds checkedAt = .ok report ∧
      ∀ execution node, Reported report execution node ↔
        ∃ ready ∈ readyNodes (listExecutions projectOf tables.executions projectId .running 500),
          ready.1.id = execution.id ∧ ready.2.nodeKey = node.nodeKey ∧
            ready.2.executorKey = node.executorKey ∧
          ∀ worker ∈ latestExecutionWorkers [] (listWorkers tables.workers 1000),
            node.executorKey ∈ worker.capabilities → ¬worker.IsOnline staleAfterSeconds checkedAt := by
  obtain ⟨coverages, hcoverages⟩ : ∃ coverages,
      (((readyNodes (listExecutions projectOf tables.executions projectId .running 500)).map
        fun entry => entry.2.executorKey).dedup.insertionSort (· ≤ ·)).mapM (fun key =>
          coverage key (latestExecutionWorkers [] (listWorkers tables.workers 1000)) staleAfterSeconds
            checkedAt) = .ok coverages :=
    exists_mapM_iff.mpr fun key _ => coverage_ok hstale key _
  obtain ⟨statuses, hstatuses⟩ : ∃ statuses,
      (latestExecutionWorkers [] (listWorkers tables.workers 1000)).mapM (fun worker =>
        worker.observedStatus staleAfterSeconds checkedAt) = .ok statuses :=
    exists_mapM_iff.mpr fun worker _ => observedStatus_ok checkedAt hstale worker
  unfold inspectProject
  rw [if_neg (not_not.mpr hproject)]
  dsimp only
  rw [hcoverages]
  dsimp only [bind, Except.bind]
  rw [hstatuses]
  refine ⟨_, rfl, ?_⟩
  have hpairs := mapM_eq_ok.mp hcoverages
  -- each key of a ready node has its item, and the items say who is online
  have hitem : ∀ ready ∈ readyNodes (listExecutions projectOf tables.executions projectId .running 500),
      ∃ item ∈ coverages, item.executorKey = ready.2.executorKey := by
    intro ready hready
    obtain ⟨item, hmem, hcoverage⟩ := exists_of_forall₂ hpairs (x := ready.2.executorKey) (by
      rw [List.mem_insertionSort, List.mem_dedup]
      exact List.mem_map_of_mem hready)
    exact ⟨item, hmem, (coverage_spec hcoverage).1⟩
  have honline : ∀ item ∈ coverages, item.onlineWorkerIds = [] ↔
      ∀ worker ∈ latestExecutionWorkers [] (listWorkers tables.workers 1000),
        item.executorKey ∈ worker.capabilities → ¬worker.IsOnline staleAfterSeconds checkedAt := by
    intro item hmem
    obtain ⟨key, -, hcoverage⟩ := exists_of_forall₂ hpairs.flip hmem
    obtain ⟨rfl, hempty⟩ := coverage_spec hcoverage
    exact hempty
  intro execution node
  constructor
  · rintro ⟨issue, hissue, hexecution, hnode, hkey⟩
    obtain ⟨ready, hready, hof⟩ := List.mem_filterMap.mp hissue
    obtain ⟨⟨item, hmem, hitemKey, hempty⟩, hid, hnodeKey, hexecutor⟩ := issueOf_some hof
    have hsame : ready.2.executorKey = node.executorKey := hexecutor.symm.trans hkey
    refine ⟨ready, (List.mem_insertionSort _).mp hready, hid.symm.trans hexecution,
      hnodeKey.symm.trans hnode, hsame, ?_⟩
    rw [← hsame, ← hitemKey]
    exact (honline item hmem).mp hempty
  · rintro ⟨ready, hready, hid, hnodeKey, hexecutor, hnone⟩
    obtain ⟨issue, hof⟩ := issueOf_isSome ready.1 (hitem ready hready) (by
      intro item hmem hitemKey
      rw [honline item hmem, hitemKey, hexecutor]
      exact hnone)
    obtain ⟨-, hissueId, hissueNode, hissueKey⟩ := issueOf_some hof
    exact ⟨issue, List.mem_filterMap.mpr ⟨ready, (List.mem_insertionSort _).mpr hready, hof⟩,
      hissueId.trans hid, hissueNode.trans hnodeKey, hissueKey.trans hexecutor⟩

end

/-- The RUNNING executions of a project. -/
def runningExecutions (projectOf : UUID → UUID) (executions : List WorkflowExecution)
    (projectId : UUID) : List WorkflowExecution :=
  executions.filter fun execution => projectOf execution.id = projectId ∧ execution.status = .running

/-- Among the given number of RUNNING executions of the project that were updated latest. -/
def IsListed (projectOf : UUID → UUID) (executions : List WorkflowExecution) (projectId : UUID)
    (limit : ℕ) (execution : WorkflowExecution) : Prop :=
  (runningExecutions projectOf executions projectId).countP
    (fun other => executionPosition other < executionPosition execution) < limit

/-- Which READY nodes are reported, whatever the worker processes have done before. -/
theorem readiness_exact (projectOf : UUID → UUID) (projects : List UUID)
    (executions : List WorkflowExecution)
    (hids : (executions.map fun execution => execution.id).Nodup) (calls : List PresenceCall)
    (alerts : List WorkerReadinessAlert) (projectId : UUID) (hproject : projectId ∈ projects)
    (staleAfterSeconds : ℚ) (hstale : 0 < staleAfterSeconds) (checkedAt : Instant) :
    ∃ report, inspectProject projectOf ⟨projects, executions, presence.run [] calls⟩ alerts projectId
        staleAfterSeconds checkedAt = .ok report ∧
      ∀ execution ∈ executions, projectOf execution.id = projectId → execution.status = .running →
        ∀ node ∈ execution.nodes.values, node.status = .ready →
          (Reported report execution node ↔
            IsListed projectOf executions projectId 500 execution ∧
              ¬∃ worker ∈ presence.run [] calls, IsLatest (presence.run [] calls) worker ∧
                IsRecent (presence.run [] calls) 1000 worker ∧
                node.executorKey ∈ worker.capabilities ∧
                  worker.IsOnline staleAfterSeconds checkedAt) := by
  obtain ⟨report, hreport, hreported⟩ := inspectProject_spec projectOf
    ⟨projects, executions, presence.run [] calls⟩ alerts checkedAt hproject hstale
  refine ⟨report, hreport, ?_⟩
  intro execution hexecution hof hrunning node hnode hready
  have hselected : execution ∈ runningExecutions projectOf executions projectId :=
    List.mem_filter.mpr ⟨hexecution, decide_eq_true ⟨hof, hrunning⟩⟩
  have hpositions : ((runningExecutions projectOf executions projectId).map executionPosition).Nodup :=
    positions_of_ids ((List.filter_sublist.map _).nodup hids) fun a b => id_of_executionPosition
  have hlisted : ∀ other, other ∈ listExecutions projectOf executions projectId .running 500 ↔
      other ∈ runningExecutions projectOf executions projectId ∧
        IsListed projectOf executions projectId 500 other := by
    intro other
    rw [listExecutions_eq]
    exact SortBy.mem_take_iff hpositions
  have huncovered : (∀ worker ∈ latestExecutionWorkers [] (listWorkers (presence.run [] calls) 1000),
      node.executorKey ∈ worker.capabilities → ¬worker.IsOnline staleAfterSeconds checkedAt) ↔
      ¬∃ worker ∈ presence.run [] calls, IsLatest (presence.run [] calls) worker ∧
        IsRecent (presence.run [] calls) 1000 worker ∧ node.executorKey ∈ worker.capabilities ∧
          worker.IsOnline staleAfterSeconds checkedAt := by
    simp only [mem_currentWorkers (presence_ids_nodup calls)]
    constructor
    · rintro hnone ⟨worker, hworker, hlatest, hrecent, hcapable, honline⟩
      exact hnone worker ⟨hworker, hrecent, hlatest⟩ hcapable honline
    · rintro hnone worker ⟨hworker, hrecent, hlatest⟩ hcapable honline
      exact hnone ⟨worker, hworker, hlatest, hrecent, hcapable, honline⟩
  rw [hreported, ← huncovered]
  constructor
  · rintro ⟨⟨execution', node'⟩, hmem, hid, -, -, hnone⟩
    refine ⟨?_, hnone⟩
    obtain ⟨listed, hpage, hpair⟩ := List.mem_flatMap.mp hmem
    obtain ⟨node'', -, hpair⟩ := List.mem_map.mp hpair
    obtain ⟨rfl, -⟩ := Prod.mk.inj hpair
    obtain ⟨hselected', hlisted'⟩ := (hlisted listed).mp hpage
    have hsame : listed = execution :=
      List.inj_on_of_nodup_map hids (List.mem_of_mem_filter hselected') hexecution hid
    rw [← hsame]
    exact hlisted'
  · rintro ⟨hlist, hnone⟩
    refine ⟨(execution, node), ?_, rfl, rfl, rfl, hnone⟩
    unfold readyNodes
    rw [List.mem_flatMap]
    exact ⟨execution, (hlisted execution).mpr ⟨hselected, hlist⟩,
      List.mem_map.mpr ⟨node, List.mem_filter.mpr ⟨hnode, decide_eq_true hready⟩, rfl⟩⟩

/-- A worker that starts again with another capability while its first process still runs. -/
def restarted : List PresenceCall :=
  [.register 1 "worker" .execution "host" 41 ["openclaw"] 0,
    .register 2 "worker" .execution "host" 42 ["codex"] 1]

theorem readiness_exact_restarted : ∃ report, inspectProject (fun _ => 0)
      ⟨[0], [waitingExecution], presence.run [] restarted⟩ [] 0 90 2 = .ok report ∧
    ∀ execution ∈ [waitingExecution], 0 = 0 → execution.status = .running →
      ∀ node ∈ execution.nodes.values, node.status = .ready →
        (Reported report execution node ↔
          IsListed (fun _ => 0) [waitingExecution] 0 500 execution ∧
            ¬∃ worker ∈ presence.run [] restarted, IsLatest (presence.run [] restarted) worker ∧
              IsRecent (presence.run [] restarted) 1000 worker ∧
              node.executorKey ∈ worker.capabilities ∧ worker.IsOnline 90 2) :=
  readiness_exact (fun _ => 0) [0] [waitingExecution] (by decide) restarted [] 0 (by decide) 90
    (by norm_num) 2

def firstProcess : WorkerInstance where
  id := 1
  workerId := "worker"
  kind := .execution
  capabilities := ["openclaw"]
  lastSeenAt := 0

theorem firstProcess_online : firstProcess.IsOnline 90 2 := by
  unfold WorkerInstance.IsOnline
  decide +kernel

/-- The first process is online and can run the task, but the second hides it. -/
theorem hidden_worker_reported :
    ¬∀ (projectOf : UUID → UUID) (projects : List UUID) (executions : List WorkflowExecution),
      (executions.map fun execution => execution.id).Nodup →
      ∀ (calls : List PresenceCall) (alerts : List WorkerReadinessAlert) (projectId : UUID),
      projectId ∈ projects → ∀ staleAfterSeconds : ℚ, 0 < staleAfterSeconds → ∀ checkedAt : Instant,
      ∃ report, inspectProject projectOf ⟨projects, executions, presence.run [] calls⟩ alerts projectId
          staleAfterSeconds checkedAt = .ok report ∧
        ∀ execution ∈ executions, projectOf execution.id = projectId → execution.status = .running →
          ∀ node ∈ execution.nodes.values, node.status = .ready →
            (Reported report execution node ↔
              ¬∃ worker ∈ presence.run [] calls, worker.kind = .execution ∧
                node.executorKey ∈ worker.capabilities ∧
                  worker.IsOnline staleAfterSeconds checkedAt) := by
  intro hclaim
  obtain ⟨report, hreport, hexact⟩ := hclaim (fun _ => 0) [0] [waitingExecution] (by decide) restarted
    [] 0 (by decide) 90 (by norm_num) 2
  have hissues : (inspectProject (fun _ => 0) ⟨[0], [waitingExecution], presence.run [] restarted⟩ [] 0
      90 2).toOption.map (fun report => report.issues.map fun issue =>
        (issue.workflowExecutionId, issue.nodeKey, issue.executorKey)) =
      some [(1, "work", "openclaw")] := by
    decide +kernel
  rw [hreport] at hissues
  have hissues' : report.issues.map (fun issue =>
      (issue.workflowExecutionId, issue.nodeKey, issue.executorKey)) = [(1, "work", "openclaw")] :=
    Option.some.inj hissues
  obtain ⟨node, hnode, hready, hkeys⟩ : ∃ node ∈ waitingExecution.nodes.values, node.status = .ready ∧
      (node.nodeKey, node.executorKey) = ("work", "openclaw") :=
    ⟨_, List.mem_cons_self, rfl, rfl⟩
  obtain ⟨hnodeKey, hexecutorKey⟩ := Prod.mk.inj hkeys
  have hreported : Reported report waitingExecution node := by
    have hmem : (1, "work", "openclaw") ∈ report.issues.map (fun issue =>
        (issue.workflowExecutionId, issue.nodeKey, issue.executorKey)) := by
      rw [hissues']
      exact List.mem_singleton_self _
    obtain ⟨issue, hissue, hfields⟩ := List.mem_map.mp hmem
    obtain ⟨hid, hrest⟩ := Prod.mk.inj hfields
    obtain ⟨hissueNode, hissueKey⟩ := Prod.mk.inj hrest
    exact ⟨issue, hissue, hid, hissueNode.trans hnodeKey.symm, hissueKey.trans hexecutorKey.symm⟩
  apply (hexact waitingExecution (List.mem_singleton_self _) rfl rfl node hnode hready).mp hreported
  rw [hexecutorKey]
  exact ⟨firstProcess, by decide +kernel, rfl, by decide, firstProcess_online⟩

end JbOrchestrator.WorkerPresence
