import JbOrchestrator.Domain.Aggregates
import JbOrchestrator.Lib.Keyset
import JbOrchestrator.Lib.Machine
import Mathlib.Data.Prod.Lex

/-!
# Monitor — the sweep of the readiness monitor over the active projects

`WorkerReadinessMonitorRuntime` polls `evaluate_active_project_batch` with the cursor of the batch
before.  What `evaluate_project` answers for a project is an argument of every poll, and so is the
table of projects: between two polls it may change in any way that keeps identifiers and creation
times.
-/

open Lib

namespace JbOrchestrator.WorkerPresence

open Domain

structure ValueError where
  message : String
  deriving DecidableEq, Repr

/-! ## 1. The query -/

/-- A row of the table of projects. -/
structure ProjectRecord extends Project where
  createdAt : Instant
  deriving DecidableEq

/-- The condition on a row that an `after` project adds. -/
def ProjectRecord.isAfter (record after : ProjectRecord) : Bool :=
  record.createdAt < after.createdAt ∨ (record.createdAt = after.createdAt ∧ after.id < record.id)

/-- `order_by(created_at.desc(), id)`. -/
def ProjectRecord.upTo (a b : ProjectRecord) : Prop :=
  b.createdAt < a.createdAt ∨ (a.createdAt = b.createdAt ∧ a.id ≤ b.id)

instance : DecidableRel ProjectRecord.upTo := fun a b =>
  inferInstanceAs (Decidable (b.createdAt < a.createdAt ∨ (a.createdAt = b.createdAt ∧ a.id ≤ b.id)))

/-- `SqlAlchemyProjectRepository.list`. -/
def listProjects (table : List ProjectRecord) (status : Option ProjectStatus)
    (after : Option ProjectRecord) (limit : ℕ) : List ProjectRecord :=
  let selected := table.filter fun record => status.all fun status => record.status = status
  let selected := selected.filter fun record => after.all fun after => record.isAfter after
  (selected.insertionSort ProjectRecord.upTo).take limit

/-! ## 2. The batch -/

/-- What an evaluation raised, as a failure keeps it. -/
structure RaisedError where
  errorType : String
  message : String
  deriving DecidableEq, Repr

structure WorkerReadinessEvaluationFailure where
  projectId : UUID
  errorType : String
  message : String
  deriving DecidableEq, Repr

/-- The lists the loop fills.  `evaluated` is a history variable: the projects that
`evaluate_project` was called with, in order. -/
structure Evaluations (ρ : Type) where
  reports : List ρ := []
  failures : List WorkerReadinessEvaluationFailure := []
  evaluated : List UUID := []

structure WorkerReadinessEvaluationBatch (ρ : Type) extends Evaluations ρ where
  attemptedCount : ℕ
  nextCursor : Option ProjectRecord

variable {ρ : Type}

/-- The loop over the projects of a batch; an exception becomes a failure of its project. -/
def evaluateAll (evaluate : UUID → Except RaisedError ρ) :
    List ProjectRecord → Evaluations ρ → Evaluations ρ
  | [], done => done
  | project :: projects, done =>
    let done := { done with evaluated := done.evaluated ++ [project.id] }
    match evaluate project.id with
    | .ok report => evaluateAll evaluate projects { done with reports := done.reports ++ [report] }
    | .error error =>
      evaluateAll evaluate projects
        { done with failures := done.failures ++ [⟨project.id, error.errorType, error.message⟩] }

def evaluateActiveProjectBatch (table : List ProjectRecord)
    (evaluate : UUID → Except RaisedError ρ) (after : Option ProjectRecord) (limit : ℕ) :
    Except ValueError (WorkerReadinessEvaluationBatch ρ) :=
  if limit = 0 then .error ⟨"worker readiness project limit must be positive"⟩
  else
    let candidates := listProjects table (some .active) after (limit + 1)
    let projects := candidates.take limit
    .ok {
      evaluateAll evaluate projects {} with
      attemptedCount := projects.length
      nextCursor := if limit < candidates.length then projects.getLast? else none }

/-! ## 3. The runtime -/

structure MonitorRuntime (ρ : Type) where
  cursor : Option ProjectRecord := none
  lastCycle : Option (WorkerReadinessEvaluationBatch ρ) := none

/-- What one poll meets: the table of projects and what every evaluation answers. -/
structure Poll (ρ : Type) where
  table : List ProjectRecord
  evaluate : UUID → Except RaisedError ρ

/-- `run_once`.  It answers the batch, whose reports and failures are logged. -/
def MonitorRuntime.runOnce (projectLimit : ℕ) (runtime : MonitorRuntime ρ) (poll : Poll ρ) :
    Except ValueError (WorkerReadinessEvaluationBatch ρ) × MonitorRuntime ρ :=
  match evaluateActiveProjectBatch poll.table poll.evaluate runtime.cursor projectLimit with
  | .error error => (.error error, runtime)
  | .ok batch => (.ok batch, { runtime with cursor := batch.nextCursor, lastCycle := some batch })

/-- `run`. -/
def monitor (ρ : Type) (projectLimit : ℕ) :
    Machine (MonitorRuntime ρ) (Poll ρ)
      (Except ValueError (WorkerReadinessEvaluationBatch ρ)) where
  step := MonitorRuntime.runOnce projectLimit

/-! ## 4. The query as a page of keys -/

/-- Where a project stands in the order of the query. -/
def ProjectRecord.position (record : ProjectRecord) : ℤᵒᵈ ×ₗ ℕ :=
  toLex (OrderDual.toDual record.createdAt, record.id)

theorem upTo_iff (a b : ProjectRecord) : a.upTo b ↔ a.position ≤ b.position := by
  unfold ProjectRecord.upTo ProjectRecord.position
  rw [Prod.Lex.toLex_le_toLex, OrderDual.toDual_lt_toDual, OrderDual.toDual_inj]

theorem isAfter_iff (record after : ProjectRecord) :
    record.isAfter after = true ↔ after.position < record.position := by
  unfold ProjectRecord.isAfter ProjectRecord.position
  rw [Prod.Lex.toLex_lt_toLex, OrderDual.toDual_lt_toDual, OrderDual.toDual_inj, decide_eq_true_eq,
    eq_comm]

/-- The positions of the active projects. -/
def activePositions (table : List ProjectRecord) : List (ℤᵒᵈ ×ₗ ℕ) :=
  (table.filter fun record => record.status = .active).map ProjectRecord.position

theorem map_position_listProjects (table : List ProjectRecord) (after : Option ProjectRecord)
    (limit : ℕ) :
    (listProjects table (some .active) after limit).map ProjectRecord.position =
      Keyset.page (activePositions table) (after.map ProjectRecord.position) limit := by
  have hafter : (fun record : ProjectRecord => after.all fun after => record.isAfter after) =
      fun record => decide (∀ a ∈ after.map ProjectRecord.position, a < record.position) := by
    funext record
    rw [Bool.eq_iff_iff, decide_eq_true_eq]
    cases after <;> simp [isAfter_iff]
  unfold listProjects Keyset.page Keyset.behind activePositions
  simp only [Option.all_some]
  rw [hafter, List.map_take, List.filter_map, List.map_insertionSort ProjectRecord.upTo (· ≤ ·)
    ProjectRecord.position _ fun a _ b _ => upTo_iff a b]
  rfl

/-! ## 5. What a poll does -/

theorem evaluateAll_evaluated (evaluate : UUID → Except RaisedError ρ)
    (projects : List ProjectRecord) (done : Evaluations ρ) :
    (evaluateAll evaluate projects done).evaluated =
      done.evaluated ++ projects.map fun project => project.id := by
  induction projects generalizing done with
  | nil => simp [evaluateAll]
  | cons project projects ih =>
    rw [evaluateAll]
    split <;> simp [ih]

/-- The identifiers a page of projects is evaluated under. -/
def evaluatedBy (answer : Except ValueError (WorkerReadinessEvaluationBatch ρ)) : List UUID :=
  match answer with
  | .ok batch => batch.evaluated
  | .error _ => []

section Poll

variable {limit : ℕ} (hlimit : 1 ≤ limit) (runtime : MonitorRuntime ρ) (poll : Poll ρ)
include hlimit

theorem runOnce_cursor :
    (runtime.runOnce limit poll).2.cursor.map ProjectRecord.position =
      Keyset.next (activePositions poll.table) (runtime.cursor.map ProjectRecord.position)
        limit := by
  unfold MonitorRuntime.runOnce evaluateActiveProjectBatch
  rw [if_neg (by omega)]
  have hpage := map_position_listProjects poll.table runtime.cursor (limit + 1)
  have hlength := congrArg List.length hpage
  rw [List.length_map, Keyset.page, List.length_take] at hlength
  have htake := congrArg (List.take limit) hpage
  rw [← List.map_take, Keyset.page, List.take_take, min_eq_left (Nat.le_succ limit)] at htake
  simp only [Keyset.next, Keyset.page]
  rw [apply_ite (Option.map ProjectRecord.position), ← List.getLast?_map, htake, hlength]
  by_cases hmore : limit < (Keyset.behind (activePositions poll.table)
      (runtime.cursor.map ProjectRecord.position)).length
  · rw [if_pos hmore, if_pos (by omega)]
  · rw [if_neg hmore, if_neg (by omega)]
    rfl

theorem runOnce_evaluated :
    evaluatedBy (runtime.runOnce limit poll).1 =
      (Keyset.page (activePositions poll.table) (runtime.cursor.map ProjectRecord.position)
        limit).map fun position => (ofLex position).2 := by
  have hpage := map_position_listProjects poll.table runtime.cursor (limit + 1)
  have htake := congrArg (List.take limit) hpage
  rw [← List.map_take, Keyset.page, List.take_take, min_eq_left (Nat.le_succ limit)] at htake
  unfold MonitorRuntime.runOnce evaluateActiveProjectBatch
  rw [if_neg (by omega)]
  simp only [evaluatedBy, evaluateAll_evaluated, List.nil_append]
  rw [Keyset.page, ← htake, List.map_map]
  rfl

end Poll

/-! ## 6. Sweeps -/

/-- The cursors ask for further pages until the last one, which is `None`. -/
def Sweeps (cursors : List (Option ProjectRecord)) : Prop :=
  cursors.getLast? = some none ∧ ∀ cursor ∈ cursors.dropLast, cursor ≠ none

theorem sweeps_cons_none {cursors : List (Option ProjectRecord)} :
    Sweeps (none :: cursors) ↔ cursors = [] := by
  cases cursors with
  | nil => simp [Sweeps]
  | cons cursor cursors => simp [Sweeps]

theorem sweeps_cons_some {cursor : ProjectRecord} {cursors : List (Option ProjectRecord)} :
    Sweeps (some cursor :: cursors) ↔ Sweeps cursors := by
  cases cursors with
  | nil => simp [Sweeps]
  | cons next cursors => simp [Sweeps]

/-- The cursor after every poll. -/
def cursorsFrom (limit : ℕ) (runtime : MonitorRuntime ρ) (polls : List (Poll ρ)) :
    List (Option ProjectRecord) :=
  ((monitor ρ limit).trace runtime polls).map fun t => t.after.cursor

/-- The projects every poll evaluates. -/
def evaluatedFrom (limit : ℕ) (runtime : MonitorRuntime ρ) (polls : List (Poll ρ)) :
    List (List UUID) :=
  ((monitor ρ limit).trace runtime polls).map fun t => evaluatedBy t.output

theorem cursorsFrom_cons (limit : ℕ) (runtime : MonitorRuntime ρ) (poll : Poll ρ)
    (polls : List (Poll ρ)) :
    cursorsFrom limit runtime (poll :: polls) = (runtime.runOnce limit poll).2.cursor ::
      cursorsFrom limit (runtime.runOnce limit poll).2 polls := rfl

theorem evaluatedFrom_cons (limit : ℕ) (runtime : MonitorRuntime ρ) (poll : Poll ρ)
    (polls : List (Poll ρ)) :
    evaluatedFrom limit runtime (poll :: polls) = evaluatedBy (runtime.runOnce limit poll).1 ::
      evaluatedFrom limit (runtime.runOnce limit poll).2 polls := rfl

/-- The polls from a cursor that is `None` up to the next time it is. -/
def IsSweep (limit : ℕ) (polls : List (Poll ρ)) : Prop :=
  Sweeps (cursorsFrom limit {} polls)

/-- Identifiers are primary keys, and a project keeps its creation time. -/
structure Stable (polls : List (Poll ρ)) : Prop where
  ids_nodup : ∀ poll ∈ polls, (poll.table.map fun record => record.id).Nodup
  created_once : ∀ poll ∈ polls, ∀ record ∈ poll.table, ∀ poll' ∈ polls,
    ∀ record' ∈ poll'.table, record.id = record'.id → record.createdAt = record'.createdAt

/-- The identifiers of the active projects. -/
def activeIds (table : List ProjectRecord) : List UUID :=
  (table.filter fun record => record.status = .active).map fun record => record.id

section Sweep

variable {limit : ℕ} (hlimit : 1 ≤ limit)
include hlimit

theorem sweeps_iff_ends (runtime : MonitorRuntime ρ) (polls : List (Poll ρ)) :
    Sweeps (cursorsFrom limit runtime polls) ↔
      Keyset.Ends limit (runtime.cursor.map ProjectRecord.position)
        (polls.map fun poll => activePositions poll.table) := by
  induction polls generalizing runtime with
  | nil => simp [cursorsFrom, Sweeps, Keyset.Ends]
  | cons poll polls ih =>
    have hcursor := runOnce_cursor hlimit runtime poll
    have hrest := ih (runtime.runOnce limit poll).2
    rw [cursorsFrom_cons, List.map_cons]
    cases hnext : (runtime.runOnce limit poll).2.cursor with
    | none =>
      rw [hnext] at hcursor
      rw [sweeps_cons_none, Keyset.ends_cons_of_none hcursor.symm, List.map_eq_nil_iff,
        cursorsFrom, List.map_eq_nil_iff]
      cases polls <;> simp
    | some cursor =>
      rw [hnext] at hcursor hrest
      rw [sweeps_cons_some, Keyset.ends_cons_of_some hcursor.symm]
      exact hrest

theorem evaluatedFrom_flatten (runtime : MonitorRuntime ρ) (polls : List (Poll ρ)) :
    (evaluatedFrom limit runtime polls).flatten =
      (Keyset.visited limit (runtime.cursor.map ProjectRecord.position)
        (polls.map fun poll => activePositions poll.table)).map fun position =>
          (ofLex position).2 := by
  induction polls generalizing runtime with
  | nil => rfl
  | cons poll polls ih =>
    rw [evaluatedFrom_cons, List.flatten_cons, ih, runOnce_cursor hlimit, runOnce_evaluated hlimit,
      List.map_cons, Keyset.visited, List.map_append]

/-- What the evaluations answer changes neither the batches nor the cursors. -/
theorem evaluatedFrom_congr {runtime runtime' : MonitorRuntime ρ} {polls polls' : List (Poll ρ)}
    (hcursor : runtime.cursor.map ProjectRecord.position =
      runtime'.cursor.map ProjectRecord.position)
    (htables : polls.map Poll.table = polls'.map Poll.table) :
    evaluatedFrom limit runtime polls = evaluatedFrom limit runtime' polls' := by
  induction polls generalizing polls' runtime runtime' with
  | nil =>
    rw [List.map_nil, eq_comm, List.map_eq_nil_iff] at htables
    rw [htables]
    rfl
  | cons poll polls ih =>
    cases polls' with
    | nil => cases htables
    | cons poll' polls' =>
      rw [List.map_cons, List.map_cons, List.cons.injEq] at htables
      obtain ⟨htable, htables⟩ := htables
      have hfirst : evaluatedBy (runtime.runOnce limit poll).1 =
          evaluatedBy (runtime'.runOnce limit poll').1 := by
        rw [runOnce_evaluated hlimit, runOnce_evaluated hlimit, hcursor, htable]
      have hnext : (runtime.runOnce limit poll).2.cursor.map ProjectRecord.position =
          (runtime'.runOnce limit poll').2.cursor.map ProjectRecord.position := by
        rw [runOnce_cursor hlimit, runOnce_cursor hlimit, hcursor, htable]
      rw [evaluatedFrom_cons, evaluatedFrom_cons, hfirst, ih hnext htables]

end Sweep

theorem mem_activePositions {table : List ProjectRecord} {position : ℤᵒᵈ ×ₗ ℕ} :
    position ∈ activePositions table ↔
      ∃ record ∈ table, record.status = .active ∧ record.position = position := by
  simp [activePositions, and_assoc]

theorem mem_activeIds {table : List ProjectRecord} {id : UUID} :
    id ∈ activeIds table ↔ ∃ record ∈ table, record.status = .active ∧ record.id = id := by
  simp [activeIds, and_assoc]

theorem position_eq_iff {record record' : ProjectRecord} :
    record.position = record'.position ↔
      record.createdAt = record'.createdAt ∧ record.id = record'.id := by
  simp [ProjectRecord.position, Prod.ext_iff]

namespace Stable

variable {polls : List (Poll ρ)} (h : Stable polls)
include h

theorem positions_nodup : ∀ keys ∈ polls.map (fun poll => activePositions poll.table),
    keys.Nodup := by
  rw [List.forall_mem_map]
  intro poll hpoll
  have hids : (activeIds poll.table).Nodup :=
    (h.ids_nodup poll hpoll).sublist (List.filter_sublist.map _)
  have hsecond : activeIds poll.table =
      (activePositions poll.table).map fun position => (ofLex position).2 := by
    simp [activeIds, activePositions, ProjectRecord.position]
  rw [hsecond] at hids
  exact hids.of_map _

/-- An identifier has one position, whichever poll shows it. -/
theorem position_eq {poll poll' : Poll ρ} (hpoll : poll ∈ polls) (hpoll' : poll' ∈ polls)
    {record record' : ProjectRecord} (hrecord : record ∈ poll.table)
    (hrecord' : record' ∈ poll'.table) (hid : record.id = record'.id) :
    record.position = record'.position :=
  position_eq_iff.mpr
    ⟨h.created_once poll hpoll record hrecord poll' hpoll' record' hrecord' hid, hid⟩

theorem positions_perm {poll poll' : Poll ρ} (hpoll : poll ∈ polls) (hpoll' : poll' ∈ polls)
    (hids : (activeIds poll.table).Perm (activeIds poll'.table)) :
    (activePositions poll.table).Perm (activePositions poll'.table) := by
  have hsubset : ∀ {first second : Poll ρ}, first ∈ polls → second ∈ polls →
      activeIds first.table ⊆ activeIds second.table →
        activePositions first.table ⊆ activePositions second.table := by
    intro first second hfirst hsecond hsub position hposition
    obtain ⟨record, hrecord, hactive, rfl⟩ := mem_activePositions.mp hposition
    obtain ⟨record', hrecord', hactive', hid⟩ :=
      mem_activeIds.mp (hsub (mem_activeIds.mpr ⟨record, hrecord, hactive, rfl⟩))
    exact mem_activePositions.mpr
      ⟨record', hrecord', hactive', h.position_eq hsecond hfirst hrecord' hrecord hid⟩
  have hnodup := h.positions_nodup
  rw [List.forall_mem_map] at hnodup
  rw [List.perm_ext_iff_of_nodup (hnodup poll hpoll) (hnodup poll' hpoll')]
  intro position
  exact ⟨fun hp => hsubset hpoll hpoll' hids.subset hp,
    fun hp => hsubset hpoll' hpoll hids.symm.subset hp⟩

end Stable

/-- Three projects in batches of two: the evaluation of the second one fails in every poll. -/
def threeProjects : List ProjectRecord :=
  [1, 2, 3].map fun id =>
    { id, key := "p", name := "p", repositoryUrl := "", createdAt := 0 }

def failingPoll : Poll Unit where
  table := threeProjects
  evaluate id := if id = 2 then .error ⟨"RuntimeError", "isolated failure"⟩ else .ok ()

end JbOrchestrator.WorkerPresence
