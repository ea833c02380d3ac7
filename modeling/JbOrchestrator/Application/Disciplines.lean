import JbOrchestrator.Application.Calls

/-!
# Disciplines — serial calls and interleaved sessions

Calls that run one after the other meet no anomaly.  Interleaved sessions rely on their row locks
alone; two conditions on the statements of a run exclude the anomalies that the locks leave.
-/

open Lib

namespace JbOrchestrator.Application

open Domain Workflows Infrastructure Infrastructure.Database

/-! ## 1. Candidates -/

theorem mem_join {db : Database} {filter : WorkflowExecution → NodeExecution → Bool}
    {candidate : Candidate} (h : candidate ∈ db.join filter) :
    ∃ execution key, db.executions.get? candidate.executionId = some execution ∧
      execution.nodes.get? key = some candidate.node ∧
      filter execution candidate.node = true := by
  obtain ⟨id, -, hmem⟩ := List.mem_flatMap.mp h
  cases hrow : db.executions.get? id with
  | none =>
    rw [hrow] at hmem
    cases hmem
  | some execution =>
    rw [hrow] at hmem
    obtain ⟨node, hnode, rfl⟩ := List.mem_map.mp hmem
    obtain ⟨hnode, hfilter⟩ := List.mem_filter.mp hnode
    obtain ⟨key, -, hkey⟩ := List.mem_filterMap.mp hnode
    exact ⟨execution, key, hrow, hkey, hfilter⟩

/-- A candidate is a committed node row when its query runs. -/
theorem IsCandidate.row {db : Database} (hdb : db.Consistent) {candidate : Candidate}
    (h : IsCandidate db candidate) :
    ∃ execution, db.executions.get? candidate.executionId = some execution ∧
      execution.nodes.get? candidate.node.nodeKey = some candidate.node := by
  obtain ⟨filter, hmem⟩ : ∃ filter, candidate ∈ db.join filter := by
    rcases h with ⟨executorKeys, h⟩ | ⟨changedAt, h⟩
    · exact ⟨_, (List.mem_insertionSort _).mp h⟩
    · exact ⟨_, (List.mem_insertionSort _).mp h⟩
  obtain ⟨execution, key, hrow, hnode, -⟩ := mem_join hmem
  refine ⟨execution, hrow, ?_⟩
  rw [(hdb.stored _ _ hrow).sound.nodeKey key _ hnode]
  exact hnode

/-! ## 2. Serial calls -/

def serial : Discipline ⟨True, True⟩ where
  rely _ world world' := world = world'
  guard _ _ _ _ := True
  refl _ _ := rfl
  trans _ _ _ _ := Eq.trans
  mono _ h := h
  rows h := h ▸ Rely.refl _ _
  fresh := by
    rintro - call held world world' unitOfWork candidate stored hworld hcandidate rfl - hrow
    obtain ⟨execution, hrow', hnode⟩ := IsCandidate.row hworld hcandidate
    obtain rfl := Option.some.inj (hrow.symm.trans hrow')
    exact hnode
  settled := by
    rintro - held world world' unitOfWork runId now hnone - rfl -
    exact hnone

/-- What a serial call does. -/
def SerialStep (t : Transition World Call (Except ServiceError Result)) : Prop :=
  Store.Serves (WorldCommits ⟨True, True⟩) (Raises ⟨True, True⟩) t

theorem serial_spec (settings : Settings) {world : World} (hworld : world.Consistent)
    (calls : List Call) :
    ((services settings).serial.run world calls).Consistent ∧
      ∀ t ∈ (services settings).serial.trace world calls, t.before.Consistent ∧ SerialStep t :=
  (services settings).serial_spec serial.refl (fun _ _ _ _ => trivial)
    (fun hd hcommits => (hcommits.2.spec hd).1) (correct serial settings) hworld calls

/-! ## 3. Interleaved sessions -/

/-- The node row of a candidate is unchanged when its execution is locked. -/
def freshCandidate (_ : Call) (world : World) (_ : UnitOfWork) (statement : Statement) : Prop :=
  ∀ candidate stored, statement = .lockCandidate candidate →
    world.database.executions.get? candidate.executionId = some stored →
    stored.nodes.get? candidate.node.nodeKey = some candidate.node

/-- A `cancel_run` that has loaded no execution locks the run while it has none. -/
def settledCancel (call : Call) (world : World) (unitOfWork : UnitOfWork) (statement : Statement) :
    Prop :=
  ∀ runId now, call = .cancelRun runId now → statement = .run runId true →
    unitOfWork.executions = .empty → world.database.Unstarted runId

def interleaved (isolation : Isolation) : Discipline isolation where
  rely held world world' := Rely held world.database world'.database
  guard call world unitOfWork statement :=
    (isolation.freshNodes → freshCandidate call world unitOfWork statement) ∧
      (isolation.settledRuns → settledCancel call world unitOfWork statement)
  refl held world := Rely.refl held world.database
  trans _ _ _ _ := Rely.trans
  mono := Rely.mono
  rows h := h
  fresh := by
    rintro hfresh call held world world' unitOfWork candidate stored - - - ⟨hguard, -⟩ hrow
    exact hguard hfresh candidate stored rfl hrow
  settled := by
    rintro hsettled held world world' unitOfWork runId now - hnone - ⟨-, hguard⟩
    exact hguard hsettled runId now rfl rfl hnone

/-- The steps of the sessions over the services. -/
abbrev ServiceStep (settings : Settings) := (services settings).Step

/-- What a step of the sessions does. -/
def SessionStep (isolation : Isolation) {settings : Settings} (t : ServiceStep settings) : Prop :=
  (services settings).Respects (WorldCommits isolation) (Raises isolation) t

theorem interleaved_spec (settings : Settings) (isolation : Isolation) {world : World}
    (hworld : world.Consistent) {inputs : List (Store.Input Call)}
    (hfresh : isolation.freshNodes →
      ∀ t ∈ (services settings).machine.trace ((services settings).initial world) inputs,
        (services settings).Guarded freshCandidate t)
    (hsettled : isolation.settledRuns →
      ∀ t ∈ (services settings).machine.trace ((services settings).initial world) inputs,
        (services settings).Guarded settledCancel t) :
    ((services settings).machine.run ((services settings).initial world) inputs).shared.Consistent ∧
      ∀ t ∈ (services settings).machine.trace ((services settings).initial world) inputs,
        t.before.shared.Consistent ∧ SessionStep isolation t := by
  refine Store.trace_spec (interleaved isolation).refl (interleaved isolation).trans ?_
    (correct (interleaved isolation) settings)
    ((services settings).coherent_initial _ _ _ _ _ hworld) ?_
  · intro call value held world world' hd hcommits
    exact hcommits.2.spec hd
  · intro t ht i session statement next hinput hsession hprogram houtput
    exact ⟨fun h => hfresh h t ht i session statement next hinput hsession hprogram houtput,
      fun h => hsettled h t ht i session statement next hinput hsession hprogram houtput⟩

end JbOrchestrator.Application
