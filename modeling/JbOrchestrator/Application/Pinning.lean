import JbOrchestrator.Application.Claiming
import JbOrchestrator.Lib.Results

/-!
# Pinning — what a workflow has copied at its start

`create_execution` copies the phase packs and the skills that the nodes name into the snapshot.  No
transaction changes a snapshot later, so every stored execution still has them.
-/

open Lib

namespace JbOrchestrator.Application

open Domain Workflows Infrastructure Infrastructure.Database

/-! ## 1. Snapshots -/

/-- The phase packs and the skills that the nodes name are in the snapshot. -/
structure Pinned (snapshot : WorkflowSnapshot) : Prop where
  phasePack : ∀ node ∈ snapshot.nodes, ∀ reference, node.phasePack = some reference →
    ∃ phasePack, snapshot.phasePack reference = some phasePack
  skill : ∀ node ∈ snapshot.nodes, ∀ reference ∈ node.skills,
    ∃ skill, snapshot.skill reference = some skill
  packSkill : ∀ phasePack ∈ snapshot.phasePacks, ∀ reference ∈ phasePack.skills,
    ∃ skill, snapshot.skill reference = some skill

/-- Whatever the other sessions commit between the statements, what the program returns satisfies `P`. -/
def Yields {β : Type} (settings : Settings) (p : Transaction β) (P : β → Prop) : Prop :=
  ∀ held unitOfWork world, (services settings).wp (fun _ _ _ => True) (fun _ _ _ => True)
    (fun _ _ _ _ => True) (fun _ _ value _ => P value) p held unitOfWork world

section

variable {settings : Settings} {β δ : Type} {p : Transaction δ} {f : δ → Transaction β}
  {P : β → Prop} {P' : δ → Prop}

theorem yields_bind (hp : Yields settings p P') (hf : ∀ value, P' value → Yields settings (f value) P) :
    Yields settings (p >>= f) P := by
  intro held unitOfWork world
  rw [(services settings).wp_bind]
  exact (services settings).wp_mono (fun _ _ _ _ h => h)
    (fun held unitOfWork value world hvalue => hf value hvalue held unitOfWork world)
    (hp held unitOfWork world)

theorem yields_mono {P P' : δ → Prop} (h : Yields settings p P') (himp : ∀ value, P' value → P value) :
    Yields settings p P :=
  fun held unitOfWork world => (services settings).wp_mono (fun _ _ _ _ h => h)
    (fun _ _ value _ => himp value) (h held unitOfWork world)

theorem yields_any (p : Transaction δ) : Yields settings p fun _ => True :=
  fun _ _ _ => (services settings).wp_always (fun _ _ _ _ => trivial) fun _ _ _ _ => trivial

/-- A step whose value does not matter. -/
theorem yields_then (hf : ∀ value, Yields settings (f value) P) : Yields settings (p >>= f) P :=
  yields_bind (yields_any p) fun value _ => hf value

theorem yields_pure {value : β} (h : P value) : Yields settings (pure value) P := fun _ _ _ => h

theorem yields_raise (error : ServiceError) : Yields settings (.raise error) P :=
  fun _ _ _ => trivial

theorem yields_perform {statement : Statement} {P : statement.Reply → Prop}
    (h : ∀ db taken unitOfWork, P (statement.answer db taken unitOfWork).1) :
    Yields settings (perform statement) P := by
  intro held unitOfWork world world' _ _ taken reply after acquired hexec
  obtain ⟨rfl, -⟩ := Statement.exec_eq_some hexec
  exact h world'.database taken unitOfWork

theorem yields_ofOption {x : Option β} {error : ServiceError} (h : ∀ value, x = some value → P value) :
    Yields settings (Program.ofOption error x) P :=
  fun _ _ _ => (services settings).wp_ofOption h fun _ => trivial

theorem yields_forEach {g : δ → Transaction β} {G : δ → β → Prop} {xs : List δ}
    (h : ∀ x, Yields settings (g x) (G x)) :
    Yields settings (Program.forEach g xs) fun values => List.Forall₂ G xs values :=
  fun _ _ _ => (services settings).wp_forEach (fun _ _ _ _ => trivial)
    fun x held unitOfWork world => h x held unitOfWork world

end

theorem mem_sortReferences {references : List (String × ℕ)} {reference : String × ℕ} :
    reference ∈ sortReferences references ↔ reference ∈ references := by
  unfold sortReferences
  rw [List.mem_insertionSort, List.mem_dedup]

/-! ## 2. Starting -/

section

variable {settings : Settings}

theorem resolvePhasePacks_yields (definition : WorkflowDefinition) :
    Yields settings (resolvePhasePacks definition) fun phasePacks =>
      ∀ node ∈ definition.nodes, ∀ reference, node.phasePack = some reference →
        ∃ phasePack ∈ phasePacks, phasePack.reference = reference := by
  have hloop : Yields settings (resolvePhasePacks definition) _ :=
    yields_forEach (G := fun reference phasePack => phasePack.reference = ⟨reference.1, reference.2⟩)
      fun reference => yields_bind
        (yields_perform (P := fun row : Option PhasePackDefinition => ∀ phasePack, row = some phasePack →
            phasePack.reference = ⟨reference.1, reference.2⟩)
          fun db taken unitOfWork phasePack hrow => by simpa using List.find?_some hrow)
        fun row hrow => yields_ofOption hrow
  apply yields_mono hloop
  intro phasePacks hphasePacks node hnode reference hreference
  refine exists_of_forall₂ hphasePacks (x := (reference.key, reference.version)) ?_
  rw [mem_sortReferences, List.mem_filterMap]
  exact ⟨node, hnode, by rw [hreference]; rfl⟩

theorem resolveSkills_yields (definition : WorkflowDefinition) (phasePacks : List PhasePackDefinition) :
    Yields settings (resolveSkills definition phasePacks) fun skills =>
      ∀ reference ∈ definition.nodes.flatMap NodeDefinition.skills ++
          phasePacks.flatMap PhasePackDefinition.skills,
        ∃ skill ∈ skills, skill.reference = reference := by
  have hloop : Yields settings (resolveSkills definition phasePacks) _ :=
    yields_forEach (G := fun reference skill => skill.reference = ⟨reference.1, reference.2⟩)
      fun reference => yields_bind
        (yields_perform (P := fun row : Option SkillDefinition => ∀ skill, row = some skill →
            skill.reference = ⟨reference.1, reference.2⟩)
          fun db taken unitOfWork skill hrow => by simpa using List.find?_some hrow)
        fun row hrow => yields_ofOption hrow
  apply yields_mono hloop
  intro skills hskills reference hreference
  refine exists_of_forall₂ hskills (x := (reference.key, reference.version)) ?_
  rw [mem_sortReferences]
  exact List.mem_map.mpr ⟨reference, hreference, rfl⟩

theorem find?_of_exists {α : Type} {p : α → Bool} {xs : List α} (h : ∃ x ∈ xs, p x = true) :
    ∃ x, xs.find? p = some x :=
  Option.isSome_iff_exists.mp (List.find?_isSome.mpr h)

/-- What `create_execution` copies. -/
theorem pinned_fromDefinition {definition : WorkflowDefinition} {runId : UUID}
    {context : Option WorkflowRequestContext} {phasePacks : List PhasePackDefinition}
    {skills : List SkillDefinition} {selections : List NodeModelSelection}
    (hphasePacks : ∀ node ∈ definition.nodes, ∀ reference, node.phasePack = some reference →
      ∃ phasePack ∈ phasePacks, phasePack.reference = reference)
    (hskills : ∀ reference ∈ definition.nodes.flatMap NodeDefinition.skills ++
      phasePacks.flatMap PhasePackDefinition.skills, ∃ skill ∈ skills, skill.reference = reference) :
    Pinned (WorkflowSnapshot.fromDefinition definition runId context phasePacks skills selections) where
  phasePack := by
    intro node hnode reference hreference
    obtain ⟨phasePack, hmem, hphasePack⟩ := hphasePacks node hnode reference hreference
    exact find?_of_exists ⟨phasePack, hmem, by simpa using hphasePack⟩
  skill := by
    intro node hnode reference hreference
    obtain ⟨skill, hmem, hskill⟩ := hskills reference
      (List.mem_append_left _ (List.mem_flatMap.mpr ⟨node, hnode, hreference⟩))
    exact find?_of_exists ⟨skill, hmem, by simpa using hskill⟩
  packSkill := by
    intro phasePack hphasePack reference hreference
    obtain ⟨skill, hmem, hskill⟩ := hskills reference
      (List.mem_append_right _ (List.mem_flatMap.mpr ⟨phasePack, hphasePack, hreference⟩))
    exact find?_of_exists ⟨skill, hmem, by simpa using hskill⟩

/-- Starting keeps the snapshot. -/
theorem startExecution_yields (definition : AcceptedDefinition) (runId : UUID)
    (context : WorkflowRequestContext) (phasePacks : List PhasePackDefinition)
    (skills : List SkillDefinition) (selections : List NodeModelSelection) (executionId : UUID)
    (nodeId : NodeKey → UUID) (now : Instant) :
    Yields settings (applyOperation (WorkflowExecution.create (WorkflowSnapshot.fromDefinition
        definition.definition runId (some context) phasePacks skills selections) executionId nodeId now)
          (.start now))
      fun execution => execution.snapshot = WorkflowSnapshot.fromDefinition definition.definition runId
        (some context) phasePacks skills selections := by
  have hcreates : definition.Creates (WorkflowExecution.create (WorkflowSnapshot.fromDefinition
      definition.definition runId (some context) phasePacks skills selections) executionId nodeId now) :=
    ⟨runId, some context, phasePacks, skills, selections, executionId, nodeId, now, rfl⟩
  unfold applyOperation
  split
  · rename_i u calls after hstep
    apply yields_pure
    exact (Stored.of_start hcreates (fun h => nomatch h) hstep).2.1
  · exact yields_raise _

theorem createExecution_yields (run : Run) (request : UserRequest) (project : Project)
    (definition : AcceptedDefinition) (source : String) (executionId : UUID)
    (nodeId : NodeKey → UUID) (now : Instant) :
    Yields settings
      (createExecution run request project definition source executionId nodeId now)
      fun execution => Pinned execution.snapshot := by
  refine yields_then fun record => yields_then fun existing => ?_
  split
  · exact yields_raise _
  refine yields_bind (resolvePhasePacks_yields definition.definition) fun phasePacks hphasePacks => ?_
  refine yields_bind (resolveSkills_yields definition.definition phasePacks) fun skills hskills => ?_
  refine yields_then fun selections => ?_
  refine yields_bind (startExecution_yields definition _ _ phasePacks skills selections _ _ _) ?_
  intro execution hsnapshot
  refine yields_then fun _ => yields_then fun _ => yields_then fun _ => yields_pure ?_
  rw [hsnapshot]
  exact pinned_fromDefinition hphasePacks hskills

theorem start_yields (runId : UUID) (key : String) (version : Option ℕ) (executionId : UUID)
    (nodeId : NodeKey → UUID) (now : Instant) :
    Yields settings (WorkflowService.start runId key version executionId nodeId now)
      fun execution => Pinned execution.snapshot :=
  yields_then fun _ => yields_then fun _ => yields_then fun _ => yields_then fun _ =>
    yields_then fun _ => yields_then fun _ => yields_then fun _ => yields_then fun _ =>
      createExecution_yields _ _ _ _ _ _ _ _

end

/-! ## 3. Runs -/

/-- An execution that `start` returns is pinned. -/
def PinsStart : Call → Result → Prop
  | .start .., .execution execution => Pinned execution.snapshot
  | _, _ => True

theorem program_yields (settings : Settings) (call : Call) :
    Yields settings (Call.program settings call) (PinsStart call) := by
  cases call with
  | start runId key version executionId nodeId now =>
    exact yields_bind (start_yields _ _ _ _ _ _) fun execution hpinned => yields_pure hpinned
  | _ =>
    apply yields_mono (yields_any _)
    intro result _
    cases result <;> trivial

/-- Every execution of the database is pinned. -/
def Database.Pinned (db : Database) : Prop :=
  ∀ id execution, db.executions.get? id = some execution → Application.Pinned execution.snapshot

/-- The stored snapshots are those of before and the one of a started execution. -/
theorem Commits.pinned {isolation : Isolation} {held : Set RowLock} {db db' : Database} {call : Call}
    {result : Result} (h : Commits isolation held db db' call result) (hpinned : Database.Pinned db)
    (hstarts : PinsStart call result) : Database.Pinned db' := by
  intro id execution hrow
  cases h with
  | idle _ hupdates => exact hpinned id execution (hupdates.executions ▸ hrow)
  | requested _ _ _ _ _ hupdates => exact hpinned id execution (hupdates.executions ▸ hrow)
  | cancelled _ _ _ _ _ _ _ _ hupdates => exact hpinned id execution (hupdates.executions ▸ hrow)
  | started _ _ _ _ _ _ hupdates =>
    rw [hupdates.executions, Dict.get?_set] at hrow
    split at hrow
    · obtain rfl := Option.some.inj hrow
      exact hstarts
    · exact hpinned id execution hrow
  | operated hstored _ _ _ _ _ _ _ hupdates =>
    rw [hupdates.executions, Dict.get?_set] at hrow
    split at hrow
    · obtain rfl := Option.some.inj hrow
      have hbefore := hpinned _ _ hstored
      exact hbefore
    · exact hpinned id execution hrow

theorem verified_pinsStart (settings : Settings) (call : Call) :
    (services settings).Verified (fun _ _ _ => True) (fun _ _ _ _ => True) (fun _ => True)
      (fun call result _ _ _ => PinsStart call result) (fun _ _ _ => True) call := by
  intro world _
  apply (services settings).wp_mono _ _ (program_yields settings call ∅ {} world)
  · intro held unitOfWork error world' _ world'' _ _
    trivial
  · intro held unitOfWork result world' hresult world'' _ _
    split
    · exact hresult
    · trivial

/-- What holds of the database after every commit holds after every run. -/
theorem interleaved_starts (settings : Settings) (world : World) (inputs : List (Store.Input Call)) :
    ∀ t ∈ (services settings).machine.trace ((services settings).initial world) inputs,
      (services settings).Respects (fun call result _ _ _ => PinsStart call result)
        (fun _ _ _ => True) t := by
  intro t ht
  have hcoherent := (services settings).coherent_initial (fun _ _ _ => True) (fun _ _ _ _ => True)
    (fun _ => True) (fun call result _ _ _ => PinsStart call result) (fun _ _ _ => True) (d := world)
    trivial
  refine (Store.trace_spec (fun _ _ => trivial) (fun _ _ _ _ _ _ => trivial)
    (fun _ _ => ⟨trivial, fun _ _ => trivial⟩) (verified_pinsStart settings) hcoherent ?_).2 t ht |>.2
  intro t _ i session statement next _ _ _ _
  trivial

/-- Every execution that the sessions have stored is pinned. -/
theorem interleaved_pinned (settings : Settings) {world : World} (hblank : Blank world.database)
    (inputs : List (Store.Input Call)) :
    Database.Pinned
      ((services settings).machine.run ((services settings).initial world) inputs).shared.database := by
  have hsteps := (@interleaved_spec settings ⟨False, False⟩ world hblank.aligned.consistent inputs
    (fun h => h.elim) fun h => h.elim).2
  have hstarts := interleaved_starts settings world inputs
  refine ((services settings).machine.trace_keeps
    (Q := fun config => Database.Pinned config.shared.database) ?_ ?_).1
  · intro id execution hrow
    rw [show ((services settings).initial world).shared = world from rfl, hblank.executions] at hrow
    cases hrow
  · intro t ht hpinned
    have hstep := (hsteps t ht).2
    have hstart := hstarts t ht
    unfold SessionStep Store.Respects at hstep
    unfold Store.Respects at hstart
    split at hstep
    · rename_i call result houtput
      rw [houtput] at hstart
      obtain ⟨held, -, hcommits⟩ := hstep
      obtain ⟨-, hresult⟩ := hstart
      exact hcommits.pinned hpinned hresult
    · rw [hstep.2]
      exact hpinned
    · rw [hstep]
      exact hpinned

end JbOrchestrator.Application
