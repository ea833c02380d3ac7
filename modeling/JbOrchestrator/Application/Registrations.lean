import JbOrchestrator.Application.Starvation
import JbOrchestrator.Lib.Results
import JbOrchestrator.Workflows.Composition

/-!
# Registrations — what the catalogs hold

Skills, phase packs and workflow definitions are registered one by one and never changed.  A record is
registered only if everything it refers to is, and its phase inputs fit.  `Registry.Complete` is that
property of the catalogs; it holds after every sequence of registrations.
-/

open Lib

namespace JbOrchestrator.Infrastructure

open Domain Workflows Application

namespace Registry

variable (registry : Registry)

/-! ## 1. Lookups -/

def phasePack (reference : PhasePackReference) : Option PhasePackDefinition :=
  registry.phasePacks.find? fun value => value.reference = reference

def skill (reference : SkillReference) : Option SkillDefinition :=
  registry.skills.find? fun value => value.reference = reference

/-- The row, or the error that names what is missing. -/
def require {α : Type} (noun : String) (reference : String × ℕ) : Option α → Except ServiceError α
  | none => .error (.resourceNotFound
      (noun ++ " not found: " ++ reference.1 ++ "@" ++ toString reference.2))
  | some row => .ok row

def findPhasePack (reference : String × ℕ) : Except ServiceError PhasePackDefinition :=
  require "phase pack" reference (registry.phasePack ⟨reference.1, reference.2⟩)

def findSkill (reference : String × ℕ) : Except ServiceError SkillDefinition :=
  require "skill" reference (registry.skill ⟨reference.1, reference.2⟩)

/-- The references of a definition to phase packs, in the order they are resolved. -/
def packReferences (definition : WorkflowDefinition) : List (String × ℕ) :=
  sortReferences (definition.nodes.filterMap fun node =>
    node.phasePack.map fun reference => (reference.key, reference.version))

/-- The references of a definition and its phase packs to skills, in the order they are resolved. -/
def skillReferences (definition : WorkflowDefinition) (phasePacks : List PhasePackDefinition) :
    List (String × ℕ) :=
  sortReferences ((definition.nodes.flatMap NodeDefinition.skills ++
    phasePacks.flatMap PhasePackDefinition.skills).map fun reference =>
      (reference.key, reference.version))

/-- `_resolve_phase_packs`. -/
def resolvePhasePacks (definition : WorkflowDefinition) :
    Except ServiceError (List PhasePackDefinition) :=
  (packReferences definition).mapM registry.findPhasePack

/-- `_resolve_skills`. -/
def resolveSkills (definition : WorkflowDefinition) (phasePacks : List PhasePackDefinition) :
    Except ServiceError (List SkillDefinition) :=
  (skillReferences definition phasePacks).mapM registry.findSkill

/-! ## 2. Registering -/

end Registry

inductive RegistrationError where
  | service (error : ServiceError)
  | definition (error : WorkflowDefinitionError)
  | contract (message : String)
  deriving DecidableEq, Repr

inductive Registration where
  | skill (skill : SkillDefinition)
  | phasePack (phasePack : PhasePackDefinition)
  | definition (definition : AcceptedDefinition)

namespace Registry

/-- `sorted(key for key in required if key not in mapped)`. -/
def missingPhaseInputs (node : NodeDefinition) (phasePack : PhasePackDefinition) : List String :=
  ((phasePack.inputs.filter PhaseInputDefinition.required).map PhaseInputDefinition.key).filter
    (· ∉ node.inputMappings.map NodeInputMapping.inputKey) |>.dedup.insertionSort (· ≤ ·)

/-- `_validate_phase_inputs`. -/
def validatePhaseInputs (definition : WorkflowDefinition) (phasePacks : List PhasePackDefinition) :
    Except WorkflowDefinitionError Unit :=
  forAll definition.nodes fun node =>
    forAll (node.phasePack.bind fun reference =>
        phasePacks.find? fun value => value.reference = reference).toList fun phasePack => do
      raiseIf (¬node.inputMappings.map NodeInputMapping.inputKey ⊆
          phasePack.inputs.map PhaseInputDefinition.key)
        ⟨"node " ++ node.key ++ " maps an undeclared input from " ++ phasePack.key⟩
      raiseIf (missingPhaseInputs node phasePack ≠ [])
        ⟨"node " ++ node.key ++ " is missing required phase inputs: " ++
          ", ".intercalate (missingPhaseInputs node phasePack)⟩

variable (registry : Registry)

def registerSkill (skill : SkillDefinition) : Except RegistrationError Registry := do
  raiseIf (registry.skill skill.reference).isSome (RegistrationError.service (.resourceConflict
    ("skill version already exists: " ++ skill.key ++ "@" ++ toString skill.version)))
  pure { registry with skills := registry.skills ++ [skill] }

/-- `checkContract` is `check_output_contract_schema`, the check of a JSON Schema. -/
def registerPhasePack (checkContract : JsonObject → Except String Unit)
    (phasePack : PhasePackDefinition) : Except RegistrationError Registry := do
  (checkContract phasePack.outputContract).mapError .contract
  raiseIf (registry.phasePack phasePack.reference).isSome (RegistrationError.service
    (.resourceConflict ("phase pack version already exists: " ++ phasePack.key ++ "@" ++
      toString phasePack.version)))
  let _ ← (phasePack.skills.mapM fun reference =>
    registry.findSkill (reference.key, reference.version)).mapError .service
  pure { registry with phasePacks := registry.phasePacks ++ [phasePack] }

/-- `register_definition`. -/
def registerDefinition (definition : AcceptedDefinition) : Except RegistrationError Registry := do
  raiseIf (registry.definitions.any fun stored =>
      stored.definition.key = definition.definition.key ∧
        stored.definition.version = definition.definition.version)
    (RegistrationError.service (.resourceConflict ("workflow definition already exists: " ++
      definition.definition.key ++ "@" ++ toString definition.definition.version)))
  let phasePacks ← (registry.resolvePhasePacks definition.definition).mapError .service
  let _ ← (registry.resolveSkills definition.definition phasePacks).mapError .service
  (validatePhaseInputs definition.definition phasePacks).mapError .definition
  pure { registry with definitions := registry.definitions ++ [definition] }

def register (checkContract : JsonObject → Except String Unit) :
    Registration → Except RegistrationError Registry
  | .skill skill => registry.registerSkill skill
  | .phasePack phasePack => registry.registerPhasePack checkContract phasePack
  | .definition definition => registry.registerDefinition definition

end Registry

/-- The catalogs as they answer registrations, each in a transaction of its own. -/
def catalogs (checkContract : JsonObject → Except String Unit) :
    Machine Registry Registration (Except RegistrationError Unit) where
  step registry registration :=
    match registry.register checkContract registration with
    | .ok after => (.ok (), after)
    | .error error => (.error error, registry)

/-! ## 3. What registrations keep -/

namespace Registry

/-- What is found stays as it is. -/
structure Grows (before after : Registry) : Prop where
  skill : ∀ {reference skill}, before.skill reference = some skill →
    after.skill reference = some skill
  phasePack : ∀ {reference phasePack}, before.phasePack reference = some phasePack →
    after.phasePack reference = some phasePack

section

variable {registry before after : Registry} {definition : WorkflowDefinition}
  {phasePacks : List PhasePackDefinition} {skills : List SkillDefinition}

theorem findSkill_eq_ok {reference : String × ℕ} {skill : SkillDefinition} :
    registry.findSkill reference = .ok skill ↔
      registry.skill ⟨reference.1, reference.2⟩ = some skill := by
  unfold findSkill
  cases registry.skill ⟨reference.1, reference.2⟩ <;> simp [require]

theorem findPhasePack_eq_ok {reference : String × ℕ} {phasePack : PhasePackDefinition} :
    registry.findPhasePack reference = .ok phasePack ↔
      registry.phasePack ⟨reference.1, reference.2⟩ = some phasePack := by
  unfold findPhasePack
  cases registry.phasePack ⟨reference.1, reference.2⟩ <;> simp [require]

theorem skill_reference {reference : SkillReference} {skill : SkillDefinition}
    (h : registry.skill reference = some skill) : skill.reference = reference := by
  simpa using List.find?_some h

theorem phasePack_reference {reference : PhasePackReference} {phasePack : PhasePackDefinition}
    (h : registry.phasePack reference = some phasePack) : phasePack.reference = reference := by
  simpa using List.find?_some h

/-- The resolved phase packs are the registered ones, in the order of the references. -/
theorem resolvePhasePacks_eq_ok : registry.resolvePhasePacks definition = .ok phasePacks ↔
    List.Forall₂ (fun reference phasePack =>
      registry.phasePack ⟨reference.1, reference.2⟩ = some phasePack)
      (packReferences definition) phasePacks := by
  unfold resolvePhasePacks
  rw [mapM_eq_ok]
  simp only [findPhasePack_eq_ok]

theorem resolveSkills_eq_ok : registry.resolveSkills definition phasePacks = .ok skills ↔
    List.Forall₂ (fun reference skill => registry.skill ⟨reference.1, reference.2⟩ = some skill)
      (skillReferences definition phasePacks) skills := by
  unfold resolveSkills
  rw [mapM_eq_ok]
  simp only [findSkill_eq_ok]

theorem Grows.refl (registry : Registry) : Grows registry registry := ⟨id, id⟩

theorem Grows.resolvePhasePacks (h : Grows before after)
    (hresolved : before.resolvePhasePacks definition = .ok phasePacks) :
    after.resolvePhasePacks definition = .ok phasePacks := by
  rw [resolvePhasePacks_eq_ok] at hresolved ⊢
  exact hresolved.imp fun _ _ => h.phasePack

theorem Grows.resolveSkills (h : Grows before after)
    (hresolved : before.resolveSkills definition phasePacks = .ok skills) :
    after.resolveSkills definition phasePacks = .ok skills := by
  rw [resolveSkills_eq_ok] at hresolved ⊢
  exact hresolved.imp fun _ _ => h.skill

/-- A definition whose references are registered and whose phase inputs fit. -/
structure Resolves (registry : Registry) (definition : WorkflowDefinition) : Prop where
  resolved : ∃ phasePacks skills, registry.resolvePhasePacks definition = .ok phasePacks ∧
    registry.resolveSkills definition phasePacks = .ok skills ∧
      validatePhaseInputs definition phasePacks = .ok ()

/-- Every registered definition resolves. -/
def Complete (registry : Registry) : Prop :=
  ∀ definition ∈ registry.definitions, registry.Resolves definition.definition

theorem Grows.resolves (h : Grows before after) (hresolves : before.Resolves definition) :
    after.Resolves definition := by
  obtain ⟨phasePacks, skills, hphasePacks, hskills, hinputs⟩ := hresolves.resolved
  exact ⟨phasePacks, skills, h.resolvePhasePacks hphasePacks, h.resolveSkills hskills, hinputs⟩

theorem grows_skills (registry : Registry) (rows : List SkillDefinition) :
    Grows registry { registry with skills := registry.skills ++ rows } where
  skill := by
    intro reference skill hskill
    unfold Registry.skill at hskill ⊢
    rw [List.find?_append, hskill]
    rfl
  phasePack := id

theorem grows_phasePacks (registry : Registry) (rows : List PhasePackDefinition) :
    Grows registry { registry with phasePacks := registry.phasePacks ++ rows } where
  skill := id
  phasePack := by
    intro reference phasePack hphasePack
    unfold Registry.phasePack at hphasePack ⊢
    rw [List.find?_append, hphasePack]
    rfl

theorem mapError_eq_ok {α ε ε' : Type} {x : Except ε α} {f : ε → ε'} {value : α} :
    x.mapError f = .ok value ↔ x = .ok value := by
  cases x <;> simp [Except.mapError]

/-- A registration adds to the catalogs; a definition it adds resolves. -/
theorem register_ok {checkContract : JsonObject → Except String Unit} {registration : Registration}
    (h : registry.register checkContract registration = .ok after) :
    Grows registry after ∧ ∀ definition ∈ after.definitions,
      definition ∈ registry.definitions ∨ registry.Resolves definition.definition := by
  cases registration with
  | skill skill =>
    change registry.registerSkill skill = _ at h
    unfold registerSkill at h
    obtain ⟨-, h⟩ := check_bind_eq_ok.mp h
    cases h
    exact ⟨grows_skills _ _, fun definition hdefinition => .inl hdefinition⟩
  | phasePack phasePack =>
    change registry.registerPhasePack checkContract phasePack = _ at h
    unfold registerPhasePack at h
    obtain ⟨-, h⟩ := check_bind_eq_ok.mp h
    obtain ⟨-, h⟩ := check_bind_eq_ok.mp h
    obtain ⟨_, -, h⟩ := bind_ok h
    cases h
    exact ⟨grows_phasePacks _ _, fun definition hdefinition => .inl hdefinition⟩
  | definition definition =>
    change registry.registerDefinition definition = _ at h
    unfold registerDefinition at h
    obtain ⟨-, h⟩ := check_bind_eq_ok.mp h
    obtain ⟨phasePacks, hphasePacks, h⟩ := bind_ok h
    obtain ⟨skills, hskills, h⟩ := bind_ok h
    obtain ⟨hinputs, h⟩ := check_bind_eq_ok.mp h
    cases h
    refine ⟨⟨id, id⟩, ?_⟩
    intro added hadded
    rcases List.mem_append.mp hadded with hbefore | hnew
    · exact .inl hbefore
    · right
      obtain rfl := List.mem_singleton.mp hnew
      exact ⟨phasePacks, skills, mapError_eq_ok.mp hphasePacks, mapError_eq_ok.mp hskills,
        mapError_eq_ok.mp hinputs⟩

/-- What one registration keeps. -/
theorem complete_step (checkContract : JsonObject → Except String Unit) (registry : Registry)
    (registration : Registration) (h : registry.Complete) :
    ((catalogs checkContract).step registry registration).2.Complete := by
  unfold catalogs
  dsimp only
  split
  · rename_i after hregister
    obtain ⟨hgrows, hdefinitions⟩ := register_ok hregister
    intro definition hdefinition
    rcases hdefinitions definition hdefinition with hbefore | hnew
    · exact hgrows.resolves (h definition hbefore)
    · exact hgrows.resolves hnew
  · exact h

/-- What every sequence of registrations keeps. -/
theorem complete_run (checkContract : JsonObject → Except String Unit) {registry : Registry}
    (h : registry.Complete) (registrations : List Registration) :
    ((catalogs checkContract).run registry registrations).Complete :=
  (catalogs checkContract).run_invariant (complete_step checkContract) h registrations

end

end Registry

end JbOrchestrator.Infrastructure

/-! ## 4. The statements of a transaction -/

namespace JbOrchestrator.Application

open Infrastructure Workflows

section

variable {settings : Settings} {world : World} {unitOfWork : UnitOfWork}

/-- A transaction resolves the phase packs as the catalogs do. -/
theorem serve_resolvePhasePacks (definition : WorkflowDefinition) :
    (services settings).serve (resolvePhasePacks definition) unitOfWork world =
      (world.database.registry.resolvePhasePacks definition).map (·, unitOfWork) := by
  refine (services settings).serve_forEach_eq ?_ _
  intro reference
  have hanswer : (Statement.phasePack ⟨reference.1, reference.2⟩).answer world.database
      (fun _ => false) unitOfWork =
        (world.database.registry.phasePack ⟨reference.1, reference.2⟩, unitOfWork) := rfl
  rw [serve_statement hanswer]
  unfold Registry.findPhasePack
  cases world.database.registry.phasePack ⟨reference.1, reference.2⟩ <;> rfl

theorem serve_resolveSkills (definition : WorkflowDefinition) (phasePacks : List PhasePackDefinition) :
    (services settings).serve (resolveSkills definition phasePacks) unitOfWork world =
      (world.database.registry.resolveSkills definition phasePacks).map (·, unitOfWork) := by
  refine (services settings).serve_forEach_eq ?_ _
  intro reference
  have hanswer : (Statement.skill ⟨reference.1, reference.2⟩).answer world.database
      (fun _ => false) unitOfWork =
        (world.database.registry.skill ⟨reference.1, reference.2⟩, unitOfWork) := rfl
  rw [serve_statement hanswer]
  unfold Registry.findSkill
  cases world.database.registry.skill ⟨reference.1, reference.2⟩ <;> rfl

end

end JbOrchestrator.Application
