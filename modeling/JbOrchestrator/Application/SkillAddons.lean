import JbOrchestrator.Application.Registrations

/-!
# SkillAddons — the skills that a request adds to its workflow

A dispatch normalizes the add-ons of its request, composes the definition with them and creates the
execution from what it composed.  The composed definition is valid, its snapshot resolves exactly, and
the claim of a node carries the skills of the node, of the add-ons and of the phase pack.
-/

open Lib

namespace JbOrchestrator.Application

open Workflows Infrastructure

/-! ## 1. Normalizing -/

structure NodeSkillAddon where
  nodeKey : String
  skills : List SkillReference
  deriving DecidableEq, Repr

def NodeSkillAddon.normalized (addon : NodeSkillAddon) : NodeSkillAddon where
  nodeKey := Text.strip addon.nodeKey
  skills := sortSkills addon.skills

def NodeSkillAddon.check (addon : NodeSkillAddon) : Except ServiceError Unit := do
  raiseIf (Text.strip addon.nodeKey = "")
    (ServiceError.resourceConflict "request skill add-on node key must not be empty")
  raiseIf (sortSkills addon.skills = [])
    (ServiceError.resourceConflict "request skill add-on requires at least one skill")

/-- `_normalize_skill_addons`. -/
def normalizeSkillAddons (addons : List NodeSkillAddon) :
    Except ServiceError (List NodeSkillAddon) := do
  raiseIf (¬(addons.map fun addon => Text.strip addon.nodeKey).Nodup)
    (ServiceError.resourceConflict "request skill add-on node keys must be unique")
  forAll addons NodeSkillAddon.check
  pure (sortBy NodeSkillAddon.nodeKey (addons.map NodeSkillAddon.normalized))

/-- The request adds the skill to the node. -/
def Adds (addons : List NodeSkillAddon) (key : NodeKey) (reference : SkillReference) : Prop :=
  ∃ addon ∈ addons, Text.strip addon.nodeKey = key ∧ reference ∈ addon.skills

/-- Two requests with the same add-ons up to the order of the nodes, the blanks around their keys and
the order and the repetitions of the skills. -/
def SameAddons (addons addons' : List NodeSkillAddon) : Prop :=
  ∃ reordered, reordered.Perm addons' ∧ List.Forall₂ (fun addon addon' =>
    Text.strip addon.nodeKey = Text.strip addon'.nodeKey ∧
      ∀ reference, reference ∈ addon.skills ↔ reference ∈ addon'.skills) addons reordered

section

variable {addons addons' normalized : List NodeSkillAddon}

theorem normalizeSkillAddons_eq_ok : normalizeSkillAddons addons = .ok normalized ↔
    ((addons.map NodeSkillAddon.normalized).map NodeSkillAddon.nodeKey).Nodup ∧
      (∀ addon ∈ addons, Text.strip addon.nodeKey ≠ "" ∧ addon.skills ≠ []) ∧
        sortBy NodeSkillAddon.nodeKey (addons.map NodeSkillAddon.normalized) = normalized := by
  unfold normalizeSkillAddons NodeSkillAddon.check
  simp only [check_bind_eq_ok, forAll_eq_ok, raiseIf_eq_ok, not_not, List.map_map, sortSkills_eq_nil]
  refine and_congr Iff.rfl (and_congr Iff.rfl ?_)
  exact ⟨Except.ok.inj, congrArg Except.ok⟩

theorem SameAddons.normalize (h : SameAddons addons addons')
    (hnormalized : normalizeSkillAddons addons' = .ok normalized) :
    normalizeSkillAddons addons = .ok normalized := by
  obtain ⟨reordered, hperm, hsame⟩ := h
  obtain ⟨hnodup, hchecked, hsorted⟩ := normalizeSkillAddons_eq_ok.mp hnormalized
  have hmap : addons.map NodeSkillAddon.normalized = reordered.map NodeSkillAddon.normalized := by
    rw [← List.forall₂_eq_eq_eq, List.forall₂_map_left_iff, List.forall₂_map_right_iff]
    refine hsame.imp ?_
    intro addon addon' hpair
    unfold NodeSkillAddon.normalized
    rw [hpair.1, sortSkills_congr hpair.2]
  have hperm' := hperm.map NodeSkillAddon.normalized
  apply normalizeSkillAddons_eq_ok.mpr
  refine ⟨?_, ?_, ?_⟩
  · rw [hmap]
    exact ((hperm'.map NodeSkillAddon.nodeKey).nodup_iff).mpr hnodup
  · intro addon haddon
    obtain ⟨addon', haddon', hkey, hskills⟩ : ∃ addon' ∈ reordered,
        Text.strip addon.nodeKey = Text.strip addon'.nodeKey ∧
          ∀ reference, reference ∈ addon.skills ↔ reference ∈ addon'.skills :=
      exists_of_forall₂ hsame haddon
    obtain ⟨hnode, hsome⟩ := hchecked addon' (hperm.mem_iff.mp haddon')
    refine ⟨by rw [hkey]; exact hnode, ?_⟩
    intro hnil
    apply hsome
    rw [List.eq_nil_iff_forall_not_mem]
    intro reference hreference
    rw [← hskills reference, hnil] at hreference
    exact List.not_mem_nil hreference
  · rw [hmap, ← hsorted]
    exact SortBy.eq_of_perm hnodup hperm'

end

/-! ## 2. Composing -/

/-- `additions_by_node`. -/
def additions (addons : List NodeSkillAddon) (key : NodeKey) : Option (List SkillReference) :=
  (addons.find? fun addon => addon.nodeKey = key).map NodeSkillAddon.skills

/-- The constructors of a definition, which `replace` calls again. -/
def accept (definition : WorkflowDefinition) : Except WorkflowDefinitionError AcceptedDefinition :=
  match h : definition.construct with
  | .ok () => .ok ⟨definition, h⟩
  | .error error => .error error

theorem accept_eq_ok {definition : WorkflowDefinition} (h : definition.construct = .ok ()) :
    accept definition = .ok ⟨definition, h⟩ := by
  unfold accept
  split
  · rfl
  · rename_i error herror
    rw [h] at herror
    cases herror

namespace RequestDispatchService

/-- The round of `_apply_skill_addons` for one node. -/
def admitAddon (definition : WorkflowDefinition) (addon : NodeSkillAddon) : Transaction Unit :=
  match definition.node addon.nodeKey with
  | none =>
    .raise (.resourceConflict ("request skill add-on node not found: " ++ addon.nodeKey))
  | some node =>
    if node.kind ≠ .task then
      .raise (.resourceConflict ("request skill add-ons require a task node: " ++ addon.nodeKey))
    else do
      let _ ← Program.forEach
        (fun reference : SkillReference => do
          let row ← perform (.skill reference)
          Program.ofOption (.resourceNotFound
            ("skill not found: " ++ reference.key ++ "@" ++ toString reference.version)) row)
        addon.skills
      pure ()

/-- `_apply_skill_addons`. -/
def applySkillAddons (definition : AcceptedDefinition) (addons : List NodeSkillAddon) :
    Transaction (Except WorkflowDefinitionError AcceptedDefinition) :=
  if addons = [] then pure (.ok definition)
  else do
    let _ ← Program.forEach (admitAddon definition.definition) addons
    pure (accept (definition.definition.extend (additions addons)))

/-- What `dispatch` makes of the selected definition. -/
def composeRequested (definition : AcceptedDefinition) (addons : List NodeSkillAddon) :
    Transaction (Except WorkflowDefinitionError AcceptedDefinition) := do
  let normalized ← Program.ofExcept (normalizeSkillAddons addons)
  applySkillAddons definition normalized

/-- The snapshot that `create_execution` copies from the catalogs. -/
def createSnapshot (definition : WorkflowDefinition) (runId : UUID)
    (context : WorkflowRequestContext) : Transaction WorkflowSnapshot := do
  let phasePacks ← resolvePhasePacks definition
  let skills ← resolveSkills definition phasePacks
  let modelSelections ← routeModels definition
  pure (WorkflowSnapshot.fromDefinition definition runId (some context) phasePacks skills
    modelSelections)

end RequestDispatchService

/-- The add-ons that a dispatch accepts: each names a task of the definition and registered skills. -/
structure Admitted (registry : Registry) (definition : WorkflowDefinition)
    (addons normalized : List NodeSkillAddon) : Prop where
  normalizes : normalizeSkillAddons addons = .ok normalized
  task : ∀ addon ∈ normalized, ∃ node, definition.node addon.nodeKey = some node ∧ node.kind = .task
  skill : ∀ addon ∈ normalized, ∀ reference ∈ addon.skills,
    ∃ skill, registry.skill reference = some skill

section

variable {settings : Settings} {world : World} {unitOfWork after : UnitOfWork}
  {definition : AcceptedDefinition} {addons normalized : List NodeSkillAddon}
  {outcome : Except WorkflowDefinitionError AcceptedDefinition}

/-- What the round of one node does, on the catalogs. -/
def admits (registry : Registry) (definition : WorkflowDefinition) (addon : NodeSkillAddon) :
    Except ServiceError Unit :=
  match definition.node addon.nodeKey with
  | none =>
    .error (.resourceConflict ("request skill add-on node not found: " ++ addon.nodeKey))
  | some node =>
    if node.kind ≠ .task then
      .error (.resourceConflict ("request skill add-ons require a task node: " ++ addon.nodeKey))
    else do
      let _ ← addon.skills.mapM fun reference => registry.findSkill (reference.key, reference.version)
      pure ()

theorem serve_admitAddon (addon : NodeSkillAddon) :
    (services settings).serve (RequestDispatchService.admitAddon definition.definition addon) unitOfWork
      world = (admits world.database.registry definition.definition addon).map (·, unitOfWork) := by
  unfold RequestDispatchService.admitAddon admits
  cases definition.definition.node addon.nodeKey with
  | none => rfl
  | some node =>
    dsimp only
    split
    · rfl
    · have hround : ∀ reference : SkillReference, (services settings).serve (do
          let row ← perform (.skill reference)
          Program.ofOption (.resourceNotFound
            ("skill not found: " ++ reference.key ++ "@" ++ toString reference.version)) row :
              Transaction SkillDefinition) unitOfWork world =
          (world.database.registry.findSkill (reference.key, reference.version)).map
            (·, unitOfWork) := by
        intro reference
        have hanswer : (Statement.skill reference).answer world.database (fun _ => false) unitOfWork =
            (world.database.registry.skill reference, unitOfWork) := rfl
        rw [serve_statement hanswer]
        unfold Registry.findSkill
        cases world.database.registry.skill ⟨reference.key, reference.version⟩ <;> rfl
      rw [(services settings).serve_bind, (services settings).serve_forEach_eq hround]
      cases addon.skills.mapM fun reference =>
        world.database.registry.findSkill (reference.key, reference.version) <;> rfl

theorem admits_eq_ok {registry : Registry} {addon : NodeSkillAddon} :
    admits registry definition.definition addon = .ok () ↔
      (∃ node, definition.definition.node addon.nodeKey = some node ∧ node.kind = .task) ∧
        ∀ reference ∈ addon.skills, ∃ skill, registry.skill reference = some skill := by
  have hskills : (∃ skills, (addon.skills.mapM fun reference =>
      registry.findSkill (reference.key, reference.version)) = .ok skills) ↔
        ∀ reference ∈ addon.skills, ∃ skill, registry.skill reference = some skill := by
    rw [exists_mapM_iff]
    simp only [Registry.findSkill_eq_ok]
  unfold admits
  cases definition.definition.node addon.nodeKey with
  | none => simp
  | some node =>
    dsimp only
    split
    · rename_i hkind
      simp [hkind]
    · rename_i hkind
      rw [← hskills]
      constructor
      · intro h
        obtain ⟨skills, hresult, -⟩ := bind_ok h
        exact ⟨⟨node, rfl, not_not.mp hkind⟩, skills, hresult⟩
      · rintro ⟨-, skills, hresult⟩
        rw [hresult]
        rfl

theorem extend_additions_nil : definition.definition.extend (additions []) = definition.definition := by
  have hnodes : definition.definition.nodes.map (NodeDefinition.extend (additions [])) =
      definition.definition.nodes := List.map_id _
  unfold WorkflowDefinition.extend
  rw [hnodes]

/-- Which requests are composed, and with what result. -/
theorem serve_composeRequested : (services settings).serve
      (RequestDispatchService.composeRequested definition addons) unitOfWork world =
        .ok (outcome, after) ↔
    after = unitOfWork ∧ ∃ normalized, Admitted world.database.registry definition.definition addons
      normalized ∧ outcome = accept (definition.definition.extend (additions normalized)) := by
  unfold RequestDispatchService.composeRequested
  cases hnormalized : normalizeSkillAddons addons with
  | error error =>
    constructor
    · intro h
      cases h
    · rintro ⟨-, normalized, hadmitted, -⟩
      have hnormalizes := hadmitted.normalizes
      rw [hnormalized] at hnormalizes
      cases hnormalizes
  | ok normalized =>
    have hadmitted : Admitted world.database.registry definition.definition addons normalized ↔
        ∀ addon ∈ normalized, admits world.database.registry definition.definition addon = .ok () := by
      simp only [admits_eq_ok]
      constructor
      · intro h addon haddon
        exact ⟨h.task addon haddon, h.skill addon haddon⟩
      · intro h
        exact ⟨hnormalized, fun addon haddon => (h addon haddon).1,
          fun addon haddon => (h addon haddon).2⟩
    have hunique : (∃ value, Admitted world.database.registry definition.definition addons value ∧
        outcome = accept (definition.definition.extend (additions value))) ↔
        Admitted world.database.registry definition.definition addons normalized ∧
          outcome = accept (definition.definition.extend (additions normalized)) := by
      constructor
      · rintro ⟨value, hvalue, houtcome⟩
        have hnormalizes := hvalue.normalizes
        rw [hnormalized] at hnormalizes
        cases hnormalizes
        exact ⟨hvalue, houtcome⟩
      · intro h
        exact ⟨normalized, h⟩
    rw [hunique, hadmitted]
    show (services settings).serve (RequestDispatchService.applySkillAddons definition normalized)
      unitOfWork world = _ ↔ _
    unfold RequestDispatchService.applySkillAddons
    by_cases hempty : normalized = []
    · subst hempty
      rw [if_pos rfl, extend_additions_nil, accept_eq_ok definition.accepted]
      constructor
      · intro h
        cases h
        exact ⟨rfl, fun addon haddon => absurd haddon List.not_mem_nil, rfl⟩
      · rintro ⟨rfl, -, rfl⟩
        rfl
    · rw [if_neg hempty, (services settings).serve_bind,
        (services settings).serve_forEach_eq serve_admitAddon]
      cases hadmits : normalized.mapM (admits world.database.registry definition.definition) with
      | error error =>
        constructor
        · intro h
          cases h
        · rintro ⟨-, hall, -⟩
          have hexists := exists_mapM_iff.mpr fun addon haddon => ⟨(), hall addon haddon⟩
          obtain ⟨units, hunits⟩ := hexists
          rw [hadmits] at hunits
          cases hunits
      | ok units =>
        have hall : ∀ addon ∈ normalized,
            admits world.database.registry definition.definition addon = .ok () := by
          intro addon haddon
          obtain ⟨_, hadmitted⟩ := exists_mapM_iff.mp ⟨units, hadmits⟩ addon haddon
          exact hadmitted
        constructor
        · intro h
          cases h
          exact ⟨rfl, hall, rfl⟩
        · rintro ⟨rfl, -, rfl⟩
          rfl

/-! ## 3. What is composed -/

theorem additions_isSome {key : NodeKey} (h : (additions normalized key).isSome = true) :
    ∃ addon ∈ normalized, addon.nodeKey = key := by
  unfold additions at h
  rw [Option.isSome_map] at h
  simpa using h

/-- The skills that the composition adds are those of the request. -/
theorem additions_iff (h : normalizeSkillAddons addons = .ok normalized) {key : NodeKey}
    {reference : SkillReference} :
    (∃ skills, additions normalized key = some skills ∧ reference ∈ skills) ↔
      Adds addons key reference := by
  obtain ⟨hnodup, -, rfl⟩ := normalizeSkillAddons_eq_ok.mp h
  constructor
  · rintro ⟨skills, hskills, hreference⟩
    obtain ⟨addon, haddon, rfl⟩ := Option.map_eq_some_iff.mp hskills
    have hkey : addon.nodeKey = key := by simpa using List.find?_some haddon
    obtain ⟨raw, hraw, rfl⟩ := List.mem_map.mp (SortBy.mem_iff.mp (List.mem_of_find?_eq_some haddon))
    exact ⟨raw, hraw, hkey, mem_sortSkills.mp hreference⟩
  · rintro ⟨raw, hraw, hkey, hreference⟩
    have hmem : raw.normalized ∈ sortBy NodeSkillAddon.nodeKey (addons.map NodeSkillAddon.normalized) :=
      SortBy.mem_iff.mpr (List.mem_map_of_mem hraw)
    obtain ⟨addon, haddon⟩ := find?_of_exists
      (p := fun addon : NodeSkillAddon => addon.nodeKey = key) ⟨_, hmem, decide_eq_true hkey⟩
    -- the node keys are distinct, so it is the same add-on
    have hfound : addon.nodeKey = key := by simpa using List.find?_some haddon
    have hsame : addon = raw.normalized :=
      List.inj_on_of_nodup_map hnodup (SortBy.mem_iff.mp (List.mem_of_find?_eq_some haddon))
        (SortBy.mem_iff.mp hmem) (hfound.trans hkey.symm)
    refine ⟨addon.skills, by unfold additions; rw [haddon]; rfl, ?_⟩
    rw [hsame]
    exact mem_sortSkills.mpr hreference

theorem Admitted.task_of_additions {registry : Registry} {definition : AcceptedDefinition}
    (h : Admitted registry definition.definition addons normalized) {node : NodeDefinition}
    (hnode : node ∈ definition.definition.nodes)
    (hadditions : (additions normalized node.key).isSome = true) : node.kind = .task := by
  obtain ⟨addon, haddon, hkey⟩ := additions_isSome hadditions
  obtain ⟨named, hnamed, hkind⟩ := h.task addon haddon
  have hfound := WorkflowGraph.node_of_mem definition.wellFormed.keys_nodup hnode
  rw [hkey] at hnamed
  rw [hfound] at hnamed
  rw [Option.some.inj hnamed]
  exact hkind

theorem Admitted.construct {registry : Registry} {definition : AcceptedDefinition}
    (h : Admitted registry definition.definition addons normalized) :
    (definition.definition.extend (additions normalized)).construct = .ok () :=
  WorkflowDefinition.construct_extend definition.accepted fun _ hnode hadditions =>
    h.task_of_additions hnode hadditions

/-- The same add-ons are accepted for the composed definition. -/
theorem Admitted.again {registry : Registry} {definition : WorkflowDefinition}
    (h : Admitted registry definition addons normalized) :
    Admitted registry (definition.extend (additions normalized)) addons normalized where
  normalizes := h.normalizes
  skill := h.skill
  task := by
    intro addon haddon
    obtain ⟨node, hnode, hkind⟩ := h.task addon haddon
    refine ⟨node.extend (additions normalized), ?_, by rw [NodeDefinition.extend_kind]; exact hkind⟩
    rw [WorkflowDefinition.extend_graph, WorkflowGraph.extend_node, hnode]
    rfl

theorem extend_extend {definition : WorkflowDefinition} {more : NodeKey → Option (List SkillReference)} :
    (definition.extend more).extend more = definition.extend more := by
  have hnodes : ((definition.nodes.map (NodeDefinition.extend more)).map (NodeDefinition.extend more)) =
      definition.nodes.map (NodeDefinition.extend more) := by
    rw [List.map_map]
    exact List.map_congr_left fun node _ => NodeDefinition.extend_extend
  unfold WorkflowDefinition.extend
  dsimp only
  rw [hnodes]

/-- What becomes of one node: its skills and those that the request adds to it, and only a task that
the request names changes at all. -/
structure NodeExtends (addons : List NodeSkillAddon) (node composed : NodeDefinition) : Prop where
  rest : composed = { node with skills := composed.skills }
  skills : ∀ reference, reference ∈ composed.skills ↔
    reference ∈ node.skills ∨ Adds addons node.key reference
  named : composed = node ∨
    node.kind = .task ∧ ∃ addon ∈ addons, Text.strip addon.nodeKey = node.key

/-- A definition with the add-ons of a request. -/
structure Extends (addons : List NodeSkillAddon) (definition composed : WorkflowDefinition) : Prop where
  rest : composed = { definition with nodes := composed.nodes }
  nodes : List.Forall₂ (NodeExtends addons) definition.nodes composed.nodes

theorem Admitted.nodeExtends {registry : Registry} {definition : AcceptedDefinition}
    (h : Admitted registry definition.definition addons normalized) {node : NodeDefinition}
    (hnode : node ∈ definition.definition.nodes) :
    NodeExtends addons node (node.extend (additions normalized)) where
  rest := by
    obtain ⟨skills, hskills⟩ := NodeDefinition.extend_eq (additions normalized) node
    rw [hskills]
  skills := by
    intro reference
    rw [NodeDefinition.mem_extend_skills, additions_iff h.normalizes]
  named := by
    by_cases hadditions : (additions normalized node.key).isSome = true
    · right
      refine ⟨h.task_of_additions hnode hadditions, ?_⟩
      obtain ⟨addon, haddon, hkey⟩ := additions_isSome hadditions
      obtain ⟨-, -, hsorted⟩ := normalizeSkillAddons_eq_ok.mp h.normalizes
      rw [← hsorted, SortBy.mem_iff] at haddon
      obtain ⟨raw, hraw, rfl⟩ := List.mem_map.mp haddon
      exact ⟨raw, hraw, hkey⟩
    · left
      unfold NodeDefinition.extend
      rw [Option.not_isSome_iff_eq_none.mp hadditions]

theorem Admitted.extends {registry : Registry} {definition : AcceptedDefinition}
    (h : Admitted registry definition.definition addons normalized) :
    Extends addons definition.definition (definition.definition.extend (additions normalized)) where
  rest := rfl
  nodes := by
    show List.Forall₂ _ _ (definition.definition.nodes.map _)
    rw [List.forall₂_map_right_iff, List.forall₂_same]
    exact fun node hnode => h.nodeExtends hnode

theorem extend_keys_nodup :
    (definition.definition.extend (additions normalized)).keys.Nodup := by
  show (definition.definition.toWorkflowGraph.extend (additions normalized)).keys.Nodup
  rw [WorkflowGraph.extend_keys]
  exact definition.wellFormed.keys_nodup

/-! ## 4. The snapshot -/

theorem packReferences_extend {definition : WorkflowDefinition}
    {more : NodeKey → Option (List SkillReference)} :
    Registry.packReferences (definition.extend more) = Registry.packReferences definition := by
  unfold Registry.packReferences
  congr 1
  show (definition.nodes.map (NodeDefinition.extend more)).filterMap _ = _
  rw [List.filterMap_map]
  simp only [Function.comp_def, NodeDefinition.extend_phasePack]

theorem resolvePhasePacks_extend {registry : Registry} {definition : WorkflowDefinition}
    {more : NodeKey → Option (List SkillReference)} :
    registry.resolvePhasePacks (definition.extend more) = registry.resolvePhasePacks definition := by
  unfold Registry.resolvePhasePacks
  rw [packReferences_extend]

theorem mem_skillReferences {definition : WorkflowDefinition} {phasePacks : List PhasePackDefinition}
    {pair : String × ℕ} : pair ∈ Registry.skillReferences definition phasePacks ↔
      ∃ reference : SkillReference, (reference.key, reference.version) = pair ∧
        ((∃ node ∈ definition.nodes, reference ∈ node.skills) ∨
          ∃ phasePack ∈ phasePacks, reference ∈ phasePack.skills) := by
  unfold Registry.skillReferences
  rw [mem_sortReferences, List.mem_map]
  simp only [List.mem_append, List.mem_flatMap]
  exact exists_congr fun reference => and_comm

/-- What the added skills need is registered, so the composed definition resolves too. -/
theorem Admitted.resolveSkills {registry : Registry} {definition : AcceptedDefinition}
    (h : Admitted registry definition.definition addons normalized)
    {phasePacks : List PhasePackDefinition} {skills : List SkillDefinition}
    (hskills : registry.resolveSkills definition.definition phasePacks = .ok skills) :
    ∃ skills', registry.resolveSkills (definition.definition.extend (additions normalized)) phasePacks =
      .ok skills' := by
  have hbefore : ∀ pair ∈ Registry.skillReferences definition.definition phasePacks,
      ∃ skill, registry.findSkill pair = .ok skill :=
    exists_mapM_iff.mp ⟨skills, hskills⟩
  apply exists_mapM_iff.mpr
  intro pair hpair
  obtain ⟨reference, rfl, hwhere⟩ := mem_skillReferences.mp hpair
  rcases hwhere with ⟨node', hnode', hreference⟩ | hpack
  · obtain ⟨node, hnode, rfl⟩ := List.mem_map.mp hnode'
    rcases NodeDefinition.mem_extend_skills.mp hreference with hold | ⟨added, hadded, hreference⟩
    · exact hbefore _ (mem_skillReferences.mpr ⟨reference, rfl, .inl ⟨node, hnode, hold⟩⟩)
    · obtain ⟨addon, haddon, rfl⟩ := Option.map_eq_some_iff.mp hadded
      obtain ⟨skill, hskill⟩ := h.skill addon (List.mem_of_find?_eq_some haddon) reference hreference
      exact ⟨skill, Registry.findSkill_eq_ok.mpr hskill⟩
  · exact hbefore _ (mem_skillReferences.mpr ⟨reference, rfl, .inr hpack⟩)

theorem routedNodes_extend {definition : WorkflowDefinition}
    {more : NodeKey → Option (List SkillReference)} :
    routedNodes (definition.extend more) =
      (routedNodes definition).map fun routed => (routed.1.extend more, routed.2) := by
  unfold routedNodes
  show (definition.nodes.map (NodeDefinition.extend more)).filterMap _ = _
  rw [List.filterMap_map, List.map_filterMap]
  simp only [Function.comp_def, NodeDefinition.extend_modelRouting, Option.map_map]

theorem forEach_map {β γ δ : Type} (f : β → γ) (g : γ → Transaction δ) (xs : List β) :
    Program.forEach g (xs.map f) = Program.forEach (fun x => g (f x)) xs := by
  induction xs with
  | nil => rfl
  | cons x xs ih =>
    rw [List.map_cons]
    unfold Program.forEach
    rw [ih]

/-- Routing does not look at the skills. -/
theorem routeModels_extend {definition : WorkflowDefinition}
    {more : NodeKey → Option (List SkillReference)} :
    routeModels (definition.extend more) = routeModels definition := by
  have hexecutor : ∀ node : NodeDefinition, (node.extend more).executorKey = node.executorKey := by
    intro node
    obtain ⟨skills, h⟩ := NodeDefinition.extend_eq more node
    rw [h]
  unfold routeModels
  simp only [routedNodes_extend, List.map_eq_nil_iff, forEach_map, hexecutor, NodeDefinition.extend_key]

/-- Routing selects a model for the nodes that ask for one. -/
theorem routeModels_yields (definition : WorkflowDefinition) :
    Yields settings (routeModels definition) fun selections =>
      selections.map NodeModelSelection.nodeKey =
        (routedNodes definition).map fun routed => routed.1.key := by
  unfold routeModels
  split
  · rename_i hnone
    apply yields_pure
    rw [hnone]
    rfl
  · apply yields_then
    intro profiles
    refine yields_mono (yields_forEach (G := fun routed selection =>
      selection.nodeKey = routed.1.key) ?_) ?_
    · intro routed
      exact yields_then fun selection => yields_pure rfl
    · intro selections hselections
      rw [← List.forall₂_eq_eq_eq, List.forall₂_map_left_iff, List.forall₂_map_right_iff]
      exact hselections.flip

/-- What a serial run returns is among what the program yields. -/
theorem yields_serve {β : Type} {p : Transaction β} {P : β → Prop} {value : β}
    (h : Yields settings p P)
    (hserve : (services settings).serve p unitOfWork world = .ok (value, after)) : P value := by
  have hwp := (services settings).wp_serve (fun _ _ => trivial) (fun _ _ _ => trivial)
    (h ∅ unitOfWork world)
  rw [hserve] at hwp
  obtain ⟨held, hvalue⟩ := hwp
  exact hvalue

theorem sortReferences_nodup (references : List (String × ℕ)) : (sortReferences references).Nodup :=
  (List.perm_insertionSort _ _).nodup_iff.mpr (List.nodup_dedup _)

theorem validatePhaseInputs_extend {definition : WorkflowDefinition}
    {more : NodeKey → Option (List SkillReference)} {phasePacks : List PhasePackDefinition} :
    Registry.validatePhaseInputs (definition.extend more) phasePacks = .ok () ↔
      Registry.validatePhaseInputs definition phasePacks = .ok () := by
  unfold Registry.validatePhaseInputs Registry.missingPhaseInputs
  rw [forAll_eq_ok, forAll_eq_ok]
  show (∀ node ∈ definition.nodes.map (NodeDefinition.extend more), _) ↔ _
  rw [List.forall_mem_map]
  simp only [NodeDefinition.extend_phasePack, NodeDefinition.extend_inputMappings,
    NodeDefinition.extend_key]

theorem routedNodes_keys (definition : WorkflowDefinition) :
    (routedNodes definition).map (fun routed => routed.1.key) =
      (definition.nodes.filter fun node => node.modelRouting.isSome).map NodeDefinition.key := by
  unfold routedNodes
  rw [List.map_filterMap]
  simp only [Option.map_map]
  induction definition.nodes with
  | nil => rfl
  | cons node nodes ih => cases hrouting : node.modelRouting <;> simp [hrouting, ih]

theorem packReference_injective :
    Function.Injective fun pair : String × ℕ => (⟨pair.1, pair.2⟩ : PhasePackReference) := by
  intro a b hab
  injection hab with hkey hversion
  exact Prod.ext hkey hversion

theorem skillReference_injective :
    Function.Injective fun pair : String × ℕ => (⟨pair.1, pair.2⟩ : SkillReference) := by
  intro a b hab
  injection hab with hkey hversion
  exact Prod.ext hkey hversion

theorem mem_packReferences {definition : WorkflowDefinition} {reference : PhasePackReference} :
    reference ∈ (Registry.packReferences definition).map (fun pair => ⟨pair.1, pair.2⟩) ↔
      reference ∈ definition.nodes.filterMap NodeDefinition.phasePack := by
  unfold Registry.packReferences
  simp only [List.mem_map, mem_sortReferences, List.mem_filterMap, Option.map_eq_some_iff]
  constructor
  · rintro ⟨pair, ⟨node, hnode, named, hnamed, rfl⟩, rfl⟩
    exact ⟨node, hnode, hnamed⟩
  · rintro ⟨node, hnode, hnamed⟩
    exact ⟨(reference.key, reference.version), ⟨node, hnode, reference, hnamed, rfl⟩, rfl⟩

/-- What is resolved from the catalogs makes an exact snapshot. -/
theorem postInit_fromDefinition {registry : Registry} {definition : WorkflowDefinition}
    {phasePacks : List PhasePackDefinition} {skills : List SkillDefinition}
    {selections : List NodeModelSelection} {runId : UUID} {context : Option WorkflowRequestContext}
    (hkeys : definition.keys.Nodup)
    (hphasePacks : registry.resolvePhasePacks definition = .ok phasePacks)
    (hskills : registry.resolveSkills definition phasePacks = .ok skills)
    (hinputs : Registry.validatePhaseInputs definition phasePacks = .ok ())
    (hselections : selections.map NodeModelSelection.nodeKey =
      (routedNodes definition).map fun routed => routed.1.key) :
    (WorkflowSnapshot.fromDefinition definition runId context phasePacks skills selections).postInit =
      .ok () := by
  have hpackReferences : phasePacks.map PhasePackDefinition.reference =
      (Registry.packReferences definition).map fun pair => ⟨pair.1, pair.2⟩ :=
    (map_eq_of_forall₂ (Registry.resolvePhasePacks_eq_ok.mp hphasePacks) fun _ _ hpack =>
      (Registry.phasePack_reference hpack).symm).symm
  have hskillReferences : skills.map SkillDefinition.reference =
      (Registry.skillReferences definition phasePacks).map fun pair => ⟨pair.1, pair.2⟩ :=
    (map_eq_of_forall₂ (Registry.resolveSkills_eq_ok.mp hskills) fun _ _ hskill =>
      (Registry.skill_reference hskill).symm).symm
  have hskillSet : ∀ reference : SkillReference, reference ∈ skills.map SkillDefinition.reference ↔
      reference ∈ definition.nodes.flatMap NodeDefinition.skills ++
        phasePacks.flatMap PhasePackDefinition.skills := by
    intro reference
    rw [hskillReferences, List.mem_append, List.mem_flatMap, List.mem_flatMap, List.mem_map]
    constructor
    · rintro ⟨pair, hpair, rfl⟩
      obtain ⟨reference, rfl, hwhere⟩ := mem_skillReferences.mp hpair
      exact hwhere
    · intro hwhere
      exact ⟨(reference.key, reference.version), mem_skillReferences.mpr ⟨reference, rfl, hwhere⟩, rfl⟩
  unfold WorkflowSnapshot.postInit
  simp only [check_bind_eq_ok, raiseIf_eq_ok, forAll_eq_ok, not_not]
  refine ⟨?_, ⟨?_, ?_⟩, ?_, ?_, ⟨?_, ?_⟩, ?_, ?_⟩
  · show (phasePacks.map PhasePackDefinition.reference).Nodup
    rw [hpackReferences]
    exact (sortReferences_nodup _).map packReference_injective
  · show definition.nodes.filterMap NodeDefinition.phasePack ⊆ phasePacks.map _
    rw [hpackReferences]
    exact fun reference => mem_packReferences.mpr
  · show phasePacks.map _ ⊆ definition.nodes.filterMap NodeDefinition.phasePack
    rw [hpackReferences]
    exact fun reference => mem_packReferences.mp
  · intro node hnode phasePack hphasePack
    unfold Registry.validatePhaseInputs at hinputs
    simp only [check_bind_eq_ok, raiseIf_eq_ok, forAll_eq_ok, not_not] at hinputs
    obtain ⟨hdeclared, hmissing⟩ := hinputs node hnode phasePack hphasePack
    unfold WorkflowSnapshot.checkInputs
    simp only [check_bind_eq_ok, raiseIf_eq_ok, not_not]
    refine ⟨hdeclared, ?_⟩
    -- a required input that is not mapped would be missing
    intro key hkey
    by_contra hunmapped
    have hmem : key ∈ Registry.missingPhaseInputs node phasePack := by
      unfold Registry.missingPhaseInputs
      rw [List.mem_insertionSort, List.mem_dedup, List.mem_filter]
      exact ⟨hkey, by simpa using hunmapped⟩
    rw [hmissing] at hmem
    exact List.not_mem_nil hmem
  · show (skills.map SkillDefinition.reference).Nodup
    rw [hskillReferences]
    exact (sortReferences_nodup _).map skillReference_injective
  · exact fun reference => (hskillSet reference).mpr
  · exact fun reference => (hskillSet reference).mp
  · show (selections.map NodeModelSelection.nodeKey).Nodup
    rw [hselections, routedNodes_keys]
    exact (List.filter_sublist.map NodeDefinition.key).nodup hkeys
  · show _ ⊆ selections.map NodeModelSelection.nodeKey ∧ selections.map NodeModelSelection.nodeKey ⊆ _
    rw [hselections, routedNodes_keys]
    exact ⟨List.Subset.refl _, List.Subset.refl _⟩

/-- What `create_execution` has copied. -/
structure Copies (registry : Registry) (definition : WorkflowDefinition) (snapshot : WorkflowSnapshot) :
    Prop where
  graph : snapshot.toWorkflowGraph = definition.toWorkflowGraph
  phasePack : ∀ {reference phasePack}, snapshot.phasePack reference = some phasePack →
    registry.phasePack reference = some phasePack
  skill : ∀ {reference skill}, snapshot.skill reference = some skill →
    registry.skill reference = some skill

theorem copies_fromDefinition {registry : Registry} {definition : WorkflowDefinition}
    {phasePacks : List PhasePackDefinition} {skills : List SkillDefinition}
    {selections : List NodeModelSelection} {runId : UUID} {context : Option WorkflowRequestContext}
    (hphasePacks : registry.resolvePhasePacks definition = .ok phasePacks)
    (hskills : registry.resolveSkills definition phasePacks = .ok skills) :
    Copies registry definition
      (WorkflowSnapshot.fromDefinition definition runId context phasePacks skills selections) where
  graph := rfl
  phasePack := by
    intro reference phasePack hphasePack
    have hreference : phasePack.reference = reference := by simpa using List.find?_some hphasePack
    obtain ⟨pair, -, hpair⟩ := exists_of_forall₂
      (Registry.resolvePhasePacks_eq_ok.mp hphasePacks).flip (List.mem_of_find?_eq_some hphasePack)
    rw [← hreference, Registry.phasePack_reference hpair]
    exact hpair
  skill := by
    intro reference skill hskill
    have hreference : skill.reference = reference := by simpa using List.find?_some hskill
    obtain ⟨pair, -, hpair⟩ := exists_of_forall₂
      (Registry.resolveSkills_eq_ok.mp hskills).flip (List.mem_of_find?_eq_some hskill)
    rw [← hreference, Registry.skill_reference hpair]
    exact hpair

/-- A definition that resolves has an exact snapshot, unless no model can be selected. -/
theorem serve_createSnapshot {definition : WorkflowDefinition} {runId : UUID}
    {context : WorkflowRequestContext} (hkeys : definition.keys.Nodup)
    (hresolves : world.database.registry.Resolves definition) :
    (∀ snapshot after, (services settings).serve
        (RequestDispatchService.createSnapshot definition runId context) unitOfWork world =
          .ok (snapshot, after) →
      snapshot.postInit = .ok () ∧ Copies world.database.registry definition snapshot ∧
        ∃ phasePacks skills selections, snapshot = WorkflowSnapshot.fromDefinition definition runId
          (some context) phasePacks skills selections) ∧
    ∀ error, (services settings).serve
        (RequestDispatchService.createSnapshot definition runId context) unitOfWork world =
          .error error ↔
      (services settings).serve (routeModels definition) unitOfWork world = .error error := by
  obtain ⟨phasePacks, skills, hphasePacks, hskills, hinputs⟩ := hresolves.resolved
  have hserve : (services settings).serve
      (RequestDispatchService.createSnapshot definition runId context) unitOfWork world =
      ((services settings).serve (routeModels definition) unitOfWork world).map fun selected =>
        (WorkflowSnapshot.fromDefinition definition runId (some context) phasePacks skills selected.1,
          selected.2) := by
    unfold RequestDispatchService.createSnapshot
    rw [(services settings).serve_bind, serve_resolvePhasePacks, hphasePacks]
    dsimp only [Except.map]
    rw [(services settings).serve_bind, serve_resolveSkills, hskills]
    dsimp only [Except.map]
    rw [(services settings).serve_bind]
    cases (services settings).serve (routeModels definition) unitOfWork world <;> rfl
  rw [hserve]
  cases hselected : (services settings).serve (routeModels definition) unitOfWork world with
  | error error =>
    refine ⟨?_, ?_⟩
    · intro snapshot after h
      cases h
    · intro error'
      constructor
      · intro h
        cases h
        rfl
      · intro h
        cases h
        rfl
  | ok selected =>
    obtain ⟨selections, unitOfWork'⟩ := selected
    refine ⟨?_, ?_⟩
    · intro snapshot after h
      cases h
      have hselections := yields_serve (routeModels_yields definition) hselected
      exact ⟨postInit_fromDefinition hkeys hphasePacks hskills hinputs hselections,
        copies_fromDefinition hphasePacks hskills, phasePacks, skills, selections, rfl⟩
    · intro error
      constructor
      · intro h
        cases h
      · intro h
        cases h

theorem Admitted.resolves {registry : Registry} {definition : AcceptedDefinition}
    (h : Admitted registry definition.definition addons normalized)
    (hresolves : registry.Resolves definition.definition) :
    registry.Resolves (definition.definition.extend (additions normalized)) := by
  obtain ⟨phasePacks, skills, hphasePacks, hskills, hinputs⟩ := hresolves.resolved
  obtain ⟨skills', hskills'⟩ := h.resolveSkills hskills
  refine ⟨phasePacks, skills', ?_, hskills', validatePhaseInputs_extend.mpr hinputs⟩
  rw [resolvePhasePacks_extend]
  exact hphasePacks

/-! ## 5. The claims -/

/-- The references of a claim are in the order of the keys. -/
theorem sortReferences_eq (references : List SkillReference) :
    sortReferences (references.map fun reference => (reference.key, reference.version)) =
      (sortSkills references).map fun reference => (reference.key, reference.version) := by
  have hinjective : Function.Injective fun reference : SkillReference =>
      (reference.key, reference.version) := by
    intro a b hab
    exact skillOrder_injective (congrArg toLex hab)
  unfold sortReferences sortSkills sortBy
  rw [List.dedup_map_of_injective hinjective]
  symm
  apply List.map_insertionSort
  intro a _ b _
  exact Prod.Lex.toLex_le_toLex

/-- The skills of a claim: those of the node, of the request and of the phase pack, in the order of their
keys and each once. -/
structure ClaimCarries (registry : Registry) (addons : List NodeSkillAddon) (node : NodeDefinition)
    (claim : TaskClaim) : Prop where
  sorted : (claim.skills.map SkillDefinition.reference).Pairwise (skillOrder · < skillOrder ·)
  union : ∀ reference, reference ∈ claim.skills.map SkillDefinition.reference ↔
    reference ∈ node.skills ∨ Adds addons node.key reference ∨
      ∃ packReference phasePack, node.phasePack = some packReference ∧
        registry.phasePack packReference = some phasePack ∧ reference ∈ phasePack.skills
  registered : ∀ skill ∈ claim.skills, registry.skill skill.reference = some skill

theorem applyOperation_yields {execution : WorkflowExecution} (hinv : execution.Inv)
    (operation : Operation) : Yields settings (applyOperation execution operation) fun after =>
      after.snapshot = execution.snapshot := by
  unfold applyOperation
  rcases step_spec hinv.sound hinv.active operation with ⟨message, hstep⟩ | ⟨calls, after, hstep, heffect⟩
  · rw [hstep]
    exact yields_raise _
  · rw [hstep]
    exact yields_pure heffect.sameShape.snapshot

theorem nodePhasePack_yields (snapshot : WorkflowSnapshot) (node : NodeDefinition) :
    Yields settings (nodePhasePack snapshot node) fun phasePack =>
      (∀ reference, node.phasePack = some reference → snapshot.phasePack reference = phasePack) ∧
        (phasePack.isSome = true ↔ node.phasePack.isSome = true) := by
  unfold nodePhasePack
  cases node.phasePack with
  | none =>
    apply yields_pure
    refine ⟨?_, Iff.rfl⟩
    intro reference h
    cases h
  | some packReference =>
    refine yields_bind (yields_ofOption fun value h => h) fun value hvalue => yields_pure ?_
    refine ⟨?_, Iff.rfl⟩
    intro reference h
    cases h
    exact hvalue

/-- The skills of the phase pack that a claim finds in its snapshot. -/
theorem packSkills_iff {registry : Registry} {definition : WorkflowDefinition}
    {snapshot : WorkflowSnapshot} {node : NodeDefinition} {phasePack : Option PhasePackDefinition}
    (hcopies : Copies registry definition snapshot)
    (hfound : ∀ reference, node.phasePack = some reference → snapshot.phasePack reference = phasePack)
    (hsome : phasePack.isSome = true ↔ node.phasePack.isSome = true) {reference : SkillReference} :
    reference ∈ (phasePack.map PhasePackDefinition.skills).getD [] ↔
      ∃ packReference value, node.phasePack = some packReference ∧
        registry.phasePack packReference = some value ∧ reference ∈ value.skills := by
  cases hpack : phasePack with
  | none =>
    rw [hpack] at hsome
    have hnone : node.phasePack = none := by simpa using hsome
    simp [hnone]
  | some value =>
    rw [hpack] at hsome hfound
    obtain ⟨packReference, hnamed⟩ := Option.isSome_iff_exists.mp (hsome.mp rfl)
    have hregistered := hcopies.phasePack (hfound packReference hnamed)
    constructor
    · intro hreference
      exact ⟨packReference, value, hnamed, hregistered, hreference⟩
    · rintro ⟨packReference', value', hnamed', hregistered', hreference⟩
      rw [hnamed] at hnamed'
      cases hnamed'
      rw [hregistered] at hregistered'
      cases hregistered'
      exact hreference

/-- The claim of a node of an execution that has copied the definition. -/
theorem claimCandidate_yields {registry : Registry} {definition : WorkflowDefinition}
    {candidate : WorkflowTaskCandidate} (workerId : String) (token : UUID) (changedAt : Instant)
    (hinv : candidate.execution.Inv)
    (hcopies : Copies registry definition candidate.execution.snapshot) :
    Yields settings (TaskDispatchService.claimCandidate settings candidate workerId token changedAt)
      fun claim => ∃ node, definition.node candidate.nodeKey = some node ∧
        ClaimCarries registry [] node claim := by
  unfold TaskDispatchService.claimCandidate
  refine yields_bind (yields_ofOption fun node h => h) fun node hnode => ?_
  refine yields_bind (nodePhasePack_yields _ _) fun phasePack hphasePack => ?_
  refine yields_then fun inputs => ?_
  refine yields_bind (applyOperation_yields hinv _) fun execution hsnapshot => ?_
  refine yields_then fun begun => yields_then fun leaseToken => ?_
  refine yields_bind (yields_forEach (G := fun pair skill =>
    execution.snapshot.skill ⟨pair.1, pair.2⟩ = some skill) fun pair => yields_ofOption fun _ h => h)
    fun skills hskills => ?_
  refine yields_then fun _ => yields_then fun _ => yields_pure ?_
  have hdefined : definition.node candidate.nodeKey = some node := by
    show definition.toWorkflowGraph.node _ = _
    rw [← hcopies.graph]
    exact hnode
  refine ⟨node, hdefined, ?_⟩
  rw [hsnapshot, sortReferences_eq] at hskills
  have hreferences : skills.map SkillDefinition.reference =
      sortSkills (node.skills ++ (phasePack.map PhasePackDefinition.skills).getD []) := by
    rw [← map_eq_of_forall₂ hskills (f := fun pair => (⟨pair.1, pair.2⟩ : SkillReference))
      fun pair skill h => (Registry.skill_reference (hcopies.skill h)).symm, List.map_map]
    exact List.map_id _
  refine ⟨?_, ?_, ?_⟩
  · show (skills.map _).Pairwise _
    rw [hreferences]
    exact sortSkills_pairwise _
  · intro reference
    show reference ∈ skills.map _ ↔ _
    rw [hreferences, mem_sortSkills, List.mem_append]
    have hadds : ¬Adds [] node.key reference := by
      rintro ⟨addon, haddon, -⟩
      exact List.not_mem_nil haddon
    simp only [hadds, false_or]
    exact or_congr Iff.rfl (packSkills_iff hcopies hphasePack.1 hphasePack.2)
  · intro skill hskill
    obtain ⟨pair, -, hpair⟩ := exists_of_forall₂ hskills.flip hskill
    have hregistered := hcopies.skill hpair
    rw [Registry.skill_reference hregistered]
    exact hregistered

/-! ## 6. Accepted add-ons -/

/-- What holds of the add-ons that a dispatch accepts.  A claim is one of any execution that was created
with the composed definition, after any operations of the engine and among any other sessions. -/
structure AddonsHold (settings : Settings) (world : World) (definition composed : AcceptedDefinition)
    (addons : List NodeSkillAddon) : Prop where
  extension : Extends addons definition.definition composed.definition
  exact : ∀ runId context unitOfWork snapshot after,
    (services settings).serve
        (RequestDispatchService.createSnapshot composed.definition runId context) unitOfWork world =
      .ok (snapshot, after) → snapshot.postInit = .ok ()
  instantiated : ∀ runId context unitOfWork error,
    (services settings).serve
        (RequestDispatchService.createSnapshot composed.definition runId context) unitOfWork world =
      .error error →
    (services settings).serve
        (RequestDispatchService.createSnapshot definition.definition runId context) unitOfWork world =
      .error error
  stable : ∀ addons' unitOfWork, SameAddons addons' addons →
    (services settings).serve (RequestDispatchService.composeRequested definition addons') unitOfWork
        world = .ok (.ok composed, unitOfWork) ∧
      (services settings).serve (RequestDispatchService.composeRequested composed addons') unitOfWork
        world = .ok (.ok composed, unitOfWork)
  claims : ∀ runId context unitOfWork snapshot after,
    (services settings).serve
        (RequestDispatchService.createSnapshot composed.definition runId context) unitOfWork world =
      .ok (snapshot, after) →
    ∀ executionId nodeId now operations, ∀ candidate : WorkflowTaskCandidate,
      candidate.execution =
          engine.run (WorkflowExecution.create snapshot executionId nodeId now) operations →
      ∀ workerId token changedAt,
        Yields settings (TaskDispatchService.claimCandidate settings candidate workerId token changedAt)
          fun claim => ∃ node ∈ definition.definition.nodes, node.key = candidate.nodeKey ∧
            ClaimCarries world.database.registry addons node claim

theorem Admitted.normalize_same {registry : Registry} {definition : WorkflowDefinition}
    {addons' : List NodeSkillAddon} (h : Admitted registry definition addons normalized)
    (hsame : SameAddons addons' addons) : Admitted registry definition addons' normalized :=
  ⟨hsame.normalize h.normalizes, h.task, h.skill⟩

/-- Operations never change a snapshot. -/
theorem run_snapshot {start : WorkflowExecution} (hinv : start.Inv) (operations : List Operation) :
    (engine.run start operations).Inv ∧ (engine.run start operations).snapshot = start.snapshot := by
  refine engine.run_invariant (I := fun execution : WorkflowExecution =>
    execution.Inv ∧ execution.snapshot = start.snapshot) ?_ ⟨hinv, rfl⟩ operations
  rintro execution operation ⟨hexecution, hsnapshot⟩
  refine ⟨step_inv execution operation hexecution, ?_⟩
  rcases step_spec hexecution.sound hexecution.active operation with
    ⟨message, hstep⟩ | ⟨calls, after, hstep, heffect⟩
  · rw [hstep]
    exact hsnapshot
  · rw [hstep]
    exact heffect.sameShape.snapshot.trans hsnapshot

/-- A claim for a node of the composed definition carries the skills of the original node and those that
the request adds. -/
theorem ClaimCarries.original {registry : Registry} {node composed : NodeDefinition} {claim : TaskClaim}
    (hextends : NodeExtends addons node composed) (h : ClaimCarries registry [] composed claim) :
    ClaimCarries registry addons node claim where
  sorted := h.sorted
  registered := h.registered
  union := by
    intro reference
    have hphasePack : composed.phasePack = node.phasePack := by rw [hextends.rest]
    have hadds : ¬Adds [] composed.key reference := by
      rintro ⟨addon, haddon, -⟩
      exact List.not_mem_nil haddon
    rw [h.union reference, hextends.skills reference, hphasePack]
    simp only [hadds, false_or, or_assoc]

theorem Admitted.hold (h : Admitted world.database.registry definition.definition addons normalized)
    (hresolves : world.database.registry.Resolves definition.definition) :
    AddonsHold settings world definition
      ⟨definition.definition.extend (additions normalized), h.construct⟩ addons where
  extension := h.extends
  exact runId context unitOfWork snapshot after hserve := by
    exact ((serve_createSnapshot extend_keys_nodup (h.resolves hresolves)).1 snapshot after hserve).1
  instantiated runId context unitOfWork error hserve := by
    rw [(serve_createSnapshot extend_keys_nodup (h.resolves hresolves)).2, routeModels_extend] at hserve
    exact ((serve_createSnapshot definition.wellFormed.keys_nodup hresolves).2 error).mpr hserve
  stable addons' unitOfWork hsame := by
    have hadmitted := h.normalize_same hsame
    refine ⟨serve_composeRequested.mpr ⟨rfl, normalized, hadmitted, ?_⟩,
      serve_composeRequested.mpr ⟨rfl, normalized, hadmitted.again, ?_⟩⟩
    · exact (accept_eq_ok h.construct).symm
    · rw [extend_extend]
      exact (accept_eq_ok h.construct).symm
  claims runId context unitOfWork snapshot after hserve executionId nodeId now operations candidate
      hcandidate workerId token changedAt := by
    obtain ⟨-, hcopies, phasePacks, skills, selections, hsnapshot⟩ :=
      (serve_createSnapshot extend_keys_nodup (h.resolves hresolves)).1 snapshot after hserve
    have hcreates : AcceptedDefinition.Creates ⟨_, h.construct⟩
        (WorkflowExecution.create snapshot executionId nodeId now) :=
      ⟨runId, some context, phasePacks, skills, selections, executionId, nodeId, now, by rw [hsnapshot]⟩
    obtain ⟨hinv, hpinned⟩ := run_snapshot hcreates.inv operations
    rw [← hcandidate] at hinv hpinned
    have hcopied : Copies world.database.registry (definition.definition.extend (additions normalized))
        candidate.execution.snapshot := by
      rw [hpinned]
      exact hcopies
    apply yields_mono (claimCandidate_yields workerId token changedAt hinv hcopied)
    rintro claim ⟨composed, hcomposed, hcarries⟩
    rw [WorkflowDefinition.extend_graph, WorkflowGraph.extend_node] at hcomposed
    obtain ⟨node, hnode, rfl⟩ := Option.map_eq_some_iff.mp hcomposed
    refine ⟨node, WorkflowGraph.node_mem hnode, WorkflowGraph.node_key hnode, ?_⟩
    exact hcarries.original (h.nodeExtends (WorkflowGraph.node_mem hnode))

end

/-- Every definition that was registered, with add-ons that a dispatch of it accepts. -/
theorem skill_addons_hold (settings : Settings) (checkContract : JsonObject → Except String Unit)
    (profiles : List ModelProfile) (registrations : List Registration) (world : World)
    (hregistry : world.database.registry =
      (catalogs checkContract).run { modelProfiles := profiles } registrations)
    (definition : AcceptedDefinition) (hregistered : definition ∈ world.database.registry.definitions)
    (addons : List NodeSkillAddon) (unitOfWork after : UnitOfWork)
    (outcome : Except WorkflowDefinitionError AcceptedDefinition)
    (haccepted : (services settings).serve
      (RequestDispatchService.composeRequested definition addons) unitOfWork world =
        .ok (outcome, after)) :
    ∃ composed, outcome = .ok composed ∧ AddonsHold settings world definition composed addons := by
  have hcomplete : world.database.registry.Complete := by
    rw [hregistry]
    apply Registry.complete_run
    intro definition hdefinition
    exact absurd hdefinition List.not_mem_nil
  obtain ⟨-, normalized, hadmitted, houtcome⟩ := serve_composeRequested.mp haccepted
  exact ⟨_, houtcome.trans (accept_eq_ok hadmitted.construct),
    hadmitted.hold (hcomplete definition hregistered)⟩

def lintSkill : SkillDefinition where
  key := "lint"
  version := 1
  name := "Lint"
  description := "d"
  sourceKind := .local
  sourceUri := "u"
  contentDigest := "c"

/-- One skill and one definition are registered. -/
def lintCatalogs : World where
  database := {
    registry := (catalogs fun _ => .ok ()).run {} [.skill lintSkill, .definition acceptedSingleTask] }

/-- The skill is added twice to the task of the definition. -/
def lintAddons : List NodeSkillAddon := [⟨" work ", [⟨"lint", 1⟩, ⟨"lint", 1⟩]⟩]

theorem skill_addons_hold_lint : ∃ composed,
    accept (singleTask.extend (additions [⟨"work", [⟨"lint", 1⟩]⟩])) = .ok composed ∧
      AddonsHold lenient lintCatalogs acceptedSingleTask composed lintAddons := by
  have hdefinitions : lintCatalogs.database.registry.definitions = [acceptedSingleTask] := rfl
  have hskill : lintCatalogs.database.registry.skill ⟨"lint", 1⟩ = some lintSkill := rfl
  have hadmitted : Admitted lintCatalogs.database.registry acceptedSingleTask.definition lintAddons
      [⟨"work", [⟨"lint", 1⟩]⟩] := by
    refine ⟨by decide +kernel, ?_, ?_⟩
    · intro addon haddon
      rw [List.mem_singleton.mp haddon]
      exact ⟨_, rfl, rfl⟩
    · intro addon haddon reference hreference
      rw [List.mem_singleton.mp haddon] at hreference
      rw [List.mem_singleton.mp hreference]
      exact ⟨lintSkill, hskill⟩
  exact skill_addons_hold lenient (fun _ => .ok ()) [] [.skill lintSkill, .definition acceptedSingleTask]
    lintCatalogs rfl acceptedSingleTask (by rw [hdefinitions]; exact List.mem_singleton_self _) lintAddons
    {} {} _ (serve_composeRequested.mpr ⟨rfl, _, hadmitted, rfl⟩)

end JbOrchestrator.Application
