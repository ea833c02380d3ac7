import JbOrchestrator.Lib.SortBy
import JbOrchestrator.Workflows.Definition
import Mathlib.Data.Prod.Lex
import Mathlib.Data.String.Basic

/-!
# Composition — definitions with more skills

A definition whose nodes get further skills is checked again by its constructors.  None of the checks on
the graph looks at the skills, and those on a node only ask for a task and for distinct references.
`WorkflowSnapshot.postInit` asks that the records of a snapshot are exactly those its nodes name.
-/

open Lib

namespace JbOrchestrator.Workflows

/-! ## 1. Sets of skills in order -/

def skillOrder (reference : SkillReference) : String ×ₗ ℕ := toLex (reference.key, reference.version)

/-- `sorted(set(references), key=lambda value: (value.key, value.version))`. -/
def sortSkills (references : List SkillReference) : List SkillReference :=
  sortBy skillOrder references.dedup

theorem skillOrder_injective : Function.Injective skillOrder := by
  intro a b h
  have hpair : (a.key, a.version) = (b.key, b.version) := toLex.injective h
  cases a
  cases b
  simpa using hpair

@[simp] theorem mem_sortSkills {references : List SkillReference} {reference : SkillReference} :
    reference ∈ sortSkills references ↔ reference ∈ references := by
  unfold sortSkills
  rw [SortBy.mem_iff, List.mem_dedup]

theorem dedup_keys_nodup (references : List SkillReference) :
    (references.dedup.map skillOrder).Nodup :=
  (List.nodup_dedup references).map skillOrder_injective

theorem sortSkills_pairwise (references : List SkillReference) :
    (sortSkills references).Pairwise (skillOrder · < skillOrder ·) :=
  SortBy.pairwise (dedup_keys_nodup references)

theorem sortSkills_nodup (references : List SkillReference) : (sortSkills references).Nodup :=
  (SortBy.perm references.dedup).nodup_iff.mpr (List.nodup_dedup references)

/-- The order and the repetitions of the references do not matter. -/
theorem sortSkills_congr {references references' : List SkillReference}
    (h : ∀ reference, reference ∈ references ↔ reference ∈ references') :
    sortSkills references = sortSkills references' := by
  apply SortBy.eq_of_perm (dedup_keys_nodup references')
  apply (List.perm_ext_iff_of_nodup (List.nodup_dedup _) (List.nodup_dedup _)).mpr
  intro reference
  rw [List.mem_dedup, List.mem_dedup]
  exact h reference

theorem sortSkills_eq_nil {references : List SkillReference} :
    sortSkills references = [] ↔ references = [] := by
  simp only [List.eq_nil_iff_forall_not_mem, mem_sortSkills]

/-- A list in strict order of its keys is the sorted set of its members. -/
theorem sortSkills_of_pairwise {references : List SkillReference}
    (h : references.Pairwise (skillOrder · < skillOrder ·)) : sortSkills references = references := by
  refine List.Perm.eq_of_pairwise ?_ (sortSkills_pairwise references) h ?_
  · intro a b _ _ hab hba
    exact absurd hab (lt_asymm hba)
  · have hnodup : references.Nodup := h.imp fun hlt heq => absurd hlt (by rw [heq]; exact lt_irrefl _)
    unfold sortSkills
    rw [hnodup.dedup]
    exact SortBy.perm references

/-! ## 2. Nodes with further skills -/

/-- `replace(node, skills=...)` for the nodes that the additions name. -/
def NodeDefinition.extend (additions : NodeKey → Option (List SkillReference))
    (node : NodeDefinition) : NodeDefinition :=
  match additions node.key with
  | none => node
  | some skills => { node with skills := sortSkills (node.skills ++ skills) }

/-- `replace(definition, nodes=...)`. -/
def WorkflowDefinition.extend (additions : NodeKey → Option (List SkillReference))
    (definition : WorkflowDefinition) : WorkflowDefinition :=
  { definition with nodes := definition.nodes.map (NodeDefinition.extend additions) }

section

variable {additions : NodeKey → Option (List SkillReference)} {node : NodeDefinition}

/-- Only the skills of a node change. -/
theorem NodeDefinition.extend_eq (additions : NodeKey → Option (List SkillReference))
    (node : NodeDefinition) : ∃ skills, node.extend additions = { node with skills := skills } := by
  unfold NodeDefinition.extend
  split
  · exact ⟨node.skills, rfl⟩
  · exact ⟨_, rfl⟩

@[simp] theorem NodeDefinition.extend_key : (node.extend additions).key = node.key := by
  obtain ⟨skills, h⟩ := extend_eq additions node
  rw [h]

@[simp] theorem NodeDefinition.extend_kind : (node.extend additions).kind = node.kind := by
  obtain ⟨skills, h⟩ := extend_eq additions node
  rw [h]

@[simp] theorem NodeDefinition.extend_inputMappings :
    (node.extend additions).inputMappings = node.inputMappings := by
  obtain ⟨skills, h⟩ := extend_eq additions node
  rw [h]

@[simp] theorem NodeDefinition.extend_phasePack :
    (node.extend additions).phasePack = node.phasePack := by
  obtain ⟨skills, h⟩ := extend_eq additions node
  rw [h]

@[simp] theorem NodeDefinition.extend_modelRouting :
    (node.extend additions).modelRouting = node.modelRouting := by
  obtain ⟨skills, h⟩ := extend_eq additions node
  rw [h]

theorem NodeDefinition.mem_extend_skills {reference : SkillReference} :
    reference ∈ (node.extend additions).skills ↔
      reference ∈ node.skills ∨ ∃ skills, additions node.key = some skills ∧ reference ∈ skills := by
  unfold NodeDefinition.extend
  split
  · rename_i hnone
    simp [hnone]
  · rename_i skills hsome
    rw [mem_sortSkills, List.mem_append, hsome]
    simp

/-- A task that is given further skills still passes its constructor. -/
theorem NodeDefinition.postInit_extend (h : node.postInit = .ok ())
    (htask : (additions node.key).isSome → node.kind = .task) :
    (node.extend additions).postInit = .ok () := by
  unfold NodeDefinition.extend
  split
  · exact h
  · rename_i skills hsome
    have hkind : node.kind = .task := htask (by rw [hsome]; rfl)
    have hnodup := sortSkills_nodup (node.skills ++ skills)
    unfold NodeDefinition.postInit at h ⊢
    simp only [check_bind_eq_ok, raiseIf_eq_ok, hkind] at h ⊢
    obtain ⟨h₁, h₂, h₃, h₄, h₅, h₆, h₇, h₈, h₉, h₁₀, h₁₁, -, h₁₃, h₁₄, h₁₅, h₁₆, h₁₇, -⟩ := h
    exact ⟨h₁, h₂, h₃, h₄, h₅, h₆, h₇, h₈, h₉, h₁₀, h₁₁, by simp, h₁₃, h₁₄, h₁₅, h₁₆, h₁₇,
      not_not.mpr hnodup⟩

/-- Adding the same skills once more changes nothing. -/
theorem NodeDefinition.extend_extend : (node.extend additions).extend additions = node.extend additions := by
  unfold NodeDefinition.extend
  cases hadditions : additions node.key with
  | none => simp only [hadditions]
  | some skills =>
    simp only [hadditions]
    congr 1
    apply sortSkills_congr
    intro reference
    rw [List.mem_append, mem_sortSkills, List.mem_append]
    tauto

end

/-! ## 3. The checks on the graph -/

namespace WorkflowGraph

/-- The graph with other skills at its nodes. -/
def extend (additions : NodeKey → Option (List SkillReference)) (graph : WorkflowGraph) :
    WorkflowGraph :=
  { graph with nodes := graph.nodes.map (NodeDefinition.extend additions) }

variable {additions : NodeKey → Option (List SkillReference)} {graph : WorkflowGraph}

@[simp] theorem extend_keys : (graph.extend additions).keys = graph.keys := by
  unfold keys extend
  rw [List.map_map]
  exact List.map_congr_left fun node _ => NodeDefinition.extend_key

theorem extend_node (key : NodeKey) :
    (graph.extend additions).node key = (graph.node key).map (NodeDefinition.extend additions) := by
  unfold node extend
  rw [List.find?_map]
  simp only [Function.comp_def, NodeDefinition.extend_key]

@[simp] theorem extend_adjacency : (graph.extend additions).adjacency = graph.adjacency := rfl

@[simp] theorem extend_incomingSources :
    (graph.extend additions).incomingSources = graph.incomingSources := rfl

@[simp] theorem extend_reachableFrom :
    (graph.extend additions).reachableFrom = graph.reachableFrom := by
  funext start
  unfold reachableFrom
  rw [extend_keys, extend_adjacency]

@[simp] theorem extend_canReach : (graph.extend additions).canReach = graph.canReach := by
  funext source target skipInitial
  unfold canReach
  rw [extend_keys, extend_adjacency]

theorem extend_checkEdges (seen edges : List EdgeDefinition) :
    (graph.extend additions).checkEdges seen edges = graph.checkEdges seen edges := by
  induction edges generalizing seen with
  | nil => rfl
  | cons edge rest ih =>
    unfold checkEdges
    rw [extend_node, extend_node]
    cases graph.node edge.source with
    | none => rfl
    | some source =>
      cases graph.node edge.target with
      | none => rfl
      | some target => simp only [Option.map_some, NodeDefinition.extend_kind, ih]

theorem extend_checkRoute (source : NodeKey) (outcome : NodeOutcome) :
    (graph.extend additions).checkRoute source outcome = graph.checkRoute source outcome := by
  unfold checkRoute
  rw [extend_node, Option.any_map]
  simp only [NodeDefinition.extend_kind]
  rfl

theorem extend_checkNode (node : NodeDefinition) :
    (graph.extend additions).checkNode (node.extend additions) = graph.checkNode node := by
  have hmapping : (graph.extend additions).checkMapping (node.extend additions) =
      graph.checkMapping node := by
    funext mapping
    unfold checkMapping
    rw [extend_node]
    cases graph.node mapping.sourceNode with
    | none => rfl
    | some source =>
      simp only [Option.map_some, NodeDefinition.extend_kind, NodeDefinition.extend_key,
        extend_reachableFrom]
  unfold checkNode
  rw [hmapping]
  simp only [NodeDefinition.extend_kind, NodeDefinition.extend_key,
    NodeDefinition.extend_inputMappings, extend_adjacency, extend_incomingSources]
  rfl

end WorkflowGraph

section

variable {additions : NodeKey → Option (List SkillReference)} {definition : WorkflowDefinition}

theorem WorkflowDefinition.extend_graph : (definition.extend additions).toWorkflowGraph =
    definition.toWorkflowGraph.extend additions := rfl

/-- More skills at tasks do not bring a definition down. -/
theorem WorkflowDefinition.construct_extend (h : definition.construct = .ok ())
    (htask : ∀ node ∈ definition.nodes, (additions node.key).isSome → node.kind = .task) :
    (definition.extend additions).construct = .ok () := by
  have hnodes : (definition.extend additions).nodes =
      definition.nodes.map (NodeDefinition.extend additions) := rfl
  unfold construct at h ⊢
  rw [hnodes]
  simp only [check_bind_eq_ok, forAll_eq_ok, List.forall_mem_map, NodeDefinition.extend_inputMappings]
    at h ⊢
  obtain ⟨hmappings, hpost, hedges, hdefinition⟩ := h
  refine ⟨hmappings, fun node hnode => NodeDefinition.postInit_extend (hpost node hnode)
    (htask node hnode), hedges, ?_⟩
  unfold postInit at hdefinition ⊢
  rw [hnodes]
  simp only [check_bind_eq_ok, forAll_eq_ok, raiseIf_eq_ok, List.forall_mem_map, extend_graph,
    WorkflowGraph.extend_keys, WorkflowGraph.extend_checkEdges, WorkflowGraph.extend_checkRoute,
    WorkflowGraph.extend_checkNode, WorkflowGraph.extend_reachableFrom, WorkflowGraph.extend_canReach,
    NodeDefinition.extend_kind, NodeDefinition.extend_key] at hdefinition ⊢
  exact hdefinition

end

/-! ## 4. Snapshots -/

namespace WorkflowSnapshot

variable (snapshot : WorkflowSnapshot)

/-- `required_phase_packs`. -/
def requiredPhasePacks : List PhasePackReference := snapshot.nodes.filterMap NodeDefinition.phasePack

/-- `required`, the skills of the nodes and of the phase packs. -/
def requiredSkills : List SkillReference :=
  snapshot.nodes.flatMap NodeDefinition.skills ++
    snapshot.phasePacks.flatMap PhasePackDefinition.skills

/-- `required_nodes`. -/
def requiredSelections : List NodeKey :=
  (snapshot.nodes.filter fun node => node.modelRouting.isSome).map NodeDefinition.key

/-- The inputs of a node against those that its phase pack declares. -/
def checkInputs (node : NodeDefinition) (phasePack : PhasePackDefinition) :
    Except WorkflowDefinitionError Unit := do
  raiseIf (¬node.inputMappings.map NodeInputMapping.inputKey ⊆
      phasePack.inputs.map PhaseInputDefinition.key)
    ⟨"node maps an undeclared phase pack input"⟩
  raiseIf (¬(phasePack.inputs.filter PhaseInputDefinition.required).map PhaseInputDefinition.key ⊆
      node.inputMappings.map NodeInputMapping.inputKey)
    ⟨"node must map every required phase pack input"⟩

/-- `WorkflowSnapshot.__post_init__`; two sets are equal when each is within the other. -/
def postInit : Except WorkflowDefinitionError Unit := do
  let packReferences := snapshot.phasePacks.map PhasePackDefinition.reference
  raiseIf (¬packReferences.Nodup) ⟨"snapshot phase packs must be unique by key and version"⟩
  raiseIf (¬(snapshot.requiredPhasePacks ⊆ packReferences ∧
      packReferences ⊆ snapshot.requiredPhasePacks))
    ⟨"snapshot phase packs must exactly resolve node references"⟩
  forAll snapshot.nodes fun node =>
    forAll (node.phasePack.bind snapshot.phasePack).toList (checkInputs node)
  let skillReferences := snapshot.skills.map SkillDefinition.reference
  raiseIf (¬skillReferences.Nodup) ⟨"snapshot skills must be unique by key and version"⟩
  raiseIf (¬(snapshot.requiredSkills ⊆ skillReferences ∧ skillReferences ⊆ snapshot.requiredSkills))
    ⟨"snapshot skills must exactly resolve node references"⟩
  let selectionNodes := snapshot.modelSelections.map NodeModelSelection.nodeKey
  raiseIf (¬selectionNodes.Nodup) ⟨"snapshot model selections must be unique by node"⟩
  raiseIf (¬(snapshot.requiredSelections ⊆ selectionNodes ∧
      selectionNodes ⊆ snapshot.requiredSelections))
    ⟨"snapshot model selections must exactly resolve node routing requests"⟩

end WorkflowSnapshot

end JbOrchestrator.Workflows
