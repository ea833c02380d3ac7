import JbOrchestrator.Workflows.Definition
import JbOrchestrator.Workflows.Engine

/-!
# Routing — the targets a completed visit selects

What `selectTargets` answers on the routes of a well-formed graph: a fork or a join selects all its
successors, every other node at most one.  The chains of forks and joins that `_activate` recurses
through are finite because no structural node lies on a cycle; `structuralRank` bounds them.
-/

open Lib Relation

namespace JbOrchestrator.Workflows

theorem mem_selectTargets {edges : List EdgeDefinition} {output : Option JsonObject} {t : NodeKey}
    (h : t ∈ selectTargets edges output) : ∃ edge ∈ edges, edge.target = t := by
  simp only [selectTargets] at h
  split at h
  · simpa using h
  · split at h
    · rename_i edge hfind
      obtain rfl := List.mem_singleton.mp h
      exact ⟨edge, (List.mem_filter.mp (List.mem_of_find?_eq_some hfind)).1, rfl⟩
    · split at h
      · rename_i edge hfind
        obtain rfl := List.mem_singleton.mp h
        exact ⟨edge, List.mem_of_find?_eq_some hfind, rfl⟩
      · cases h

theorem selectTargets_of_unconditional {edges : List EdgeDefinition} (output : Option JsonObject)
    (h : ∀ edge ∈ edges, edge.condition = none) :
    selectTargets edges output = (edges.map EdgeDefinition.target).insertionSort (· ≤ ·) := by
  unfold selectTargets
  rw [if_pos]
  rw [List.filter_eq_nil_iff]
  intro edge hedge
  simp [h edge hedge]

/-- Without two default edges a route selects at most one target. -/
theorem length_selectTargets_le_one {edges : List EdgeDefinition} (output : Option JsonObject)
    (h : (edges.filter fun edge => edge.condition.isNone).length ≤ 1) :
    (selectTargets edges output).length ≤ 1 := by
  simp only [selectTargets]
  split
  · rename_i hnone
    have hall : edges.filter (fun edge => edge.condition.isNone) = edges := by
      rw [List.filter_eq_self]
      intro edge hedge
      simpa using (List.filter_eq_nil_iff.mp hnone) edge hedge
    rw [hall] at h
    simpa using h
  · split
    · simp
    · split <;> simp

namespace WorkflowGraph

variable {graph : WorkflowGraph}

theorem mem_routeEdges {source : NodeKey} {outcome : NodeOutcome} {edge : EdgeDefinition} :
    edge ∈ graph.routeEdges source outcome ↔
      edge ∈ graph.edges ∧ edge.source = source ∧ edge.outcome = outcome := by
  simp [routeEdges]

theorem adjacent_of_mem_selectTargets {source : NodeKey} {outcome : NodeOutcome}
    {output : Option JsonObject} {t : NodeKey}
    (h : t ∈ selectTargets (graph.routeEdges source outcome) output) :
    graph.Adjacent source t := by
  obtain ⟨edge, hedge, htarget⟩ := mem_selectTargets h
  obtain ⟨hmem, hsource, -⟩ := mem_routeEdges.mp hedge
  exact ⟨edge, hmem, hsource, htarget⟩

namespace WellFormed

variable (hwf : graph.WellFormed)
include hwf

theorem adjacent_mem_keys {a b : NodeKey} (h : graph.Adjacent a b) : b ∈ graph.keys := by
  obtain ⟨edge, hedge, -, rfl⟩ := h
  exact (hwf.edges_known edge hedge).2

theorem source_mem_keys {a b : NodeKey} (h : graph.Adjacent a b) : a ∈ graph.keys := by
  obtain ⟨edge, hedge, rfl, -⟩ := h
  exact (hwf.edges_known edge hedge).1

theorem structural_edge {key : NodeKey} {node : NodeDefinition} (hkey : graph.node key = some node)
    (hkind : node.kind.isStructural) {edge : EdgeDefinition} (hedge : edge ∈ graph.edges)
    (hsource : edge.source = key) : edge.outcome = .success ∧ edge.condition = none := by
  subst hsource
  have houtcome := hwf.outcome_allowed edge hedge node hkey
  have hcondition := hwf.condition_task edge hedge node hkey
  cases hk : node.kind <;> simp_all [NodeKind.isStructural, allowedOutcomes]

/-- A fork or a join selects all its successors. -/
theorem mem_structural_targets {key : NodeKey} {node : NodeDefinition}
    (hkey : graph.node key = some node) (hkind : node.kind.isStructural)
    (output : Option JsonObject) (t : NodeKey) :
    t ∈ selectTargets (graph.routeEdges key .success) output ↔ graph.Adjacent key t := by
  refine ⟨adjacent_of_mem_selectTargets, ?_⟩
  rintro ⟨edge, hedge, hsource, rfl⟩
  rw [selectTargets_of_unconditional]
  · have houtcome := (hwf.structural_edge hkey hkind hedge hsource).1
    rw [List.mem_insertionSort]
    exact List.mem_map_of_mem (mem_routeEdges.mpr ⟨hedge, hsource, houtcome⟩)
  · intro edge' hedge'
    obtain ⟨hmem, hsource', -⟩ := mem_routeEdges.mp hedge'
    exact (hwf.structural_edge hkey hkind hmem hsource').2

theorem structural_targets_ne_nil {key : NodeKey} {node : NodeDefinition}
    (hkey : graph.node key = some node) (hkind : node.kind.isStructural)
    (output : Option JsonObject) :
    selectTargets (graph.routeEdges key .success) output ≠ [] := by
  have hterminal : node.kind ≠ .terminal := by
    intro h
    rw [h] at hkind
    cases hkind
  obtain ⟨t, ht⟩ := hwf.has_edge key node hkey hterminal
  exact List.ne_nil_of_mem ((hwf.mem_structural_targets hkey hkind output t).mpr ht)

theorem length_targets_le_one {key : NodeKey} {node : NodeDefinition}
    (hkey : graph.node key = some node) (hkind : node.kind ≠ .fork) (outcome : NodeOutcome)
    (output : Option JsonObject) :
    (selectTargets (graph.routeEdges key outcome) output).length ≤ 1 :=
  length_selectTargets_le_one output (hwf.one_default key outcome node hkey hkind)

end WellFormed

/-! ## The depth of structural chains -/

open Classical in
/-- How many nodes a structural node leads to; every other node ends a chain. -/
noncomputable def structuralRank (graph : WorkflowGraph) (key : NodeKey) : ℕ :=
  if ∃ node, graph.node key = some node ∧ node.kind.isStructural then
    (graph.keys.filter fun k => TransGen graph.Adjacent key k).length
  else 0

theorem structuralRank_le (graph : WorkflowGraph) (key : NodeKey) :
    graph.structuralRank key ≤ graph.nodes.length := by
  classical
  unfold structuralRank
  split
  · exact (List.length_filter_le _ _).trans (by simp [keys])
  · exact Nat.zero_le _

/-- The rank drops along every edge that leaves a fork or a join. -/
theorem WellFormed.structuralRank_lt (hwf : graph.WellFormed) {key t : NodeKey}
    {node : NodeDefinition} (hkey : graph.node key = some node) (hkind : node.kind.isStructural)
    (hedge : graph.Adjacent key t) : graph.structuralRank t < graph.structuralRank key := by
  classical
  have ht : t ∈ graph.keys := hwf.adjacent_mem_keys hedge
  have hself : graph.structuralRank key =
      (graph.keys.filter fun k => TransGen graph.Adjacent key k).length := by
    simp [structuralRank, hkey, hkind]
  have hmem : t ∈ graph.keys.filter fun k => TransGen graph.Adjacent key k := by
    simpa using ⟨ht, TransGen.single hedge⟩
  rw [hself]
  unfold structuralRank
  split
  · rename_i hstructural
    obtain ⟨node', hnode', hkind'⟩ := hstructural
    have hnot : ¬TransGen graph.Adjacent t t := hwf.structural_acyclic t node' hnode' hkind'
    have hsub : (graph.keys.filter fun k => TransGen graph.Adjacent t k).Sublist
        (graph.keys.filter fun k => TransGen graph.Adjacent key k) := by
      apply List.monotone_filter_right
      intro k hk
      simp only [decide_eq_true_eq] at hk ⊢
      exact TransGen.head hedge hk
    refine lt_of_le_of_ne hsub.length_le fun heq => ?_
    have : t ∈ graph.keys.filter fun k => TransGen graph.Adjacent t k := by
      rw [hsub.eq_of_length heq]
      exact hmem
    simp only [List.mem_filter, decide_eq_true_eq] at this
    exact hnot this.2
  · exact List.length_pos_of_mem hmem

end WorkflowGraph

end JbOrchestrator.Workflows
