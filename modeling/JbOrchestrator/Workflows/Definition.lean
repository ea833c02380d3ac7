import JbOrchestrator.Lib.Worklist
import JbOrchestrator.Workflows.Models

/-!
# Definition — the checks of the definition constructors

`postInit` is the `__post_init__` of each class with its checks in source order.  A definition is
accepted when the constructors of its parts and its own one all return; what acceptance says about
the graph is stated once, in `AcceptedDefinition` and the lemmas on it.
-/

open Lib Relation

namespace JbOrchestrator.Workflows

structure WorkflowDefinitionError where
  message : String
  deriving DecidableEq, Repr

/-! ## 1. Raising -/

def raiseIf {ε : Type} (condition : Prop) [Decidable condition] (error : ε) : Except ε Unit :=
  if condition then .error error else .ok ()

/-- `for x in xs: check(x)`. -/
def forAll {α ε : Type} (xs : List α) (check : α → Except ε Unit) : Except ε Unit :=
  match xs with
  | [] => .ok ()
  | x :: xs => do
    check x
    forAll xs check

@[simp] theorem raiseIf_eq_ok {ε : Type} {condition : Prop} [Decidable condition] {error : ε} :
    raiseIf condition error = .ok () ↔ ¬condition := by
  unfold raiseIf
  split <;> simp_all

@[simp] theorem check_bind_eq_ok {β ε : Type} {x : Except ε Unit} {f : Unit → Except ε β} {b : β} :
    (x >>= f) = .ok b ↔ x = .ok () ∧ f () = .ok b := by
  cases x <;> simp [bind, Except.bind]

@[simp] theorem forAll_eq_ok {α ε : Type} {xs : List α} {check : α → Except ε Unit} :
    forAll xs check = .ok () ↔ ∀ x ∈ xs, check x = .ok () := by
  induction xs with
  | nil => simp [forAll]
  | cons x xs ih => simp [forAll, ih]

/-! ## 2. The parts of a definition -/

def isKeyHead (c : Char) : Bool := 97 ≤ c.toNat && c.toNat ≤ 122

/-- `NODE_INPUT_KEY_PATTERN`, `^[a-z][a-z0-9_]*$`. -/
def matchesInputKey (s : String) : Bool :=
  match s.toList with
  | [] => false
  | c :: cs => isKeyHead c && cs.all fun c => isKeyHead c || Text.isDigit c || c = '_'

def NodeInputMapping.postInit (mapping : NodeInputMapping) :
    Except WorkflowDefinitionError Unit := do
  raiseIf (matchesInputKey mapping.inputKey = false)
    ⟨"node input mapping key must be lower snake_case"⟩
  raiseIf (Text.isBlank mapping.sourceNode) ⟨"node input mapping fields must not be empty"⟩

/-- Every `~` of a JSON Pointer starts one of the escapes `~0` and `~1`. -/
def escapesValid : List Char → Bool
  | [] => true
  | '~' :: cs =>
    match cs with
    | '0' :: rest => escapesValid rest
    | '1' :: rest => escapesValid rest
    | _ => false
  | _ :: cs => escapesValid cs

/-- `JSON_POINTER_PATTERN`, `^(?:/(?:[^~/]|~[01])*)*$`. -/
def matchesJsonPointer (s : String) : Bool :=
  match s.toList with
  | [] => true
  | c :: cs => decide (c = '/') && escapesValid cs

/-- A condition on a scalar that is no finite JSON scalar cannot be written in the model, so only
the check on the path is left. -/
def ArtifactCondition.postInit (condition : ArtifactCondition) :
    Except WorkflowDefinitionError Unit :=
  raiseIf (condition.path = "" ∨ 512 < condition.path.length ∨
      matchesJsonPointer condition.path = false)
    ⟨"artifact condition path must be a non-empty JSON Pointer"⟩

def NodeDefinition.postInit (node : NodeDefinition) : Except WorkflowDefinitionError Unit := do
  raiseIf (Text.isBlank node.key) ⟨"node key must not be empty"⟩
  raiseIf (node.maxAttempts < 1) ⟨"node max_attempts must be greater than zero"⟩
  raiseIf (node.maxVisits < 1) ⟨"node max_visits must be greater than zero"⟩
  raiseIf (node.timeoutSeconds < 1) ⟨"node timeout_seconds must be greater than zero"⟩
  raiseIf (node.kind.isStructural ∧ node.maxVisits ≠ 1)
    ⟨"fork and join nodes currently allow only one visit"⟩
  raiseIf (node.kind = .terminal ∧ node.terminalStatus ≠ some .succeeded ∧
      node.terminalStatus ≠ some .failed)
    ⟨"terminal node requires succeeded or failed status"⟩
  raiseIf (node.kind ≠ .terminal ∧ node.terminalStatus.isSome)
    ⟨"only terminal nodes may define terminal_status"⟩
  raiseIf (node.executorKey.isSome ∧ node.kind ≠ .task)
    ⟨"only task nodes may define executor_key"⟩
  raiseIf (node.executorKey.any Text.isBlank) ⟨"node executor_key must not be empty"⟩
  raiseIf (node.instructions.any Text.isBlank) ⟨"node instructions must not be empty"⟩
  raiseIf (node.kind ≠ .task ∧ (node.instructions.isSome ∨ node.configuration.isEmpty = false))
    ⟨"only task nodes may define instructions or configuration"⟩
  raiseIf (node.kind ≠ .task ∧ node.skills.isEmpty = false)
    ⟨"only task nodes may reference skills"⟩
  raiseIf (node.kind ≠ .task ∧ node.modelRouting.isSome)
    ⟨"only task nodes may define model routing"⟩
  raiseIf (node.kind ≠ .task ∧ node.phasePack.isSome)
    ⟨"only task nodes may reference phase packs"⟩
  raiseIf (node.kind ≠ .task ∧ node.inputMappings.isEmpty = false)
    ⟨"only task nodes may define input mappings"⟩
  raiseIf (node.phasePack = none ∧ node.inputMappings.isEmpty = false)
    ⟨"node input mappings require a phase pack"⟩
  raiseIf (¬(node.inputMappings.map NodeInputMapping.inputKey).Nodup)
    ⟨"node input mapping keys must be unique"⟩
  raiseIf (¬node.skills.Nodup) ⟨"node skill references must be unique"⟩

/-! ## 3. The graph checks -/

def allowedOutcomes : NodeKind → List NodeOutcome
  | .task => [.success, .failure]
  | .approval => [.approved, .rejected]
  | .fork => [.success]
  | .join => [.success]
  | .terminal => []

namespace WorkflowGraph

variable (graph : WorkflowGraph)

/-- The loop over the edges; `seen` is the set `seen_edges`. -/
def checkEdges : List EdgeDefinition → List EdgeDefinition → Except WorkflowDefinitionError Unit
  | _, [] => .ok ()
  | seen, edge :: rest =>
    match graph.node edge.source, graph.node edge.target with
    | some source, some _ => do
      raiseIf (edge.condition.isSome ∧ source.kind ≠ .task)
        ⟨"only task edges may define artifact conditions"⟩
      raiseIf (seen.any edge.pyEq) ⟨"duplicate workflow edges are not allowed"⟩
      raiseIf (edge.outcome ∉ allowedOutcomes source.kind)
        ⟨"edge outcome is invalid for its source node"⟩
      checkEdges (edge :: seen) rest
    | _, _ => .error ⟨"workflow edge references an unknown node"⟩

/-- The checks on the edges that leave one node by one outcome. -/
def checkRoute (source : NodeKey) (outcome : NodeOutcome) : Except WorkflowDefinitionError Unit :=
  let routeEdges := graph.routeEdges source outcome
  let defaults := routeEdges.filter fun edge => edge.condition.isNone
  let conditional := routeEdges.filterMap EdgeDefinition.condition
  if (graph.node source).any (fun node => node.kind = .fork) then .ok ()
  else do
    raiseIf (1 < defaults.length) ⟨"node outcomes may have only one default target"⟩
    raiseIf (1 < routeEdges.length ∧ conditional = [])
      ⟨"node outcomes may have only one target"⟩
    raiseIf (1 < (conditional.map ArtifactCondition.path).dedup.length)
      ⟨"conditional edges for one outcome must use the same artifact path"⟩
    raiseIf (¬(conditional.map ArtifactCondition.equals).Nodup)
      ⟨"conditional edges for one outcome must use distinct values"⟩

/-- The nodes a search along the edges finds from `start`. -/
def reachableFrom (start : NodeKey) : List NodeKey :=
  (Worklist.explore graph.adjacency (Worklist.searchFuel graph.adjacency graph.keys [start])
    [start] []).getD []

/-- `_can_reach(adjacency, source, target, skip_initial=...)`. -/
def canReach (source target : NodeKey) (skipInitial : Bool) : Bool :=
  let pending := if skipInitial then graph.adjacency source else [source]
  (Worklist.finds graph.adjacency target
    (Worklist.searchFuel graph.adjacency graph.keys pending) pending []).getD false

def checkMapping (node : NodeDefinition) (mapping : NodeInputMapping) :
    Except WorkflowDefinitionError Unit :=
  match graph.node mapping.sourceNode with
  | none => .error ⟨"node input mapping references an unknown node"⟩
  | some source => do
    raiseIf (source.kind ≠ .task) ⟨"node input mapping source must be a task node"⟩
    raiseIf (source.key = node.key) ⟨"node input mapping cannot reference itself"⟩
    raiseIf (node.key ∉ graph.reachableFrom source.key)
      ⟨"node input mapping source must precede its target in the graph"⟩

def checkNode (node : NodeDefinition) : Except WorkflowDefinitionError Unit := do
  raiseIf (node.kind = .terminal ∧ graph.adjacency node.key ≠ [])
    ⟨"terminal nodes cannot have outgoing edges"⟩
  raiseIf (node.kind ≠ .terminal ∧ graph.adjacency node.key = [])
    ⟨"non-terminal nodes require an outgoing edge"⟩
  raiseIf (node.kind = .fork ∧ (graph.adjacency node.key).length < 2)
    ⟨"fork nodes require at least two targets"⟩
  raiseIf (node.kind = .join ∧ node.key = graph.entryNode)
    ⟨"join nodes cannot be workflow entry nodes"⟩
  raiseIf (node.kind = .join ∧ (graph.incomingSources node.key).length < 2)
    ⟨"join nodes require at least two sources"⟩
  forAll node.inputMappings (graph.checkMapping node)

end WorkflowGraph

/-- `WorkflowDefinition.__post_init__`.  The routes are checked edge by edge: a route that passed
passes again, so the first failing route is the one the source finds. -/
def WorkflowDefinition.postInit (definition : WorkflowDefinition) :
    Except WorkflowDefinitionError Unit := do
  raiseIf (Text.isBlank definition.key) ⟨"workflow key must not be empty"⟩
  raiseIf (definition.version < 1) ⟨"workflow version must be greater than zero"⟩
  raiseIf (¬definition.keys.Nodup) ⟨"workflow node keys must be unique"⟩
  raiseIf (definition.entryNode ∉ definition.keys) ⟨"workflow entry node does not exist"⟩
  definition.checkEdges [] definition.edges
  forAll definition.edges fun edge => definition.checkRoute edge.source edge.outcome
  forAll definition.nodes definition.checkNode
  raiseIf (¬(definition.reachableFrom definition.entryNode ⊆ definition.keys ∧
      definition.keys ⊆ definition.reachableFrom definition.entryNode))
    ⟨"all workflow nodes must be reachable from the entry"⟩
  forAll definition.nodes fun node =>
    raiseIf (node.kind.isStructural ∧ definition.canReach node.key node.key true)
      ⟨"fork and join nodes cannot participate in loops"⟩

/-- The constructor calls that build a definition, inside out. -/
def WorkflowDefinition.construct (definition : WorkflowDefinition) :
    Except WorkflowDefinitionError Unit := do
  forAll definition.nodes fun node => forAll node.inputMappings NodeInputMapping.postInit
  forAll definition.nodes NodeDefinition.postInit
  forAll definition.edges fun edge => forAll edge.condition.toList ArtifactCondition.postInit
  definition.postInit

/-- A definition that its constructors accepted. -/
structure AcceptedDefinition where
  definition : WorkflowDefinition
  accepted : definition.construct = .ok ()

/-! ## 4. Paths -/

namespace WorkflowGraph

variable {graph : WorkflowGraph}

/-- Some edge leads from `a` to `b`. -/
def Adjacent (graph : WorkflowGraph) (a b : NodeKey) : Prop :=
  ∃ edge ∈ graph.edges, edge.source = a ∧ edge.target = b

theorem mem_adjacency {a b : NodeKey} : b ∈ graph.adjacency a ↔ graph.Adjacent a b := by
  simp [adjacency, Adjacent, and_assoc]

theorem mem_incomingSources {a b : NodeKey} :
    a ∈ graph.incomingSources b ↔ graph.Adjacent a b := by
  simp only [incomingSources, List.mem_insertionSort, List.mem_dedup, List.mem_map,
    List.mem_filter, decide_eq_true_eq, Adjacent]
  constructor
  · rintro ⟨edge, ⟨hedge, htarget⟩, hsource⟩
    exact ⟨edge, hedge, hsource, htarget⟩
  · rintro ⟨edge, hedge, hsource, htarget⟩
    exact ⟨edge, ⟨hedge, htarget⟩, hsource⟩

theorem edge_adjacency : Worklist.Edge graph.adjacency = graph.Adjacent := by
  funext a b
  exact propext mem_adjacency

theorem node_key {key : NodeKey} {node : NodeDefinition} (h : graph.node key = some node) :
    node.key = key := by
  simpa using List.find?_some h

theorem node_mem {key : NodeKey} {node : NodeDefinition} (h : graph.node key = some node) :
    node ∈ graph.nodes :=
  List.mem_of_find?_eq_some h

theorem mem_keys_iff {key : NodeKey} : key ∈ graph.keys ↔ ∃ node, graph.node key = some node := by
  rw [← Option.isSome_iff_exists]
  simp [node, keys, List.find?_isSome]

theorem node_of_mem (hnodup : graph.keys.Nodup) {node : NodeDefinition} (h : node ∈ graph.nodes) :
    graph.node node.key = some node := by
  unfold WorkflowGraph.node
  unfold keys at hnodup
  generalize graph.nodes = nodes at h hnodup ⊢
  induction nodes with
  | nil => cases h
  | cons first rest ih =>
    rw [List.map_cons, List.nodup_cons] at hnodup
    rcases List.mem_cons.mp h with rfl | h
    · simp
    · have hne : first.key ≠ node.key := fun heq =>
        hnodup.1 (heq ▸ List.mem_map_of_mem h)
      rw [List.find?_cons_of_neg (by simpa using hne)]
      exact ih h hnodup.2

/-- Both ends of every edge are nodes. -/
def EdgesKnown (graph : WorkflowGraph) : Prop :=
  ∀ edge ∈ graph.edges, edge.source ∈ graph.keys ∧ edge.target ∈ graph.keys

theorem EdgesKnown.adjacency_subset (h : graph.EdgesKnown) (a : NodeKey) :
    graph.adjacency a ⊆ graph.keys := by
  intro b hb
  obtain ⟨edge, hedge, -, rfl⟩ := mem_adjacency.mp hb
  exact (h edge hedge).2

/-- `_can_reach` with `skip_initial` answers whether a non-empty path leads to the target. -/
theorem canReach_iff (h : graph.EdgesKnown) (source target : NodeKey) :
    graph.canReach source target true = true ↔ TransGen graph.Adjacent source target := by
  obtain ⟨answer, hanswer⟩ := Worklist.finds_isSome
    (fun v _ => h.adjacency_subset v) target (h.adjacency_subset source) (le_refl _)
  have hreach := Worklist.finds_iff hanswer
  simp only [canReach, if_true, Worklist.searchFuel, hanswer, Option.getD_some]
  rw [hreach, edge_adjacency, TransGen.head'_iff]
  simp only [mem_adjacency]

/-- The search from a node answers the nodes a path leads to. -/
theorem mem_reachableFrom_iff (h : graph.EdgesKnown) {start : NodeKey} (hstart : start ∈ graph.keys)
    (key : NodeKey) : key ∈ graph.reachableFrom start ↔ ReflTransGen graph.Adjacent start key := by
  obtain ⟨found, hfound⟩ := Worklist.explore_isSome
    (fun v _ => h.adjacency_subset v) (List.cons_subset.mpr ⟨hstart, List.nil_subset _⟩) (le_refl _)
  have hreach := Worklist.mem_explore_iff hfound key
  simp only [reachableFrom, Worklist.searchFuel, hfound, Option.getD_some]
  rw [hreach, edge_adjacency]
  simp

/-! ## 5. What acceptance says -/

/-- The facts about the graph of an accepted definition that the engine relies on. -/
structure WellFormed (graph : WorkflowGraph) : Prop where
  keys_nodup : graph.keys.Nodup
  entry_mem : graph.entryNode ∈ graph.keys
  edges_known : graph.EdgesKnown
  outcome_allowed : ∀ edge ∈ graph.edges, ∀ node, graph.node edge.source = some node →
    edge.outcome ∈ allowedOutcomes node.kind
  condition_task : ∀ edge ∈ graph.edges, ∀ node, graph.node edge.source = some node →
    edge.condition.isSome → node.kind = .task
  one_default : ∀ source outcome node, graph.node source = some node → node.kind ≠ .fork →
    ((graph.routeEdges source outcome).filter fun edge => edge.condition.isNone).length ≤ 1
  has_edge : ∀ key node, graph.node key = some node → node.kind ≠ .terminal →
    ∃ target, graph.Adjacent key target
  entry_not_join : ∀ node, graph.node graph.entryNode = some node → node.kind ≠ .join
  structural_acyclic : ∀ key node, graph.node key = some node → node.kind.isStructural →
    ¬TransGen graph.Adjacent key key
  structural_visits : ∀ key node, graph.node key = some node → node.kind.isStructural →
    node.maxVisits = 1
  attempts_pos : ∀ key node, graph.node key = some node → 1 ≤ node.maxAttempts
  visits_pos : ∀ key node, graph.node key = some node → 1 ≤ node.maxVisits
  terminal_status : ∀ key node, graph.node key = some node → node.kind = .terminal →
    node.terminalStatus = some .succeeded ∨ node.terminalStatus = some .failed

theorem checkEdges_ok {seen edges : List EdgeDefinition}
    (h : graph.checkEdges seen edges = .ok ()) {edge : EdgeDefinition} (hedge : edge ∈ edges) :
    (∃ target, graph.node edge.target = some target) ∧
      ∃ source, graph.node edge.source = some source ∧
        edge.outcome ∈ allowedOutcomes source.kind ∧
        (edge.condition.isSome → source.kind = .task) := by
  induction edges generalizing seen with
  | nil => cases hedge
  | cons first rest ih =>
    rw [checkEdges] at h
    split at h
    · rename_i source target hsource htarget
      simp only [check_bind_eq_ok, raiseIf_eq_ok] at h
      obtain ⟨hcondition, -, houtcome, hrest⟩ := h
      rcases List.mem_cons.mp hedge with rfl | hedge
      · refine ⟨⟨target, htarget⟩, source, hsource, not_not.mp houtcome, fun hsome => ?_⟩
        by_contra hkind
        exact hcondition ⟨hsome, hkind⟩
      · exact ih hrest hedge
    · cases h

theorem edgesKnown_of_checkEdges (h : graph.checkEdges [] graph.edges = .ok ()) :
    graph.EdgesKnown := by
  intro edge hedge
  obtain ⟨⟨target, htarget⟩, source, hsource, -⟩ := checkEdges_ok h hedge
  exact ⟨mem_keys_iff.mpr ⟨source, hsource⟩, mem_keys_iff.mpr ⟨target, htarget⟩⟩

end WorkflowGraph

/-- The graph of an accepted definition. -/
abbrev AcceptedDefinition.graph (d : AcceptedDefinition) : WorkflowGraph :=
  d.definition.toWorkflowGraph

theorem AcceptedDefinition.wellFormed (d : AcceptedDefinition) : d.graph.WellFormed := by
  have h := d.accepted
  simp only [WorkflowDefinition.construct, WorkflowDefinition.postInit, check_bind_eq_ok,
    forAll_eq_ok, raiseIf_eq_ok, not_not] at h
  obtain ⟨-, hnodes, -, -, -, hnodup, hentry, hedges, hroutes, hchecks, -, hloops⟩ := h
  have hknown : d.graph.EdgesKnown := WorkflowGraph.edgesKnown_of_checkEdges hedges
  have hnode : ∀ key node, d.graph.node key = some node →
      node.postInit = .ok () ∧ d.graph.checkNode node = .ok () ∧ node.key = key := by
    intro key node hkey
    have hmem := WorkflowGraph.node_mem hkey
    exact ⟨hnodes node hmem, hchecks node hmem, WorkflowGraph.node_key hkey⟩
  refine
    { keys_nodup := hnodup
      entry_mem := hentry
      edges_known := hknown
      outcome_allowed := ?_
      condition_task := ?_
      one_default := ?_
      has_edge := ?_
      entry_not_join := ?_
      structural_acyclic := ?_
      structural_visits := ?_
      attempts_pos := ?_
      visits_pos := ?_
      terminal_status := ?_ }
  · intro edge hedge node hsource
    obtain ⟨-, source, hsource', houtcome, -⟩ := WorkflowGraph.checkEdges_ok hedges hedge
    obtain rfl : source = node := Option.some_injective _ (hsource'.symm.trans hsource)
    exact houtcome
  · intro edge hedge node hsource
    obtain ⟨-, source, hsource', -, hcondition⟩ := WorkflowGraph.checkEdges_ok hedges hedge
    obtain rfl : source = node := Option.some_injective _ (hsource'.symm.trans hsource)
    exact hcondition
  · intro source outcome node hsource hkind
    by_cases hempty : d.graph.routeEdges source outcome = []
    · simp [hempty]
    obtain ⟨edge, hedge⟩ := List.exists_mem_of_ne_nil _ hempty
    obtain ⟨hmem, rfl, rfl⟩ : edge ∈ d.graph.edges ∧ edge.source = source ∧
        edge.outcome = outcome := by
      simpa [WorkflowGraph.routeEdges] using hedge
    have hroute := hroutes edge hmem
    unfold WorkflowGraph.checkRoute at hroute
    rw [if_neg (by simp [hsource, hkind])] at hroute
    simp only [check_bind_eq_ok, raiseIf_eq_ok] at hroute
    exact not_lt.mp hroute.1
  · intro key node hkey hkind
    obtain ⟨-, hcheck, rfl⟩ := hnode key node hkey
    simp only [WorkflowGraph.checkNode, check_bind_eq_ok, raiseIf_eq_ok] at hcheck
    obtain ⟨target, htarget⟩ := List.exists_mem_of_ne_nil _
      (fun hempty => hcheck.2.1 ⟨hkind, hempty⟩)
    exact ⟨target, WorkflowGraph.mem_adjacency.mp htarget⟩
  · intro node hkey hkind
    obtain ⟨-, hcheck, hkey'⟩ := hnode _ node hkey
    simp only [WorkflowGraph.checkNode, check_bind_eq_ok, raiseIf_eq_ok] at hcheck
    exact hcheck.2.2.2.1 ⟨hkind, hkey'⟩
  · intro key node hkey hkind
    obtain ⟨-, -, rfl⟩ := hnode key node hkey
    rw [← WorkflowGraph.canReach_iff hknown]
    exact fun hreach => hloops node (WorkflowGraph.node_mem hkey) ⟨hkind, hreach⟩
  all_goals
    intro key node hkey
    have hpost := (hnode key node hkey).1
    simp only [NodeDefinition.postInit, check_bind_eq_ok, raiseIf_eq_ok] at hpost
    obtain ⟨-, hattempts, hvisits, -, hstructural, hterminal, -⟩ := hpost
  · intro hkind
    by_contra hne
    exact hstructural ⟨hkind, hne⟩
  · omega
  · omega
  · intro hkind
    by_contra hne
    rw [not_or] at hne
    exact hterminal ⟨hkind, hne.1, hne.2⟩

end JbOrchestrator.Workflows
