import JbOrchestrator.Lib.Related
import JbOrchestrator.Workflows.Conditions

/-!
# Ambiguity — the routes the definition checks reject

A definition that is valid but for the values that the conditions of one route compare with.  The
duplicate check compares edges with `==`, the value check compares types as well; together they
reject every ambiguous route, and also a route whose edges to one target compare with `True` and `1`.
-/

open Lib

namespace JbOrchestrator.Workflows

/-! ## 1. What is said about a route -/

/-- Some artifact satisfies the conditions of two of the listed edges. -/
def Ambiguous (route : List EdgeDefinition) : Prop :=
  ∃ output, 1 < (route.filter fun edge => edge.matchesOutput output).length

/-- Two edges to one target whose values are `==` though they are not of one type. -/
def EdgeDefinition.Confused (edge edge' : EdgeDefinition) : Prop :=
  edge.target = edge'.target ∧ ∃ c ∈ edge.condition, ∃ c' ∈ edge'.condition,
    c.equals ≠ c'.equals ∧ c.equals.pyEq c'.equals = true

instance (edge edge' : EdgeDefinition) : Decidable (edge.Confused edge') :=
  inferInstanceAs (Decidable (edge.target = edge'.target ∧ ∃ c ∈ edge.condition,
    ∃ c' ∈ edge'.condition, c.equals ≠ c'.equals ∧ c.equals.pyEq c'.equals = true))

/-- The edges agree, but for the value that a condition of the route compares with. -/
def EdgeDefinition.SameButValue (source : NodeKey) (outcome : NodeOutcome)
    (edge edge' : EdgeDefinition) : Prop :=
  edge' = edge ∨ (edge.source = source ∧ edge.outcome = outcome ∧
    ∃ c ∈ edge.condition, ∃ value, edge' = { edge with condition := some ⟨c.path, value⟩ })

def duplicateEdges : WorkflowDefinitionError := ⟨"duplicate workflow edges are not allowed"⟩

def repeatedValues : WorkflowDefinitionError :=
  ⟨"conditional edges for one outcome must use distinct values"⟩

namespace WorkflowDefinition

/-- With other values in the conditions of the route, the constructors accept the definition. -/
def OtherwiseValid (definition : WorkflowDefinition) (source : NodeKey) (outcome : NodeOutcome) :
    Prop :=
  ∃ edges, List.Forall₂ (EdgeDefinition.SameButValue source outcome) definition.edges edges ∧
    ({ definition with edges := edges } : WorkflowDefinition).construct = .ok ()

/-- The duplicate-edge check or the distinct-value check raises. -/
def Rejected (definition : WorkflowDefinition) : Prop :=
  definition.construct = .error duplicateEdges ∨ definition.construct = .error repeatedValues

end WorkflowDefinition

/-! ## 2. Equal values and artifacts -/

/-- One artifact satisfies two accepted conditions on one path when their values are the same. -/
theorem ArtifactCondition.exists_holds {c c' : ArtifactCondition} (hc : c.postInit = .ok ())
    (hpath : c.path = c'.path) (hequals : c.equals = c'.equals) :
    ∃ output, c.holds output = true ∧ c'.holds output = true := by
  obtain ⟨key, keys, htext⟩ := c.exists_keys hc
  have hvalue : jsonPointer (Rfc6901.nest (key :: keys) (.scalar c.equals)) c.path =
      some (.scalar c.equals) := by
    rw [jsonPointer_eq_some_iff htext]
    exact Rfc6901.refers_nest _ _
  refine ⟨some [(String.ofList key, Rfc6901.nest keys (.scalar c.equals))], ?_, ?_⟩
  · rw [holds_iff]
    exact hvalue
  · rw [holds_iff, ← hpath, ← hequals]
    exact hvalue

section Route

variable {route : List EdgeDefinition}

theorem mem_conditions {edge : EdgeDefinition} (hedge : edge ∈ route) {c : ArtifactCondition}
    (hc : edge.condition = some c) : c ∈ route.filterMap EdgeDefinition.condition :=
  List.mem_filterMap.mpr ⟨edge, hedge, hc⟩

/-- A route on one path is ambiguous exactly when a value occurs twice. -/
theorem ambiguous_iff
    (hvalid : ∀ c ∈ route.filterMap EdgeDefinition.condition, c.postInit = .ok ())
    (hpath : ∀ c ∈ route.filterMap EdgeDefinition.condition,
      ∀ c' ∈ route.filterMap EdgeDefinition.condition, c.path = c'.path) :
    Ambiguous route ↔
      ¬((route.filterMap EdgeDefinition.condition).map ArtifactCondition.equals).Nodup := by
  constructor
  · rintro ⟨output, htwo⟩ hnodup
    have hone : (route.filter fun edge => edge.matchesOutput output).length ≤ 1 :=
      WorkflowGraph.length_matches_le_one hpath hnodup
    omega
  · intro hrepeated
    by_contra hunambiguous
    apply hrepeated
    have hone : ∀ output,
        (route.filter fun edge => edge.matchesOutput output).length ≤ 1 := by
      intro output
      by_contra htwo
      exact hunambiguous ⟨output, not_le.mp htwo⟩
    clear hunambiguous hrepeated
    induction route with
    | nil => exact List.nodup_nil
    | cons edge route ih =>
      have hrest : ∀ output,
          (route.filter fun edge => edge.matchesOutput output).length ≤ 1 := by
        intro output
        refine le_trans ?_ (hone output)
        exact ((List.sublist_cons_self edge route).filter _).length_le
      cases hcondition : edge.condition with
      | none =>
        rw [List.filterMap_cons_none hcondition] at hvalid hpath ⊢
        exact ih hvalid hpath hrest
      | some c =>
        rw [List.filterMap_cons_some hcondition] at hvalid hpath ⊢
        rw [List.map_cons, List.nodup_cons]
        refine ⟨?_, ih (fun c hc => hvalid c (List.mem_cons_of_mem _ hc))
          (fun c hc c' hc' => hpath c (List.mem_cons_of_mem _ hc) c'
            (List.mem_cons_of_mem _ hc')) hrest⟩
        intro hin
        obtain ⟨c', hc', hequals⟩ := List.mem_map.mp hin
        obtain ⟨edge', hedge', hcondition'⟩ := List.mem_filterMap.mp hc'
        obtain ⟨output, hholds, hholds'⟩ := ArtifactCondition.exists_holds
          (hvalid c List.mem_cons_self)
          (hpath c List.mem_cons_self c' (List.mem_cons_of_mem _ hc')) hequals.symm
        have hmem : edge' ∈ route.filter fun edge => edge.matchesOutput output := by
          rw [List.mem_filter]
          exact ⟨hedge', by simpa [EdgeDefinition.matchesOutput, hcondition'] using hholds'⟩
        have hlength := hone output
        rw [List.filter_cons_of_pos (by simp [EdgeDefinition.matchesOutput, hcondition, hholds]),
          List.length_cons] at hlength
        have hpos := List.length_pos_of_mem hmem
        omega

end Route

/-! ## 3. The loop over the edges -/

namespace WorkflowGraph

variable {graph : WorkflowGraph}

/-- The checks of one edge other than the one for duplicates. -/
def EdgePasses (graph : WorkflowGraph) (edge : EdgeDefinition) : Prop :=
  ∃ source target, graph.node edge.source = some source ∧ graph.node edge.target = some target ∧
    ¬(edge.condition.isSome ∧ source.kind ≠ .task) ∧ edge.outcome ∈ allowedOutcomes source.kind

/-- No edge equals an earlier one. -/
def NoDuplicates (edges : List EdgeDefinition) : Prop :=
  edges.Pairwise fun edge edge' => edge'.pyEq edge = false

theorem checkEdges_eq {edges : List EdgeDefinition} (h : ∀ edge ∈ edges, graph.EdgePasses edge)
    (seen : List EdgeDefinition) :
    (graph.checkEdges seen edges = .ok () ∧ NoDuplicates edges ∧
      ∀ edge ∈ edges, seen.any edge.pyEq = false) ∨
    (graph.checkEdges seen edges = .error duplicateEdges ∧
      ¬(NoDuplicates edges ∧ ∀ edge ∈ edges, seen.any edge.pyEq = false)) := by
  induction edges generalizing seen with
  | nil => exact .inl ⟨rfl, .nil, by simp⟩
  | cons edge edges ih =>
    obtain ⟨source, target, hsource, htarget, hcondition, houtcome⟩ := h edge List.mem_cons_self
    rw [checkEdges, hsource, htarget]
    simp only [raiseIf, if_neg hcondition, bind, Except.bind]
    by_cases hseen : seen.any edge.pyEq = true
    · right
      simp only [if_pos hseen]
      refine ⟨rfl, fun hno => ?_⟩
      rw [hno.2 edge List.mem_cons_self] at hseen
      cases hseen
    · simp only [if_neg hseen, if_neg (not_not.mpr houtcome)]
      rw [Bool.not_eq_true] at hseen
      have hsplit : (∀ edge' ∈ edges, (edge :: seen).any edge'.pyEq = false) ↔
          (∀ edge' ∈ edges, edge'.pyEq edge = false) ∧
            ∀ edge' ∈ edges, seen.any edge'.pyEq = false := by
        simp only [List.any_cons, Bool.or_eq_false_iff]
        exact forall₂_and
      have hcons : (NoDuplicates (edge :: edges) ∧
          ∀ edge' ∈ edge :: edges, seen.any edge'.pyEq = false) ↔
          NoDuplicates edges ∧ ∀ edge' ∈ edges, (edge :: seen).any edge'.pyEq = false := by
        rw [hsplit, NoDuplicates, List.pairwise_cons, List.forall_mem_cons]
        constructor
        · rintro ⟨⟨hfirst, hrest⟩, -, hold⟩
          exact ⟨hrest, hfirst, hold⟩
        · rintro ⟨hrest, hfirst, hold⟩
          exact ⟨⟨hfirst, hrest⟩, hseen, hold⟩
      rw [hcons]
      exact ih (fun edge hedge => h edge (List.mem_cons_of_mem _ hedge)) (edge :: seen)

theorem edgePasses_of_checkEdges {edges seen : List EdgeDefinition}
    (h : graph.checkEdges seen edges = .ok ()) : ∀ edge ∈ edges, graph.EdgePasses edge := by
  induction edges generalizing seen with
  | nil => simp
  | cons edge edges ih =>
    rw [checkEdges] at h
    split at h
    · rename_i source target hsource htarget
      simp only [check_bind_eq_ok, raiseIf_eq_ok, not_not] at h
      obtain ⟨hcondition, -, houtcome, hrest⟩ := h
      rw [List.forall_mem_cons]
      exact ⟨⟨source, target, hsource, htarget, hcondition, houtcome⟩, ih hrest⟩
    · cases h

theorem noDuplicates_of_checkEdges {edges : List EdgeDefinition}
    (h : graph.checkEdges [] edges = .ok ()) : NoDuplicates edges := by
  rcases checkEdges_eq (edgePasses_of_checkEdges h) [] with hok | herror
  · exact hok.2.1
  · rw [herror.1] at h
    cases h

/-! ## 4. Graphs with the same nodes and ends -/

theorem reachableFrom_congr {graph' : WorkflowGraph} (hnodes : graph.nodes = graph'.nodes)
    (hadjacency : graph.adjacency = graph'.adjacency) :
    graph.reachableFrom = graph'.reachableFrom := by
  funext start
  simp only [reachableFrom, keys, hnodes, hadjacency]

theorem checkNode_congr {graph' : WorkflowGraph} (hnodes : graph.nodes = graph'.nodes)
    (hentry : graph.entryNode = graph'.entryNode) (hadjacency : graph.adjacency = graph'.adjacency)
    (hincoming : graph.incomingSources = graph'.incomingSources) :
    graph.checkNode = graph'.checkNode := by
  have hnode : graph.node = graph'.node := by
    funext key
    rw [WorkflowGraph.node, hnodes]
    rfl
  have hmapping : graph.checkMapping = graph'.checkMapping := by
    funext node mapping
    unfold checkMapping
    rw [hnode, reachableFrom_congr hnodes hadjacency]
  funext node
  unfold checkNode
  rw [hmapping, hadjacency, hincoming, hentry]

theorem canReach_congr {graph' : WorkflowGraph} (hnodes : graph.nodes = graph'.nodes)
    (hadjacency : graph.adjacency = graph'.adjacency) : graph.canReach = graph'.canReach := by
  funext source target skipInitial
  simp only [canReach, keys, hnodes, hadjacency]

theorem adjacency_eq (source : NodeKey) :
    graph.adjacency source = (((graph.edges.map fun edge => (edge.source, edge.target)).filter
      fun ends => ends.1 = source).map Prod.snd).dedup := by
  simp [adjacency, List.filter_map, Function.comp_def]

theorem incomingSources_eq (target : NodeKey) :
    graph.incomingSources target = ((((graph.edges.map fun edge =>
      (edge.source, edge.target)).filter fun ends => ends.2 = target).map Prod.fst).dedup
        ).insertionSort (· ≤ ·) := by
  simp [incomingSources, List.filter_map, Function.comp_def]

end WorkflowGraph

/-! ## 5. Giving the conditions of a route other values -/

namespace EdgeDefinition.SameButValue

variable {source : NodeKey} {outcome : NodeOutcome} {edge edge' : EdgeDefinition}
  (h : edge.SameButValue source outcome edge')
include h

theorem ends : edge'.source = edge.source ∧ edge'.outcome = edge.outcome ∧
    edge'.target = edge.target := by
  rcases h with rfl | ⟨-, -, c, -, value, rfl⟩ <;> exact ⟨rfl, rfl, rfl⟩

theorem paths : edge'.condition.map ArtifactCondition.path =
    edge.condition.map ArtifactCondition.path := by
  rcases h with rfl | ⟨-, -, c, hc, value, rfl⟩
  · rfl
  · rw [Option.mem_def.mp hc]
    rfl

theorem isSome : edge'.condition.isSome = edge.condition.isSome := by
  rw [← Option.isSome_map, h.paths, Option.isSome_map]

theorem eq_of_off (hoff : ¬(edge.source = source ∧ edge.outcome = outcome)) : edge' = edge := by
  rcases h with heq | ⟨hsource, houtcome, -⟩
  · exact heq
  · exact absurd ⟨hsource, houtcome⟩ hoff

theorem postInit (hpost : ∀ c ∈ edge'.condition, c.postInit = .ok ()) :
    ∀ c ∈ edge.condition, c.postInit = .ok () := by
  rcases h with rfl | ⟨-, -, c, hc, value, rfl⟩
  · exact hpost
  · intro c' hc'
    obtain rfl := Option.mem_unique hc hc'
    exact hpost ⟨c.path, value⟩ rfl

end EdgeDefinition.SameButValue

/-! ## 6. What the constructors answer -/

theorem forAll_cases {α ε : Type} {xs : List α} {check : α → Except ε Unit} {error : ε}
    (h : ∀ x ∈ xs, check x = .ok () ∨ check x = .error error) :
    forAll xs check = .ok () ∨ forAll xs check = .error error := by
  induction xs with
  | nil => exact .inl rfl
  | cons x xs ih =>
    rw [forAll]
    rcases h x List.mem_cons_self with hx | hx
    · rw [hx]
      exact ih fun x hx => h x (List.mem_cons_of_mem _ hx)
    · rw [hx]
      exact .inr rfl

/-- The values that the conditions of a route compare with. -/
def WorkflowGraph.values (graph : WorkflowGraph) (source : NodeKey) (outcome : NodeOutcome) :
    List Scalar :=
  ((graph.routeEdges source outcome).filterMap EdgeDefinition.condition).map
    ArtifactCondition.equals

section Relabelled

variable {d : WorkflowDefinition} {source : NodeKey} {outcome : NodeOutcome}
  {edges : List EdgeDefinition}
  (hsame : List.Forall₂ (EdgeDefinition.SameButValue source outcome) d.edges edges)
  (haccepted : ({ d with edges := edges } : WorkflowDefinition).construct = .ok ())

include hsame in
theorem routeEdges_of_off {source' : NodeKey} {outcome' : NodeOutcome}
    (hoff : ¬(source' = source ∧ outcome' = outcome)) :
    ({ d with edges := edges } : WorkflowDefinition).routeEdges source' outcome' =
      d.routeEdges source' outcome' := by
  show edges.filter _ = d.edges.filter _
  generalize d.edges = listed at hsame
  induction hsame with
  | nil => rfl
  | @cons edge edge' _ _ hedge _ ih =>
    obtain ⟨hsource, houtcome, -⟩ := hedge.ends
    by_cases hroute : edge.source = source' ∧ edge.outcome = outcome'
    · have heq : edge' = edge := by
        apply hedge.eq_of_off
        rw [hroute.1, hroute.2]
        exact hoff
      rw [heq, List.filter_cons_of_pos (by simpa using hroute),
        List.filter_cons_of_pos (by simpa using hroute), ih]
    · rw [List.filter_cons_of_neg (by simpa [hsource, houtcome] using hroute),
        List.filter_cons_of_neg (by simpa using hroute), ih]

include hsame in
theorem forall₂_routeEdges :
    List.Forall₂ (EdgeDefinition.SameButValue source outcome) (d.routeEdges source outcome)
      (({ d with edges := edges } : WorkflowDefinition).routeEdges source outcome) := by
  apply forall₂_filter hsame
  intro edge edge' hedge
  rw [hedge.ends.1, hedge.ends.2.1]

include hsame in
theorem length_defaults_eq :
    ((d.routeEdges source outcome).filter fun edge => edge.condition.isNone).length =
      ((({ d with edges := edges } : WorkflowDefinition).routeEdges source outcome).filter
        fun edge => edge.condition.isNone).length := by
  apply List.Forall₂.length_eq
  apply forall₂_filter (forall₂_routeEdges hsame)
  intro edge edge' hedge
  rw [← Option.not_isSome, ← Option.not_isSome, hedge.isSome]

include hsame in
theorem paths_eq :
    ((d.routeEdges source outcome).filterMap EdgeDefinition.condition).map
        ArtifactCondition.path =
      ((({ d with edges := edges } : WorkflowDefinition).routeEdges source outcome).filterMap
        EdgeDefinition.condition).map ArtifactCondition.path := by
  have hpaths := map_eq_of_forall₂ (forall₂_routeEdges hsame)
    (f := fun edge => edge.condition.map ArtifactCondition.path)
    (g := fun edge => edge.condition.map ArtifactCondition.path)
    fun edge edge' hedge => hedge.paths.symm
  have hfilter := congrArg (List.filterMap id) hpaths
  simpa only [List.filterMap_map, List.map_filterMap, Function.comp_def, id] using hfilter

include hsame haccepted

/-- On the route only the check on the values is left. -/
theorem checkRoute_eq {node : NodeDefinition} (hnode : d.node source = some node)
    (htask : node.kind = .task) :
    d.checkRoute source outcome = raiseIf (¬(d.values source outcome).Nodup) repeatedValues := by
  have hroute := AcceptedDefinition.checkRoute_ok ⟨_, haccepted⟩ source outcome
  have hfork : ¬((d.node source).any fun node => decide (node.kind = .fork)) = true := by
    simp [hnode, htask]
  unfold WorkflowGraph.checkRoute at hroute ⊢
  rw [if_neg hfork]
  rw [if_neg (by exact hfork)] at hroute
  simp only [check_bind_eq_ok, raiseIf_eq_ok] at hroute
  obtain ⟨hdefaults, htargets, hpaths, -⟩ := hroute
  have hlength := (forall₂_routeEdges hsame).length_eq
  have hnil : (d.routeEdges source outcome).filterMap EdgeDefinition.condition = [] ↔
      (({ d with edges := edges } : WorkflowDefinition).routeEdges source outcome).filterMap
        EdgeDefinition.condition = [] := by
    rw [← List.map_eq_nil_iff (f := ArtifactCondition.path), paths_eq hsame, List.map_eq_nil_iff]
  rw [← length_defaults_eq hsame] at hdefaults
  rw [← hnil, ← hlength] at htargets
  rw [← paths_eq hsame] at hpaths
  simp only [raiseIf, if_neg hdefaults, if_neg htargets, if_neg hpaths]
  rfl

/-- All other checks pass, so the loops over the edges and over the routes decide. -/
theorem construct_eq :
    d.construct = (do
      d.checkEdges [] d.edges
      forAll d.edges fun edge => d.checkRoute edge.source edge.outcome) := by
  have hends : (d.edges.map fun edge => (edge.source, edge.target)) =
      edges.map fun edge => (edge.source, edge.target) := by
    apply map_eq_of_forall₂ hsame
    intro edge edge' hedge
    rw [hedge.ends.1, hedge.ends.2.2]
  have hadjacency : d.adjacency = ({ d with edges := edges } : WorkflowDefinition).adjacency := by
    funext key
    rw [WorkflowGraph.adjacency_eq, WorkflowGraph.adjacency_eq, hends]
  have hincoming : d.incomingSources =
      ({ d with edges := edges } : WorkflowDefinition).incomingSources := by
    funext key
    rw [WorkflowGraph.incomingSources_eq, WorkflowGraph.incomingSources_eq, hends]
  have hcheck : d.checkNode = ({ d with edges := edges } : WorkflowDefinition).checkNode :=
    WorkflowGraph.checkNode_congr rfl rfl hadjacency hincoming
  have hreach : d.reachableFrom =
      ({ d with edges := edges } : WorkflowDefinition).reachableFrom :=
    WorkflowGraph.reachableFrom_congr rfl hadjacency
  have hloop : d.canReach = ({ d with edges := edges } : WorkflowDefinition).canReach :=
    WorkflowGraph.canReach_congr rfl hadjacency
  have h := haccepted
  simp only [WorkflowDefinition.construct, WorkflowDefinition.postInit, check_bind_eq_ok] at h
  obtain ⟨hmappings, hnodes, hconditions, hkey, hversion, hunique, hentry, -, -, hchecks,
    hreachable, hloops⟩ := h
  have hconditions' : (forAll d.edges fun edge =>
      forAll edge.condition.toList ArtifactCondition.postInit) = .ok () := by
    simp only [forAll_eq_ok, Option.mem_toList] at hconditions ⊢
    intro edge hedge
    obtain ⟨edge', hedge', hsame'⟩ := exists_of_forall₂ hsame hedge
    exact hsame'.postInit (hconditions edge' hedge')
  unfold WorkflowDefinition.construct WorkflowDefinition.postInit
  rw [hmappings, hnodes, hconditions', hkey, hversion, hcheck, hreach, hloop,
    show raiseIf (¬d.keys.Nodup) _ = .ok () from hunique,
    show raiseIf (d.entryNode ∉ d.keys) _ = .ok () from hentry, hchecks,
    show raiseIf (¬(_ ⊆ d.keys ∧ d.keys ⊆ _)) _ = .ok () from hreachable, hloops]
  cases d.checkEdges [] d.edges with
  | error error => rfl
  | ok =>
    show (forAll d.edges fun edge => d.checkRoute edge.source edge.outcome) >>= _ = _
    cases forAll d.edges fun edge => d.checkRoute edge.source edge.outcome <;> rfl

theorem edgePasses_edges : ∀ edge ∈ d.edges, d.EdgePasses edge := by
  have h := haccepted
  simp only [WorkflowDefinition.construct, WorkflowDefinition.postInit, check_bind_eq_ok] at h
  obtain ⟨-, -, -, -, -, -, -, hedges, -⟩ := h
  intro edge hedge
  obtain ⟨edge', hedge', hsame'⟩ := exists_of_forall₂ hsame hedge
  obtain ⟨node, node', hnode, hnode', hcondition, houtcome⟩ :=
    WorkflowGraph.edgePasses_of_checkEdges hedges edge' hedge'
  rw [hsame'.ends.1] at hnode
  rw [hsame'.ends.2.2] at hnode'
  rw [hsame'.isSome] at hcondition
  rw [hsame'.ends.2.1] at houtcome
  exact ⟨node, node', hnode, hnode', hcondition, houtcome⟩

/-- Duplicates can only be edges of the route. -/
theorem noDuplicates_iff :
    WorkflowGraph.NoDuplicates d.edges ↔
      WorkflowGraph.NoDuplicates (d.routeEdges source outcome) := by
  constructor
  · intro h
    exact h.sublist List.filter_sublist
  · intro h
    have hedges := haccepted
    simp only [WorkflowDefinition.construct, WorkflowDefinition.postInit, check_bind_eq_ok]
      at hedges
    obtain ⟨-, -, -, -, -, -, -, hedges, -⟩ := hedges
    have hoff : d.edges.Pairwise fun edge edge' =>
        ¬((edge.source = source ∧ edge.outcome = outcome) ∧
          edge'.source = source ∧ edge'.outcome = outcome) → edge'.pyEq edge = false := by
      apply pairwise_of_forall₂ hsame (WorkflowGraph.noDuplicates_of_checkEdges hedges)
      intro first second first' second' hfirst hsecond hdistinct hroute
      by_cases hon : first.source = source ∧ first.outcome = outcome
      · have hne : ¬(second.source = source ∧ second.outcome = outcome) :=
          fun hon' => hroute ⟨hon, hon'⟩
        by_contra hequal
        simp only [EdgeDefinition.pyEq, Bool.not_eq_false, Bool.and_eq_true,
          decide_eq_true_eq] at hequal
        exact hne ⟨hequal.1.1.1.trans hon.1, hequal.1.1.2.trans hon.2⟩
      · by_cases hon' : second.source = source ∧ second.outcome = outcome
        · by_contra hequal
          simp only [EdgeDefinition.pyEq, Bool.not_eq_false, Bool.and_eq_true,
            decide_eq_true_eq] at hequal
          exact hon ⟨hequal.1.1.1.symm.trans hon'.1, hequal.1.1.2.symm.trans hon'.2⟩
        · rw [hfirst.eq_of_off hon, hsecond.eq_of_off hon'] at hdistinct
          exact hdistinct
    have hon : d.edges.Pairwise fun edge edge' =>
        (edge.source = source ∧ edge.outcome = outcome) →
          (edge'.source = source ∧ edge'.outcome = outcome) → edge'.pyEq edge = false := by
      simpa [WorkflowGraph.NoDuplicates, WorkflowGraph.routeEdges, List.pairwise_filter] using h
    apply (hon.and hoff).imp
    rintro edge edge' ⟨hon, hoff⟩
    by_cases hboth : (edge.source = source ∧ edge.outcome = outcome) ∧
        edge'.source = source ∧ edge'.outcome = outcome
    · exact hon hboth.1 hboth.2
    · exact hoff hboth

/-- The definition is accepted, or one of the two checks raises. -/
theorem construct_cases {node : NodeDefinition} (hnode : d.node source = some node)
    (htask : node.kind = .task) :
    (d.construct = .ok () ∨ d.Rejected) ∧
      (d.construct = .ok () ↔ WorkflowGraph.NoDuplicates (d.routeEdges source outcome) ∧
        (d.values source outcome).Nodup) := by
  have hcheck := checkRoute_eq hsame haccepted hnode htask
  have hother : ∀ source' outcome', ¬(source' = source ∧ outcome' = outcome) →
      d.checkRoute source' outcome' = .ok () := by
    intro source' outcome' hoff
    have hok := AcceptedDefinition.checkRoute_ok ⟨_, haccepted⟩ source' outcome'
    unfold WorkflowGraph.checkRoute at hok ⊢
    rw [routeEdges_of_off hsame hoff] at hok
    exact hok
  have hroutes : (forAll d.edges fun edge => d.checkRoute edge.source edge.outcome) = .ok () ↔
      (d.values source outcome).Nodup := by
    rw [forAll_eq_ok]
    constructor
    · intro hall
      by_cases hempty : d.routeEdges source outcome = []
      · simp [WorkflowGraph.values, hempty]
      · obtain ⟨edge, hedge⟩ := List.exists_mem_of_ne_nil _ hempty
        obtain ⟨hmem, hsource, houtcome⟩ := WorkflowGraph.mem_routeEdges.mp hedge
        have hedge' := hall edge hmem
        rw [hsource, houtcome, hcheck, raiseIf_eq_ok, not_not] at hedge'
        exact hedge'
    · intro hnodup edge _
      by_cases hon : edge.source = source ∧ edge.outcome = outcome
      · rw [hon.1, hon.2, hcheck, raiseIf_eq_ok, not_not]
        exact hnodup
      · exact hother _ _ hon
  have hcases :
      (forAll d.edges fun edge => d.checkRoute edge.source edge.outcome) = .ok () ∨
        (forAll d.edges fun edge => d.checkRoute edge.source edge.outcome) =
          .error repeatedValues := by
    apply forAll_cases
    intro edge _
    by_cases hon : edge.source = source ∧ edge.outcome = outcome
    · rw [hon.1, hon.2, hcheck, raiseIf]
      split
      · exact .inr rfl
      · exact .inl rfl
    · exact .inl (hother _ _ hon)
  rw [← noDuplicates_iff hsame haccepted, ← hroutes]
  unfold WorkflowDefinition.Rejected
  rw [construct_eq hsame haccepted]
  rcases WorkflowGraph.checkEdges_eq (edgePasses_edges hsame haccepted) [] with
    ⟨hok, hdistinct, -⟩ | ⟨herror, hduplicate⟩
  · rw [hok]
    show (forAll _ _ = _ ∨ forAll _ _ = _ ∨ forAll _ _ = _) ∧ (forAll _ _ = _ ↔ _)
    refine ⟨?_, ?_⟩
    · rcases hcases with hcases | hcases
      · exact .inl hcases
      · exact .inr (.inr hcases)
    · exact (and_iff_right hdistinct).symm
  · rw [herror]
    refine ⟨.inr (.inl rfl), ?_⟩
    constructor
    · intro h
      cases h
    · rintro ⟨hdistinct, -⟩
      exact absurd ⟨hdistinct, by simp⟩ hduplicate

end Relabelled

/-! ## 7. The two checks and the ambiguous routes -/

theorem pairwise_of_length_le_one {α : Type} {R : α → α → Prop} {xs : List α}
    (h : xs.length ≤ 1) : xs.Pairwise R := by
  match xs, h with
  | [], _ => exact .nil
  | [x], _ => exact List.pairwise_singleton R x

theorem pyEq_comm (a b : Scalar) : a.pyEq b = b.pyEq a := by
  unfold Scalar.pyEq
  cases a.numeric <;> cases b.numeric <;> simp [eq_comm]

/-- Among distinct values the duplicate check only finds values that are confused. -/
theorem noDuplicates_iff_not_confused {route : List EdgeDefinition} {source : NodeKey}
    {outcome : NodeOutcome}
    (hroute : ∀ edge ∈ route, edge.source = source ∧ edge.outcome = outcome)
    (hdefault : (route.filter fun edge => edge.condition.isNone).length ≤ 1)
    (hpath : ∀ c ∈ route.filterMap EdgeDefinition.condition,
      ∀ c' ∈ route.filterMap EdgeDefinition.condition, c.path = c'.path)
    (hvalues : ((route.filterMap EdgeDefinition.condition).map ArtifactCondition.equals).Nodup) :
    WorkflowGraph.NoDuplicates route ↔ route.Pairwise fun edge edge' => ¬edge.Confused edge' := by
  have hdistinct : route.Pairwise fun edge edge' => ∀ c, edge.condition = some c →
      ∀ c', edge'.condition = some c' → c.equals ≠ c'.equals := by
    rw [List.Nodup, List.pairwise_map, List.pairwise_filterMap] at hvalues
    exact hvalues
  have hsingle : route.Pairwise fun edge edge' =>
      edge.condition = none → edge'.condition = none → False := by
    have h : (route.filter fun edge => edge.condition.isNone).Pairwise fun _ _ => False :=
      pairwise_of_length_le_one hdefault
    simpa [List.pairwise_filter] using h
  constructor
  · intro h
    refine h.imp_of_mem ?_
    rintro edge edge' hedge hedge' hequal ⟨htarget, c, hc, c', hc', -, hconfused⟩
    rw [Option.mem_def] at hc hc'
    have hsource := (hroute edge hedge).1.trans (hroute edge' hedge').1.symm
    have houtcome := (hroute edge hedge).2.trans (hroute edge' hedge').2.symm
    have hpaths := hpath c (mem_conditions hedge hc) c' (mem_conditions hedge' hc')
    rw [pyEq_comm] at hconfused
    simp [EdgeDefinition.pyEq, ArtifactCondition.pyEq, hsource, houtcome, htarget, hc, hc', hpaths,
      hconfused] at hequal
  · intro h
    apply ((h.and hdistinct).and hsingle).imp
    rintro edge edge' ⟨⟨hconfused, hdistinct⟩, hsingle⟩
    by_contra hequal
    simp only [EdgeDefinition.pyEq, Bool.not_eq_false, Bool.and_eq_true, decide_eq_true_eq]
      at hequal
    obtain ⟨⟨-, htarget⟩, hcondition⟩ := hequal
    split at hcondition
    · rename_i hnone' hnone
      exact hsingle hnone hnone'
    · rename_i c' c hc' hc
      simp only [ArtifactCondition.pyEq, Bool.and_eq_true] at hcondition
      exact hconfused ⟨htarget.symm, c, hc, c', hc', hdistinct c hc c' hc',
        by rw [pyEq_comm]; exact hcondition.2⟩
    · cases hcondition

/-- The duplicate-edge and distinct-value checks reject exactly the ambiguous routes, but for routes
whose edges to one target compare with values that only `==` identifies. -/
theorem route_rejection (d : WorkflowDefinition) (source : NodeKey) (node : NodeDefinition)
    (outcome : NodeOutcome) (hnode : d.node source = some node) (htask : node.kind = .task)
    (hvalid : d.OtherwiseValid source outcome) :
    (d.construct = .ok () ∨ d.Rejected) ∧
      ((d.Rejected ↔ Ambiguous (d.routeEdges source outcome)) ↔
        Ambiguous (d.routeEdges source outcome) ∨
          (d.routeEdges source outcome).Pairwise fun edge edge' => ¬edge.Confused edge') := by
  obtain ⟨edges, hsame, haccepted⟩ := hvalid
  obtain ⟨hcases, hok⟩ := construct_cases hsame haccepted hnode htask
  refine ⟨hcases, ?_⟩
  have hrejected : d.Rejected ↔ ¬(d.construct = .ok ()) := by
    constructor
    · rintro (h | h) <;> rw [h] <;> intro h' <;> cases h'
    · exact hcases.resolve_left
  have hchecked := AcceptedDefinition.routeChecked ⟨_, haccepted⟩ hnode (by simp [htask]) outcome
  have hdefault : ((d.routeEdges source outcome).filter fun edge =>
      edge.condition.isNone).length ≤ 1 := by
    rw [length_defaults_eq hsame]
    exact hchecked.one_default
  have hpath : ∀ c ∈ (d.routeEdges source outcome).filterMap EdgeDefinition.condition,
      ∀ c' ∈ (d.routeEdges source outcome).filterMap EdgeDefinition.condition,
        c.path = c'.path := by
    have hone : ∀ p ∈ ((d.routeEdges source outcome).filterMap EdgeDefinition.condition).map
        ArtifactCondition.path, ∀ p' ∈ ((d.routeEdges source outcome).filterMap
          EdgeDefinition.condition).map ArtifactCondition.path, p = p' := by
      rw [paths_eq hsame]
      simpa only [List.forall_mem_map] using hchecked.same_path
    simpa only [List.forall_mem_map] using hone
  have hpost : ∀ c ∈ (d.routeEdges source outcome).filterMap EdgeDefinition.condition,
      c.postInit = .ok () := by
    have h := haccepted
    simp only [WorkflowDefinition.construct, check_bind_eq_ok, forAll_eq_ok,
      Option.mem_toList] at h
    intro c hc
    obtain ⟨edge, hedge, hcondition⟩ := List.mem_filterMap.mp hc
    obtain ⟨edge', hedge', hsame'⟩ :=
      exists_of_forall₂ hsame (WorkflowGraph.mem_routeEdges.mp hedge).1
    exact hsame'.postInit (h.2.2.1 edge' hedge') c hcondition
  have hambiguous : Ambiguous (d.routeEdges source outcome) ↔ ¬(d.values source outcome).Nodup :=
    ambiguous_iff hpost hpath
  have hroute : ∀ edge ∈ d.routeEdges source outcome,
      edge.source = source ∧ edge.outcome = outcome :=
    fun edge hedge => (WorkflowGraph.mem_routeEdges.mp hedge).2
  rw [hrejected, hok, hambiguous]
  by_cases hnodup : (d.values source outcome).Nodup
  · have hconfused := noDuplicates_iff_not_confused hroute hdefault hpath hnodup
    rw [hconfused]
    tauto
  · tauto

/-- Conditions on `True` and on `1` that lead to one target: no artifact satisfies both, yet the
definition is rejected as one with a duplicate edge. -/
theorem confused_values_rejected :
    ¬∀ (d : WorkflowDefinition) (source : NodeKey) (node : NodeDefinition) (outcome : NodeOutcome),
      d.node source = some node → node.kind = .task → d.OtherwiseValid source outcome →
        (d.Rejected ↔ Ambiguous (d.routeEdges source outcome)) := by
  intro hclaim
  have hvalid : (verdictRoute "accept" (.bool true) (.int 1)).OtherwiseValid "review" .success :=
    ⟨(verdictRoute "accept" (.bool true) (.int 2)).edges,
      .cons (.inl rfl) (.cons (.inr ⟨rfl, rfl, _, rfl, .int 2, rfl⟩) (.cons (.inl rfl) .nil)),
      by decide +kernel⟩
  have hrejected : (verdictRoute "accept" (.bool true) (.int 1)).Rejected :=
    .inl (by decide +kernel)
  obtain ⟨output, htwo⟩ := (hclaim _ _ _ _ rfl rfl hvalid).mp hrejected
  have hone : (((verdictRoute "accept" (.bool true) (.int 1)).routeEdges "review" .success).filter
      fun edge => edge.matchesOutput output).length ≤ 1 :=
    WorkflowGraph.length_matches_le_one (by decide +kernel) (by decide +kernel)
  omega

/-- To different targets the same two conditions are accepted. -/
theorem route_rejection_verdictRoute :
    (verdictRoute "rework" (.bool true) (.int 1)).Rejected ↔
      Ambiguous ((verdictRoute "rework" (.bool true) (.int 1)).routeEdges "review" .success) := by
  have hvalid : (verdictRoute "rework" (.bool true) (.int 1)).OtherwiseValid "review" .success :=
    ⟨(verdictRoute "rework" (.bool true) (.int 1)).edges,
      .cons (.inl rfl) (.cons (.inl rfl) (.cons (.inl rfl) .nil)), by decide +kernel⟩
  apply (route_rejection _ _ _ .success rfl rfl hvalid).2.mpr
  right
  decide +kernel

end JbOrchestrator.Workflows
