import JbOrchestrator.Lib.Rfc6901
import JbOrchestrator.Workflows.Routing

/-!
# Conditions — conditional routes

`jsonPointer` evaluates every accepted path as RFC 6901 does, and the route checks leave no artifact
that satisfies two conditions of one route.  So the order of the edges does not matter, and the
default edge is taken exactly when no condition holds.
-/

open Lib

namespace JbOrchestrator.Workflows

/-! ## 1. The path of a condition -/

/-- A text whose escapes are valid is a reference token and the tokens behind it. -/
theorem exists_keys_of_escapesValid (cs : List Char) (h : escapesValid cs = true) :
    ∃ key keys, cs = Rfc6901.escape key ++ Rfc6901.text keys := by
  induction cs using escapesValid.induct with
  | case1 => exact ⟨[], [], rfl⟩
  | case2 rest ih =>
    obtain ⟨key, keys, rfl⟩ := ih h
    exact ⟨'~' :: key, keys, rfl⟩
  | case3 rest ih =>
    obtain ⟨key, keys, rfl⟩ := ih h
    exact ⟨'/' :: key, keys, rfl⟩
  | case4 cs hzero hone =>
    rw [escapesValid] at h
    · cases h
    · exact hzero
    · exact hone
  | case5 c cs htilde ih =>
    have hrest : escapesValid cs = true := by
      rwa [escapesValid] at h
      exact htilde
    obtain ⟨key, keys, rfl⟩ := ih hrest
    by_cases hslash : c = '/'
    · exact ⟨[], key :: keys, by rw [hslash]; rfl⟩
    · have hc : Rfc6901.escapeChar c = [c] := by
        simp [Rfc6901.escapeChar, hslash, show c ≠ '~' from htilde]
      exact ⟨c :: key, keys, by simp [hc]⟩

/-- An accepted path is the text of a pointer other than the empty one. -/
theorem ArtifactCondition.exists_keys {condition : ArtifactCondition}
    (h : condition.postInit = .ok ()) :
    ∃ key keys, condition.path.toList = Rfc6901.text (key :: keys) := by
  simp only [ArtifactCondition.postInit, raiseIf_eq_ok, not_or] at h
  obtain ⟨hne, -, hpattern⟩ := h
  rw [Bool.not_eq_false, matchesJsonPointer] at hpattern
  split at hpattern
  · rename_i hnil
    exact absurd (String.toList_eq_nil_iff.mp hnil) hne
  · rename_i c cs htext
    simp only [Bool.and_eq_true, decide_eq_true_eq] at hpattern
    obtain ⟨rfl, hescapes⟩ := hpattern
    obtain ⟨key, keys, rfl⟩ := exists_keys_of_escapesValid cs hescapes
    exact ⟨key, keys, htext⟩

/-! ## 2. The value a path leads to -/

/-- One token leads to a child exactly when the RFC has a step of that key. -/
theorem descend_refers {key : List Char} {keys : List (List Char)} {document value : Json} :
    Rfc6901.Refers (key :: keys) document value ↔
      ∃ child, descend document key = some child ∧ Rfc6901.Refers keys child value := by
  constructor
  · intro h
    cases h with
    | member hkey hrest => exact ⟨_, hkey, hrest⟩
    | @element n _ items child _ hindex hrest =>
      refine ⟨child, ?_, hrest⟩
      rw [descend, if_pos]
      · rw [Rfc6901.digitsToNat_toDigits]
        exact hindex
      · rw [Rfc6901.arrayIndex_iff, Rfc6901.digitsToNat_toDigits]
  · rintro ⟨child, hchild, hrest⟩
    cases document with
    | scalar value => cases hchild
    | dict entries => exact .member hchild hrest
    | list items =>
      rw [descend] at hchild
      split at hchild
      · rename_i hindex
        rw [(Rfc6901.arrayIndex_iff key).mp hindex]
        exact .element hchild hrest
      · cases hchild

/-- Walking along the unescaped tokens. -/
def walk (document : Json) (keys : List (List Char)) : Option Json :=
  keys.foldl (fun value key => value.bind fun v => descend v key) (some document)

theorem foldl_descend_none (keys : List (List Char)) :
    keys.foldl (fun value key => value.bind fun v => descend v key) none = none := by
  induction keys with
  | nil => rfl
  | cons key keys ih => exact ih

theorem walk_cons (document : Json) (key : List Char) (keys : List (List Char)) :
    walk document (key :: keys) = (descend document key).bind fun child => walk child keys := by
  show keys.foldl _ (descend document key) = _
  cases descend document key with
  | none => exact foldl_descend_none keys
  | some child => rfl

theorem walk_eq_some_iff (keys : List (List Char)) (document value : Json) :
    walk document keys = some value ↔ Rfc6901.Refers keys document value := by
  induction keys generalizing document with
  | nil =>
    constructor
    · intro h
      obtain rfl := Option.some_injective _ h
      exact .whole document
    · intro h
      cases h
      rfl
  | cons key keys ih =>
    rw [walk_cons, descend_refers, Option.bind_eq_some_iff]
    simp only [ih]

/-- Splitting and unescaping a path gives its keys back. -/
theorem jsonPointer_eq_walk {pointer : String} {keys : List (List Char)}
    (h : pointer.toList = Rfc6901.text keys) (document : Json) :
    jsonPointer document pointer = walk document keys := by
  rw [jsonPointer, h, Rfc6901.splitOn_text, List.foldl_map]
  simp only [unescape, Rfc6901.replace_escape, walk]

theorem jsonPointer_eq_some_iff {pointer : String} {keys : List (List Char)}
    (h : pointer.toList = Rfc6901.text keys) (document value : Json) :
    jsonPointer document pointer = some value ↔ Rfc6901.Refers keys document value := by
  rw [jsonPointer_eq_walk h, walk_eq_some_iff]

theorem is_iff {value : Json} {expected : Scalar} :
    value.is expected = true ↔ value = .scalar expected := by
  cases value <;> simp [Json.is]

theorem ArtifactCondition.holds_iff {condition : ArtifactCondition} {output : Option JsonObject} :
    condition.holds output = true ↔
      jsonPointer (.dict (output.getD [])) condition.path = some (.scalar condition.equals) := by
  simp [ArtifactCondition.holds, Option.any_eq_true_iff_get, is_iff, Option.eq_some_iff_get_eq]

/-- Conditions on one path that hold of one artifact compare with one value. -/
theorem ArtifactCondition.equals_of_holds {c c' : ArtifactCondition} {output : Option JsonObject}
    (hpath : c.path = c'.path) (h : c.holds output = true) (h' : c'.holds output = true) :
    c.equals = c'.equals := by
  rw [holds_iff] at h h'
  rw [hpath, h'] at h
  simpa using h.symm

/-! ## 3. The edge a route takes -/

/-- The edge has a condition and the artifact satisfies it. -/
def EdgeDefinition.matchesOutput (edge : EdgeDefinition) (output : Option JsonObject) : Bool :=
  edge.condition.any fun condition => condition.holds output

/-- The edges whose targets `_select_targets` answers, branch by branch. -/
def selectEdges (edges : List EdgeDefinition) (output : Option JsonObject) : List EdgeDefinition :=
  if (edges.filter fun edge => edge.condition.isSome) = [] then edges
  else
    match edges.find? fun edge => edge.matchesOutput output with
    | some edge => [edge]
    | none => (edges.find? fun edge => edge.condition.isNone).toList

theorem find?_conditional (edges : List EdgeDefinition) (output : Option JsonObject) :
    (edges.filter fun edge => edge.condition.isSome).find?
        (fun edge => edge.condition.any fun condition => condition.holds output) =
      edges.find? fun edge => edge.matchesOutput output := by
  rw [List.find?_filter]
  apply congrArg fun p => edges.find? p
  funext edge
  cases hcondition : edge.condition <;> simp [EdgeDefinition.matchesOutput, hcondition]

theorem selectTargets_eq_map {edges : List EdgeDefinition} (output : Option JsonObject)
    (h : (edges.filter fun edge => edge.condition.isNone).length ≤ 1) :
    selectTargets edges output = (selectEdges edges output).map EdgeDefinition.target := by
  simp only [selectTargets, selectEdges]
  split
  · rename_i hnone
    have hall : edges.filter (fun edge => edge.condition.isNone) = edges := by
      rw [List.filter_eq_self]
      intro edge hedge
      simpa using List.filter_eq_nil_iff.mp hnone edge hedge
    rw [hall] at h
    match edges, h with
    | [], _ => rfl
    | [edge], _ => rfl
  · rw [find?_conditional]
    cases edges.find? fun edge => edge.matchesOutput output with
    | some edge => rfl
    | none => cases edges.find? fun edge => edge.condition.isNone <;> rfl

theorem eq_of_perm_of_length_le_one {α : Type} {xs ys : List α} (hperm : xs.Perm ys)
    (h : xs.length ≤ 1) : xs = ys := by
  match xs, h with
  | [], _ => exact (List.nil_perm.mp hperm).symm
  | [x], _ => exact List.singleton_perm.mp hperm

/-- When at most one element satisfies the test, the order of the list does not matter. -/
theorem find?_perm {α : Type} {p : α → Bool} {xs ys : List α} (hperm : xs.Perm ys)
    (h : (xs.filter p).length ≤ 1) : xs.find? p = ys.find? p := by
  rw [← List.head?_filter, ← List.head?_filter, eq_of_perm_of_length_le_one (hperm.filter p) h]

theorem find?_eq_some_of_unique {α : Type} {p : α → Bool} {xs : List α}
    (h : (xs.filter p).length ≤ 1) {x : α} (hx : x ∈ xs) (hp : p x = true) :
    xs.find? p = some x := by
  have hmem : x ∈ xs.filter p := List.mem_filter.mpr ⟨hx, hp⟩
  rw [← List.head?_filter]
  generalize xs.filter p = zs at h hmem ⊢
  match zs, h with
  | [], _ => cases hmem
  | [z], _ =>
    rw [List.mem_singleton.mp hmem]
    rfl

/-- With one default edge and one match at most, the route takes the same edge in any order. -/
theorem selectEdges_perm {edges edges' : List EdgeDefinition} {output : Option JsonObject}
    (hperm : edges.Perm edges')
    (hdefault : (edges.filter fun edge => edge.condition.isNone).length ≤ 1)
    (hmatch : (edges.filter fun edge => edge.matchesOutput output).length ≤ 1) :
    selectEdges edges output = selectEdges edges' output := by
  unfold selectEdges
  rw [find?_perm hperm hdefault, find?_perm hperm hmatch]
  by_cases hnone : (edges.filter fun edge => edge.condition.isSome) = []
  · have hnone' : (edges'.filter fun edge => edge.condition.isSome) = [] := by
      have hfilter := hperm.filter fun edge => edge.condition.isSome
      rw [hnone] at hfilter
      exact (List.nil_perm.mp hfilter)
    rw [if_pos hnone, if_pos hnone']
    have hall : edges.filter (fun edge => edge.condition.isNone) = edges := by
      rw [List.filter_eq_self]
      intro edge hedge
      simpa using List.filter_eq_nil_iff.mp hnone edge hedge
    rw [hall] at hdefault
    exact eq_of_perm_of_length_le_one hperm hdefault
  · have hsome : ¬(edges'.filter fun edge => edge.condition.isSome) = [] := by
      intro hnil
      have hfilter := hperm.filter fun edge => edge.condition.isSome
      rw [hnil] at hfilter
      exact hnone (List.perm_nil.mp hfilter)
    rw [if_neg hnone, if_neg hsome]

/-- The default edge is taken exactly when no condition of the route holds. -/
theorem default_mem_selectEdges_iff {edges : List EdgeDefinition} {output : Option JsonObject}
    (hdefault : (edges.filter fun edge => edge.condition.isNone).length ≤ 1)
    {default : EdgeDefinition} (hmem : default ∈ edges) (hnone : default.condition = none) :
    default ∈ selectEdges edges output ↔ ∀ edge ∈ edges, edge.matchesOutput output = false := by
  have hfind : edges.find? (fun edge => edge.condition.isNone) = some default :=
    find?_eq_some_of_unique hdefault hmem (by simp [hnone])
  unfold selectEdges
  split
  · rename_i hall
    have hconditions : ∀ edge ∈ edges, edge.condition = none := by
      intro edge hedge
      simpa using List.filter_eq_nil_iff.mp hall edge hedge
    constructor
    · intro _ edge hedge
      simp [EdgeDefinition.matchesOutput, hconditions edge hedge]
    · intro _
      exact hmem
  · split
    · rename_i edge hmatch
      have hholds := List.find?_some hmatch
      constructor
      · intro hin
        obtain rfl := List.mem_singleton.mp hin
        simp [EdgeDefinition.matchesOutput, hnone] at hholds
      · intro hall
        rw [hall edge (List.mem_of_find?_eq_some hmatch)] at hholds
        cases hholds
    · rename_i hmatch
      rw [hfind]
      constructor
      · intro _ edge hedge
        simpa using List.find?_eq_none.mp hmatch edge hedge
      · intro _
        exact List.mem_singleton.mpr rfl

/-! ## 4. What the route checks rule out -/

namespace WorkflowGraph

variable {graph : WorkflowGraph}

/-- What `checkRoute` leaves of a route that does not start at a fork. -/
structure RouteChecked (graph : WorkflowGraph) (source : NodeKey) (outcome : NodeOutcome) :
    Prop where
  one_default :
    ((graph.routeEdges source outcome).filter fun edge => edge.condition.isNone).length ≤ 1
  same_path : ∀ c ∈ (graph.routeEdges source outcome).filterMap EdgeDefinition.condition,
    ∀ c' ∈ (graph.routeEdges source outcome).filterMap EdgeDefinition.condition, c.path = c'.path
  distinct_values : (((graph.routeEdges source outcome).filterMap EdgeDefinition.condition).map
    ArtifactCondition.equals).Nodup

theorem eq_of_length_dedup_le_one {α : Type} [DecidableEq α] {xs : List α}
    (h : xs.dedup.length ≤ 1) {x y : α} (hx : x ∈ xs) (hy : y ∈ xs) : x = y := by
  rw [← List.mem_dedup] at hx hy
  match hd : xs.dedup, h with
  | [], _ =>
    rw [hd] at hx
    cases hx
  | [z], _ =>
    rw [hd] at hx hy
    rw [List.mem_singleton.mp hx, List.mem_singleton.mp hy]

theorem routeChecked_of_checkRoute {source : NodeKey} {outcome : NodeOutcome}
    {node : NodeDefinition} (hnode : graph.node source = some node) (hkind : node.kind ≠ .fork)
    (h : graph.checkRoute source outcome = .ok ()) : graph.RouteChecked source outcome := by
  unfold checkRoute at h
  rw [if_neg (by simp [hnode, hkind])] at h
  simp only [check_bind_eq_ok, raiseIf_eq_ok, not_lt, not_not] at h
  obtain ⟨hdefault, -, hpaths, hvalues⟩ := h
  refine ⟨hdefault, ?_, hvalues⟩
  intro c hc c' hc'
  exact eq_of_length_dedup_le_one hpaths (List.mem_map_of_mem hc) (List.mem_map_of_mem hc')

theorem checkRoute_of_nil {source : NodeKey} {outcome : NodeOutcome}
    (h : graph.routeEdges source outcome = []) : graph.checkRoute source outcome = .ok () := by
  unfold checkRoute
  rw [h]
  split <;> rfl

/-- Of conditions on one path with distinct values, an artifact satisfies one at most. -/
theorem length_matches_le_one {edges : List EdgeDefinition} {output : Option JsonObject}
    (hpath : ∀ c ∈ edges.filterMap EdgeDefinition.condition,
      ∀ c' ∈ edges.filterMap EdgeDefinition.condition, c.path = c'.path)
    (hvalues : ((edges.filterMap EdgeDefinition.condition).map ArtifactCondition.equals).Nodup) :
    (edges.filter fun edge => edge.matchesOutput output).length ≤ 1 := by
  induction edges with
  | nil => simp
  | cons edge edges ih =>
    cases hcondition : edge.condition with
    | none =>
      rw [List.filterMap_cons_none hcondition] at hpath hvalues
      rw [List.filter_cons_of_neg (by simp [EdgeDefinition.matchesOutput, hcondition])]
      exact ih hpath hvalues
    | some c =>
      rw [List.filterMap_cons_some hcondition] at hpath hvalues
      rw [List.map_cons, List.nodup_cons] at hvalues
      have hrest := ih (fun c hc c' hc' => hpath c (List.mem_cons_of_mem _ hc) c'
        (List.mem_cons_of_mem _ hc')) hvalues.2
      by_cases hholds : c.holds output = true
      · have hnone : edges.filter (fun edge => edge.matchesOutput output) = [] := by
          rw [List.filter_eq_nil_iff]
          intro other hother hmatch
          obtain ⟨c', hc', hholds'⟩ : ∃ c', other.condition = some c' ∧
              c'.holds output = true := by
            simpa [EdgeDefinition.matchesOutput, Option.any_eq_true] using hmatch
          have hmem : c' ∈ edges.filterMap EdgeDefinition.condition :=
            List.mem_filterMap.mpr ⟨other, hother, hc'⟩
          have hequals := ArtifactCondition.equals_of_holds
            (hpath c List.mem_cons_self c' (List.mem_cons_of_mem _ hmem)) hholds hholds'
          exact hvalues.1 (hequals ▸ List.mem_map_of_mem hmem)
        rw [List.filter_cons_of_pos (by simp [EdgeDefinition.matchesOutput, hcondition, hholds]),
          hnone]
        simp
      · rw [List.filter_cons_of_neg (by simp [EdgeDefinition.matchesOutput, hcondition, hholds])]
        exact hrest

end WorkflowGraph

/-- Every route of an accepted definition passed, also the routes without edges. -/
theorem AcceptedDefinition.checkRoute_ok (d : AcceptedDefinition) (source : NodeKey)
    (outcome : NodeOutcome) : d.graph.checkRoute source outcome = .ok () := by
  have h := d.accepted
  simp only [WorkflowDefinition.construct, WorkflowDefinition.postInit, check_bind_eq_ok,
    forAll_eq_ok] at h
  obtain ⟨-, -, -, -, -, -, -, -, hroutes, -⟩ := h
  by_cases hempty : d.graph.routeEdges source outcome = []
  · exact WorkflowGraph.checkRoute_of_nil hempty
  · obtain ⟨edge, hedge⟩ := List.exists_mem_of_ne_nil _ hempty
    obtain ⟨hmem, hsource, houtcome⟩ := WorkflowGraph.mem_routeEdges.mp hedge
    rw [← hsource, ← houtcome]
    exact hroutes edge hmem

theorem AcceptedDefinition.routeChecked (d : AcceptedDefinition) {source : NodeKey}
    {node : NodeDefinition} (hnode : d.graph.node source = some node) (hkind : node.kind ≠ .fork)
    (outcome : NodeOutcome) : d.graph.RouteChecked source outcome :=
  WorkflowGraph.routeChecked_of_checkRoute hnode hkind (d.checkRoute_ok source outcome)

/-- Conditional routing is unambiguous and its paths are evaluated as RFC 6901 says. -/
theorem AcceptedDefinition.conditional_routing (d : AcceptedDefinition) :
    (∀ key node, d.graph.node key = some node → node.kind = .task →
      ∀ (outcome : NodeOutcome) (output : Option JsonObject),
        ((d.graph.routeEdges key outcome).filter fun edge =>
          edge.matchesOutput output).length ≤ 1 ∧
        (∀ edges, d.graph.edges.Perm edges →
          selectTargets (({ d.graph with edges := edges } : WorkflowGraph).routeEdges key outcome)
              output =
            selectTargets (d.graph.routeEdges key outcome) output) ∧
        selectTargets (d.graph.routeEdges key outcome) output =
          (selectEdges (d.graph.routeEdges key outcome) output).map EdgeDefinition.target ∧
        ∀ default ∈ d.graph.routeEdges key outcome, default.condition = none →
          (default ∈ selectEdges (d.graph.routeEdges key outcome) output ↔
            ∀ edge ∈ d.graph.routeEdges key outcome, edge.matchesOutput output = false)) ∧
    ∀ condition : ArtifactCondition, condition.postInit = .ok () →
      ∃ keys, (∀ keys', Rfc6901.text keys' = condition.path.toList ↔ keys' = keys) ∧
        ∀ document value, jsonPointer document condition.path = some value ↔
          Rfc6901.Refers keys document value := by
  constructor
  · intro key node hnode hkind outcome output
    have hroute := d.routeChecked hnode (by simp [hkind]) outcome
    have hmatch : ((d.graph.routeEdges key outcome).filter fun edge =>
        edge.matchesOutput output).length ≤ 1 :=
      WorkflowGraph.length_matches_le_one hroute.same_path hroute.distinct_values
    refine ⟨hmatch, ?_, selectTargets_eq_map output hroute.one_default, ?_⟩
    · intro edges hperm
      have hperm' : (d.graph.routeEdges key outcome).Perm
          (({ d.graph with edges := edges } : WorkflowGraph).routeEdges key outcome) :=
        hperm.filter _
      have hdefault' : ((({ d.graph with edges := edges } : WorkflowGraph).routeEdges key outcome
          ).filter fun edge => edge.condition.isNone).length ≤ 1 := by
        rw [← (hperm'.filter _).length_eq]
        exact hroute.one_default
      rw [selectTargets_eq_map output hroute.one_default, selectTargets_eq_map output hdefault',
        selectEdges_perm hperm' hroute.one_default hmatch]
    · intro default hmem hnone
      exact default_mem_selectEdges_iff hroute.one_default hmem hnone
  · intro condition hcondition
    obtain ⟨key, keys, htext⟩ := condition.exists_keys hcondition
    refine ⟨key :: keys, ?_, ?_⟩
    · intro keys'
      rw [htext]
      exact Rfc6901.text_injective.eq_iff
    · exact jsonPointer_eq_some_iff htext

/-- A review whose artifact names a verdict: two conditions and a default. -/
def verdictRoute (target : NodeKey) (value value' : Scalar) : WorkflowDefinition where
  key := "verdict-route"
  version := 1
  entryNode := "review"
  nodes := [
    { key := "review", kind := .task },
    { key := "accept", kind := .terminal, terminalStatus := some .succeeded },
    { key := "rework", kind := .terminal, terminalStatus := some .failed }]
  edges := [
    ⟨"review", .success, "accept", some ⟨"/verdict", value⟩⟩,
    ⟨"review", .success, target, some ⟨"/verdict", value'⟩⟩,
    ⟨"review", .success, "rework", none⟩]

def acceptedVerdictRoute : AcceptedDefinition :=
  ⟨verdictRoute "rework" (.bool true) (.int 1), by decide +kernel⟩

/-- An artifact without a verdict takes the default edge. -/
theorem conditional_routing_verdictRoute :
    (⟨"review", .success, "rework", none⟩ : EdgeDefinition) ∈
        selectEdges (acceptedVerdictRoute.graph.routeEdges "review" .success) (some []) ∧
      ∃ keys, (∀ keys', Rfc6901.text keys' = "/verdict".toList ↔ keys' = keys) ∧
        ∀ document value, jsonPointer document "/verdict" = some value ↔
          Rfc6901.Refers keys document value := by
  constructor
  · exact ((acceptedVerdictRoute.conditional_routing.1 "review" _ rfl rfl .success
      (some [])).2.2.2 _ (by decide +kernel) rfl).mpr (by decide +kernel)
  · exact acceptedVerdictRoute.conditional_routing.2 ⟨"/verdict", .null⟩ (by decide +kernel)

end JbOrchestrator.Workflows
