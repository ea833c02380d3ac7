import JbOrchestrator.Serialization.Stored

/-!
# Refinement — the tables stand for the aggregates in memory

At every moment of a run the tables are the rows of the aggregates that the same requests leave in
memory, and every answer is the same.
-/

open Lib

namespace JbOrchestrator.Serialization

open Workflows Json

/-! ## 1. Aggregates that can be stored -/

/-- The floats of an output are written exactly. -/
def OutputReadable (style : JsonText.Style) (output : Option JsonObject) : Prop :=
  style.Readable (JsonText.scalars (outputJson output))

theorem outputReadable_none (style : JsonText.Style) : OutputReadable style none := by
  intro value hvalue
  simp [outputJson, orNone, JsonText.scalars] at hvalue

/-- What every aggregate keeps that was added and saved. -/
structure Aggregate.Good (style : JsonText.Style) (aggregate : Aggregate) : Prop where
  valid : aggregate.snapshot.Valid
  readable : style.Readable (JsonText.scalars (.dict (snapshotToDict aggregate.snapshot)))
  snapshot : aggregate.execution.snapshot = aggregate.snapshot.snapshot
  owned : ∀ p ∈ aggregate.execution.nodes.entries,
    p.2.nodeKey = p.1 ∧ p.2.workflowExecutionId = aggregate.execution.id
  outputs : ∀ p ∈ aggregate.execution.nodes.entries, OutputReadable style p.2.output

variable {conv : Conversions} {style : JsonText.Style}

theorem nodeFromRecord_nodeRecord {node : NodeExecution} (h : OutputReadable style node.output) :
    nodeFromRecord style (nodeRecord style node) = .ok node := by
  have houtput : outputFromColumn style (JsonText.dumps style (outputJson node.output)) =
      .ok node.output := by
    unfold outputFromColumn
    rw [JsonText.loads_dumps h]
    cases node.output <;> rfl
  unfold nodeFromRecord
  show outputFromColumn style (JsonText.dumps style (outputJson node.output)) >>= _ = _
  rw [houtput]
  rfl

/-! ## 2. Loading -/

/-- Among lists that are told apart by their owners, the items of one owner are its list. -/
theorem filter_flatMap_owner {α β γ : Type} [DecidableEq γ] (key : α → γ) {xs : List α}
    {items : α → List β} {owner : β → γ} (hnodup : (xs.map key).Nodup)
    (howner : ∀ x ∈ xs, ∀ y ∈ items x, owner y = key x) {a : α} (ha : a ∈ xs) :
    ((xs.flatMap items).filter fun y => owner y = key a) = items a := by
  induction xs with
  | nil => cases ha
  | cons x xs ih =>
    rw [List.map_cons, List.nodup_cons] at hnodup
    rw [List.forall_mem_cons] at howner
    rw [List.flatMap_cons, List.filter_append]
    rcases List.mem_cons.mp ha with rfl | ha
    · have hhead : ((items a).filter fun y => owner y = key a) = items a := by
        rw [List.filter_eq_self]
        intro y hy
        exact decide_eq_true (howner.1 y hy)
      have htail : ((xs.flatMap items).filter fun y => owner y = key a) = [] := by
        rw [List.filter_eq_nil_iff]
        intro y hy howned
        obtain ⟨x, hx, hy⟩ := List.mem_flatMap.mp hy
        apply hnodup.1
        rw [← of_decide_eq_true howned, howner.2 x hx y hy]
        exact List.mem_map_of_mem hx
      rw [hhead, htail, List.append_nil]
    · have hhead : ((items x).filter fun y => owner y = key a) = [] := by
        rw [List.filter_eq_nil_iff]
        intro y hy howned
        apply hnodup.1
        rw [← howner.1 y hy, of_decide_eq_true howned]
        exact List.mem_map_of_mem ha
      rw [hhead, List.nil_append]
      exact ih hnodup.2 howner.2 ha

/-- What was mapped and then rearranged is a rearrangement that is mapped. -/
theorem perm_of_perm_map {α β : Type} {f : α → β} {ys : List β} {xs : List α}
    (h : ys.Perm (xs.map f)) : ∃ zs : List α, zs.Perm xs ∧ ys = zs.map f := by
  have hforall : List.Forall₂ (fun y x => y = f x) (xs.map f) xs := by
    rw [List.forall₂_map_left_iff]
    exact List.forall₂_same.mpr fun _ _ => rfl
  obtain ⟨zs, hzs, hperm⟩ := List.perm_comp_forall₂ h hforall
  refine ⟨zs, hperm, ?_⟩
  rw [← List.forall₂_eq_eq_eq, List.forall₂_map_right_iff]
  exact hzs

theorem mem_values {execution : WorkflowExecution} {node : NodeExecution}
    (h : node ∈ execution.nodes.values) : ∃ key, (key, node) ∈ execution.nodes.entries := by
  obtain ⟨p, hp, rfl⟩ := List.mem_map.mp h
  exact ⟨p.1, hp⟩

theorem nodes_of_rowsOf {aggregates : List Aggregate} (hseparate : Separate aggregates)
    (hgood : ∀ aggregate ∈ aggregates, aggregate.Good style) {aggregate : Aggregate}
    (h : aggregate ∈ aggregates) :
    ((rowsOf style aggregates).nodes.filter fun node =>
        node.workflowExecutionId = aggregate.execution.id) =
      aggregate.execution.nodes.values.map (nodeRecord style) := by
  apply filter_flatMap_owner (fun aggregate : Aggregate => aggregate.execution.id)
    hseparate.1 ?_ h
  intro other hother row hrow
  obtain ⟨node, hnode, rfl⟩ := List.mem_map.mp hrow
  obtain ⟨key, hentry⟩ := mem_values hnode
  exact ((hgood other hother).owned _ hentry).2

theorem find?_rowsOf (aggregates : List Aggregate) (id : UUID) :
    ((rowsOf style aggregates).executions.find? fun record => record.id = id) =
      (aggregates.find? fun aggregate => aggregate.execution.id = id).map (executionRecord style) := by
  unfold rowsOf
  rw [List.find?_map]
  rfl

theorem keys_nodup {aggregates : List Aggregate} (hseparate : Separate aggregates)
    {aggregate : Aggregate} (hgood : aggregate.Good style) (h : aggregate ∈ aggregates) :
    aggregate.execution.nodes.keys.Nodup := by
  have hpairs : (aggregate.execution.nodes.values.map fun node =>
      (node.workflowExecutionId, node.nodeKey)).Nodup := by
    refine List.Nodup.sublist (List.Sublist.map _ ?_) hseparate.2.2.2
    rw [List.flatMap]
    exact List.sublist_flatten_of_mem (List.mem_map_of_mem h)
  have heq : (aggregate.execution.nodes.values.map fun node =>
      (node.workflowExecutionId, node.nodeKey)) =
        aggregate.execution.nodes.keys.map fun key => (aggregate.execution.id, key) := by
    unfold Dict.values Dict.keys
    rw [List.map_map, List.map_map]
    apply List.map_congr_left
    intro p hp
    obtain ⟨hkey, howner⟩ := hgood.owned p hp
    exact Prod.ext howner hkey
  rw [heq] at hpairs
  exact hpairs.of_map _

/-- What is loaded of an aggregate is like it. -/
theorem get_rowsOf {aggregates : List Aggregate} (hseparate : Separate aggregates)
    (hgood : ∀ aggregate ∈ aggregates, aggregate.Good style) (arrangement : Arrangement)
    {id : UUID} {aggregate : Aggregate}
    (h : (aggregates.find? fun aggregate => aggregate.execution.id = id) = some aggregate) :
    ∃ execution,
      (rowsOf style aggregates).get conv style arrangement.arrange id =
        .ok (some ⟨aggregate.snapshot.restored, execution⟩) ∧
      Alike (OutputReadable style) aggregate.execution aggregate.execution execution := by
  have hmem := List.mem_of_find?_eq_some h
  have hthis := hgood aggregate hmem
  obtain ⟨nodes, hnodes, harranged⟩ := perm_of_perm_map
    (arrangement.perm (aggregate.execution.nodes.values.map (nodeRecord style)))
  have hread : (arrangement.arrange (aggregate.execution.nodes.values.map (nodeRecord style))).mapM
      (nodeFromRecord style) = .ok nodes := by
    rw [harranged]
    apply mapM_map_ok
    intro node hnode
    obtain ⟨key, hentry⟩ := mem_values (hnodes.subset hnode)
    exact nodeFromRecord_nodeRecord (hthis.outputs _ hentry)
  have hload : loadSnapshot conv style (executionRecord style aggregate).snapshot =
      .ok aggregate.snapshot.restored := loadSnapshot_column conv hthis.valid hthis.readable
  refine ⟨{ aggregate.execution with
    snapshot := aggregate.snapshot.restored.snapshot
    nodes := Dict.ofList NodeExecution.nodeKey (fun node => node) nodes }, ?_, ?_⟩
  · unfold Tables.get
    rw [find?_rowsOf, h]
    show (((arrangement.arrange ((rowsOf style aggregates).nodes.filter fun node =>
      node.workflowExecutionId = aggregate.execution.id)).mapM (nodeFromRecord style)) >>= _) = _
    rw [nodes_of_rowsOf hseparate hgood hmem, hread, ok_bind, hload]
    rfl
  · have hentries : (nodes.map fun node => (node.nodeKey, node)).Perm
        aggregate.execution.nodes.entries := by
      have heq : aggregate.execution.nodes.entries =
          aggregate.execution.nodes.values.map fun node => (node.nodeKey, node) := by
        unfold Dict.values
        rw [List.map_map]
        conv_lhs => rw [← List.map_id aggregate.execution.nodes.entries]
        apply List.map_congr_left
        intro p hp
        exact Prod.ext (hthis.owned p hp).1.symm rfl
      rw [heq]
      exact hnodes.map _
    constructor
    · rfl
    · show aggregate.snapshot.restored.snapshot.toWorkflowGraph = _
      rw [hthis.snapshot]
      rfl
    · exact hentries
    · exact keys_nodup hseparate hthis hmem
    · rfl
    · rfl
    · rfl
    · exact hthis.outputs

/-! ## 3. Saving -/

/-- The row behind the turns of the loop over the nodes. -/
def NodeExecutionRecord.saved (style : JsonText.Style) (nodes : List NodeExecution)
    (row : NodeExecutionRecord) : NodeExecutionRecord :=
  (nodes.find? fun node => node.id = row.id).elim row (row.assign style)

theorem foldl_saveNode {stored : Dict NodeKey NodeExecutionRecord} {nodes : List NodeExecution}
    (hstored : ∀ node ∈ nodes, ∃ record, stored.get? node.nodeKey = some record ∧ record.id = node.id)
    (hnodup : (nodes.map NodeExecution.id).Nodup) (rows : List NodeExecutionRecord) :
    nodes.foldl (saveNode style stored) rows = rows.map (NodeExecutionRecord.saved style nodes) := by
  induction nodes generalizing rows with
  | nil => exact (List.map_id rows).symm
  | cons node nodes ih =>
    rw [List.forall_mem_cons] at hstored
    rw [List.map_cons, List.nodup_cons] at hnodup
    obtain ⟨⟨record, hrecord, hid⟩, hstored⟩ := hstored
    have hsave : saveNode style stored rows node =
        rows.map fun row => if row.id = node.id then row.assign style node else row := by
      unfold saveNode
      rw [hrecord]
      simp only [hid]
    rw [List.foldl_cons, hsave, ih hstored hnodup.2, List.map_map]
    apply List.map_congr_left
    intro row _
    unfold NodeExecutionRecord.saved
    simp only [Function.comp_apply, List.find?_cons]
    by_cases hrow : row.id = node.id
    · have hnone : (nodes.find? fun other => decide (other.id = node.id)) = none := by
        rw [List.find?_eq_none]
        intro other hother heq
        apply hnodup.1
        rw [← of_decide_eq_true heq]
        exact List.mem_map_of_mem hother
      -- the row was assigned before, and no later node has its identifier
      rw [if_pos hrow, decide_eq_true hrow.symm]
      show (nodes.find? fun other => decide (other.id = row.id)).elim (row.assign style node) _ = _
      rw [hrow, hnone]
      rfl
    · rw [if_neg hrow, decide_eq_false (Ne.symm hrow)]

theorem find?_id {nodes : List NodeExecution} (hnodup : (nodes.map NodeExecution.id).Nodup)
    {node : NodeExecution} (h : node ∈ nodes) :
    (nodes.find? fun other => other.id = node.id) = some node := by
  have hget := Dict.get?_of_mem_entries (d := Dict.ofList NodeExecution.id (fun node => node) nodes)
    (by unfold Dict.keys Dict.ofList; rw [List.map_map]; exact hnodup)
    (List.mem_map_of_mem (f := fun node : NodeExecution => (node.id, node)) h)
  rw [Dict.get?_ofList, Option.map_id'] at hget
  exact hget

theorem assign_nodeRecord {node node' : NodeExecution} (h : node'.identity = node.identity) :
    (nodeRecord style node).assign style node' = nodeRecord style node' := by
  obtain ⟨hid, hrest⟩ := Prod.mk.inj h
  obtain ⟨howner, hkey⟩ := Prod.mk.inj hrest
  unfold NodeExecutionRecord.assign nodeRecord
  simp only [hid, howner, hkey]

/-- What the aggregates in memory become when one of them is changed. -/
def putExecution (aggregates : List Aggregate) (id : UUID) (execution : WorkflowExecution) :
    List Aggregate :=
  aggregates.map fun other =>
    if other.execution.id = id then { other with execution := execution } else other

theorem map_eq_map_of_forall₂ {α β γ : Type} {R : α → β → Prop} {xs : List α} {ys : List β}
    (h : List.Forall₂ R xs ys) {f : α → γ} {g : β → γ} (hfg : ∀ x ∈ xs, ∀ y, R x y → f x = g y) :
    xs.map f = ys.map g := by
  induction h with
  | nil => rfl
  | cons hhead _ ih =>
    rw [List.forall_mem_cons] at hfg
    rw [List.map_cons, List.map_cons, hfg.1 _ hhead, ih hfg.2]

theorem alike_identities {fits : Option JsonObject → Prop} {origin before after : WorkflowExecution}
    (h : Alike fits origin before after) :
    before.nodes.values.map NodeExecution.identity =
      origin.nodes.values.map NodeExecution.identity := by
  have heq := congrArg (List.map Prod.snd) h.identities
  rw [List.map_map, List.map_map] at heq
  unfold Dict.values
  rw [List.map_map, List.map_map]
  exact heq

section Saving

variable {aggregates : List Aggregate} (hseparate : Separate aggregates)
  (hgood : ∀ aggregate ∈ aggregates, aggregate.Good style) {aggregate : Aggregate}
  (h : aggregate ∈ aggregates) {execution loaded : WorkflowExecution}
  (halike : Alike (OutputReadable style) aggregate.execution execution loaded)

include halike in
theorem loaded_id : loaded.id = aggregate.execution.id := by
  rw [halike.header]
  exact halike.id

include halike in
theorem loaded_values : loaded.nodes.values.Perm execution.nodes.values := halike.nodes.map Prod.snd

include halike in
theorem loaded_ids : (loaded.nodes.values.map NodeExecution.id).Perm
    (aggregate.execution.nodes.values.map NodeExecution.id) := by
  have heq := congrArg (List.map Prod.fst) (alike_identities halike)
  rw [List.map_map, List.map_map] at heq
  exact ((loaded_values halike).map NodeExecution.id).trans (List.Perm.of_eq heq)

include hseparate h halike in
theorem loaded_ids_nodup : (loaded.nodes.values.map NodeExecution.id).Nodup := by
  rw [(loaded_ids halike).nodup_iff]
  refine List.Nodup.sublist (List.Sublist.map _ ?_) hseparate.2.2.1
  rw [List.flatMap]
  exact List.sublist_flatten_of_mem (List.mem_map_of_mem h)

include hseparate h halike in
/-- No other aggregate has a node execution of this one. -/
theorem find?_other {other : Aggregate} (hother : other ∈ aggregates) (hne : other ≠ aggregate)
    {node : NodeExecution} (hnode : node ∈ other.execution.nodes.values) :
    (loaded.nodes.values.find? fun candidate => candidate.id = node.id) = none := by
  have hids := hseparate.2.2.1
  rw [List.map_flatMap, List.nodup_flatMap] at hids
  have hsymm : Std.Symm (Function.onFun List.Disjoint fun aggregate : Aggregate =>
      aggregate.execution.nodes.values.map NodeExecution.id) := ⟨fun _ _ hdisjoint => hdisjoint.symm⟩
  have hdisjoint := hids.2.forall hother h hne
  rw [List.find?_eq_none]
  intro candidate hcandidate heq
  have hid : node.id ∈ aggregate.execution.nodes.values.map NodeExecution.id := by
    apply (loaded_ids halike).subset
    rw [← of_decide_eq_true heq]
    exact List.mem_map_of_mem hcandidate
  exact hdisjoint (List.mem_map_of_mem hnode) hid

include hseparate hgood h halike in
/-- The loop of `save` finds the row of every node. -/
theorem stored_row : ∀ node ∈ loaded.nodes.values, ∃ record,
    (Dict.ofList NodeExecutionRecord.nodeKey (fun record => record)
      ((rowsOf style aggregates).nodes.filter fun node =>
        node.workflowExecutionId = loaded.id)).get? node.nodeKey = some record ∧
      record.id = node.id := by
  intro node hnode
  have hmem : node.identity ∈ execution.nodes.values.map NodeExecution.identity :=
    List.mem_map_of_mem ((loaded_values halike).subset hnode)
  rw [alike_identities halike] at hmem
  obtain ⟨node', hnode', hidentity⟩ := List.mem_map.mp hmem
  obtain ⟨hid, hrest⟩ := Prod.mk.inj hidentity
  have hkeys : (aggregate.execution.nodes.values.map NodeExecution.nodeKey).Nodup := by
    have heq : aggregate.execution.nodes.keys =
        aggregate.execution.nodes.values.map NodeExecution.nodeKey := by
      unfold Dict.keys Dict.values
      rw [List.map_map]
      apply List.map_congr_left
      intro p hp
      exact ((hgood _ h).owned p hp).1.symm
    rw [← heq]
    exact keys_nodup hseparate (hgood _ h) h
  refine ⟨nodeRecord style node', ?_, hid⟩
  rw [loaded_id halike, nodes_of_rowsOf hseparate hgood h, ← (Prod.mk.inj hrest).2]
  apply Dict.get?_of_mem_entries
  · unfold Dict.keys Dict.ofList
    rw [List.map_map, List.map_map]
    exact hkeys
  · exact List.mem_map_of_mem (f := fun record : NodeExecutionRecord => (record.nodeKey, record))
      (List.mem_map_of_mem hnode')

include hseparate h halike in
/-- The rows of the aggregate after the loop. -/
theorem saved_own : aggregate.execution.nodes.values.map
    (fun node => (nodeRecord style node).saved style loaded.nodes.values) =
      execution.nodes.values.map (nodeRecord style) := by
  have heq := alike_identities halike
  rw [← List.forall₂_eq_eq_eq, List.forall₂_map_left_iff, List.forall₂_map_right_iff] at heq
  symm
  apply map_eq_map_of_forall₂ heq
  intro node hnode node' hidentity
  have hfind := find?_id (loaded_ids_nodup hseparate h halike)
    ((loaded_values halike).mem_iff.mpr hnode)
  unfold NodeExecutionRecord.saved
  rw [show (nodeRecord style node').id = node.id from (Prod.mk.inj hidentity).1.symm, hfind]
  exact (assign_nodeRecord hidentity).symm

include hseparate h halike in
theorem saved_nodes : (rowsOf style aggregates).nodes.map
    (NodeExecutionRecord.saved style loaded.nodes.values) =
      (rowsOf style (putExecution aggregates aggregate.execution.id execution)).nodes := by
  unfold rowsOf putExecution
  rw [List.map_flatMap, List.flatMap_map]
  apply List.flatMap_congr
  intro other hother
  rw [List.map_map]
  by_cases heq : other = aggregate
  · subst heq
    rw [if_pos rfl]
    exact saved_own hseparate h halike
  · have hne : other.execution.id ≠ aggregate.execution.id := by
      intro hsame
      exact heq (List.inj_on_of_nodup_map hseparate.1 hother h hsame)
    rw [if_neg hne]
    apply List.map_congr_left
    intro node hnode
    unfold NodeExecutionRecord.saved
    rw [Function.comp_apply, show (nodeRecord style node).id = node.id from rfl,
      find?_other hseparate h halike hother heq hnode]
    rfl

include halike in
theorem saved_executions : ((rowsOf style aggregates).executions.map fun record =>
    if record.id = loaded.id then record.assign loaded else record) =
      (rowsOf style (putExecution aggregates aggregate.execution.id execution)).executions := by
  unfold rowsOf putExecution
  rw [List.map_map, List.map_map, loaded_id halike]
  apply List.map_congr_left
  intro other _
  simp only [Function.comp_apply]
  rw [show (executionRecord style other).id = other.execution.id from rfl]
  by_cases hother : other.execution.id = aggregate.execution.id
  · rw [if_pos hother, if_pos hother, halike.header]
    unfold executionRecord WorkflowExecutionRecord.assign
    simp only [hother, halike.id]
  · rw [if_neg hother, if_neg hother]

include hseparate hgood h halike in
/-- Saving what is like an aggregate writes the rows of the aggregate. -/
theorem save_rowsOf (s : Snapshot) :
    (rowsOf style aggregates).save style ⟨s, loaded⟩ =
      some (rowsOf style (putExecution aggregates aggregate.execution.id execution)) := by
  have hfound : ∃ record, ((rowsOf style aggregates).executions.find? fun record =>
      record.id = loaded.id) = some record := by
    rw [← Option.isSome_iff_exists, List.find?_isSome, loaded_id halike]
    exact ⟨executionRecord style aggregate, List.mem_map_of_mem h, decide_eq_true rfl⟩
  obtain ⟨record, hrecord⟩ := hfound
  unfold Tables.save
  simp only [hrecord]
  rw [saved_executions halike, foldl_saveNode (stored_row hseparate hgood h halike)
    (loaded_ids_nodup hseparate h halike), saved_nodes hseparate h halike]

end Saving

/-! ## 4. One request -/

/-- The parts of an accepted definition with what belongs to one run, and floats that are written
exactly. -/
def Request.Storable (style : JsonText.Style) : Request → Prop
  | .create s _ _ _ => s.Valid ∧ style.Readable (JsonText.scalars (.dict (snapshotToDict s))) ∧
      ∃ (d : AcceptedDefinition) (runId : UUID) (requestContext : Option WorkflowRequestContext)
        (phasePacks : List PhasePackDefinition) (skills : List SkillDefinition)
        (modelSelections : List NodeModelSelection),
        s.snapshot = WorkflowSnapshot.fromDefinition d.definition runId requestContext phasePacks skills
          modelSelections
  | .operate _ operation => OutputReadable style operation.output

/-- What holds of the aggregates in memory all along a run. -/
structure Kept (style : JsonText.Style) (aggregates : List Aggregate) : Prop where
  separate : Separate aggregates
  good : ∀ aggregate ∈ aggregates, aggregate.Good style
  reachable : ∀ aggregate ∈ aggregates, ∃ d : AcceptedDefinition, d.Reachable aggregate.execution

theorem kept_nil : Kept style [] where
  separate := ⟨List.nodup_nil, List.nodup_nil, List.nodup_nil, List.nodup_nil⟩
  good _ h := absurd h List.not_mem_nil
  reachable _ h := absurd h List.not_mem_nil

theorem distinct_rowsOf (aggregates : List Aggregate) :
    (rowsOf style aggregates).Distinct ↔ Separate aggregates := by
  unfold Tables.Distinct Separate rowsOf
  simp only [List.map_map, List.map_flatMap]
  rfl

theorem rowsOf_append (aggregates : List Aggregate) (aggregate : Aggregate) :
    rowsOf style (aggregates ++ [aggregate]) = {
      executions := (rowsOf style aggregates).executions ++ [executionRecord style aggregate]
      nodes := (rowsOf style aggregates).nodes ++
        aggregate.execution.nodes.values.map (nodeRecord style) } := by
  unfold rowsOf
  rw [List.map_append, List.flatMap_append, List.flatMap_singleton]
  rfl

theorem good_create {s : Snapshot} (hvalid : s.Valid)
    (hreadable : style.Readable (JsonText.scalars (.dict (snapshotToDict s)))) (id : UUID)
    (nodeId : NodeKey → UUID) (now : Instant) : (Aggregate.create s id nodeId now).Good style where
  valid := hvalid
  readable := hreadable
  snapshot := rfl
  owned p hp := by
    obtain ⟨node, -, rfl⟩ := List.mem_map.mp hp
    exact ⟨rfl, rfl⟩
  outputs p hp := by
    obtain ⟨node, -, rfl⟩ := List.mem_map.mp hp
    exact outputReadable_none style

theorem add_rowsOf (aggregates : List Aggregate) (aggregate : Aggregate) :
    (rowsOf style aggregates).add style aggregate =
      if Separate (aggregates ++ [aggregate]) then some (rowsOf style (aggregates ++ [aggregate]))
      else none := by
  unfold Tables.add
  simp only [← rowsOf_append, distinct_rowsOf]

theorem kept_append {aggregates : List Aggregate} (h : Kept style aggregates) {s : Snapshot} {id : UUID}
    {nodeId : NodeKey → UUID} {now : Instant} (hstorable : (Request.create s id nodeId now).Storable style)
    (hseparate : Separate (aggregates ++ [.create s id nodeId now])) :
    Kept style (aggregates ++ [.create s id nodeId now]) := by
  obtain ⟨hvalid, hreadable, d, runId, requestContext, phasePacks, skills, modelSelections, hsnapshot⟩ :=
    hstorable
  refine ⟨hseparate, ?_, ?_⟩
  · rw [List.forall_mem_append, List.forall_mem_singleton]
    exact ⟨h.good, good_create hvalid hreadable id nodeId now⟩
  · rw [List.forall_mem_append, List.forall_mem_singleton]
    refine ⟨h.reachable, d, _, ⟨runId, requestContext, phasePacks, skills, modelSelections, id, nodeId,
      now, ?_⟩, [], rfl⟩
    exact congrArg (fun snapshot => WorkflowExecution.create snapshot id nodeId now) hsnapshot

theorem separate_putExecution {aggregates : List Aggregate} (hseparate : Separate aggregates)
    {aggregate : Aggregate} (h : aggregate ∈ aggregates) {execution : WorkflowExecution}
    (hid : execution.id = aggregate.execution.id)
    (hidentities : execution.nodes.values.map NodeExecution.identity =
      aggregate.execution.nodes.values.map NodeExecution.identity) :
    Separate (putExecution aggregates aggregate.execution.id execution) := by
  have hids : (putExecution aggregates aggregate.execution.id execution).map
      (fun aggregate => aggregate.execution.id) =
        aggregates.map fun aggregate => aggregate.execution.id := by
    unfold putExecution
    rw [List.map_map]
    apply List.map_congr_left
    intro other _
    by_cases hother : other.execution.id = aggregate.execution.id
    · rw [Function.comp_apply, if_pos hother]
      exact hid.trans hother.symm
    · rw [Function.comp_apply, if_neg hother]
  have hruns : (putExecution aggregates aggregate.execution.id execution).map
      (fun aggregate => aggregate.snapshot.runId) =
        aggregates.map fun aggregate => aggregate.snapshot.runId := by
    unfold putExecution
    rw [List.map_map]
    apply List.map_congr_left
    intro other _
    by_cases hother : other.execution.id = aggregate.execution.id
    · rw [Function.comp_apply, if_pos hother]
    · rw [Function.comp_apply, if_neg hother]
  have hnodes : ((putExecution aggregates aggregate.execution.id execution).flatMap
      fun aggregate => aggregate.execution.nodes.values).map NodeExecution.identity =
        (aggregates.flatMap fun aggregate => aggregate.execution.nodes.values).map
          NodeExecution.identity := by
    unfold putExecution
    rw [List.map_flatMap, List.map_flatMap, List.flatMap_map]
    apply List.flatMap_congr
    intro other hother
    by_cases hsame : other.execution.id = aggregate.execution.id
    · obtain rfl : other = aggregate := List.inj_on_of_nodup_map hseparate.1 hother h hsame
      rw [if_pos rfl]
      exact hidentities
    · rw [if_neg hsame]
  have hnodeIds := congrArg (List.map Prod.fst) hnodes
  have hnodeKeys := congrArg (List.map Prod.snd) hnodes
  rw [List.map_map, List.map_map] at hnodeIds hnodeKeys
  obtain ⟨h₁, h₂, h₃, h₄⟩ := hseparate
  refine ⟨?_, ?_, ?_, ?_⟩
  · rw [hids]
    exact h₁
  · rw [hruns]
    exact h₂
  · exact (congrArg List.Nodup hnodeIds).mpr h₃
  · exact (congrArg List.Nodup hnodeKeys).mpr h₄

/-- An operation keeps what is stored of an aggregate, and the aggregate within reach. -/
theorem kept_putExecution {aggregates : List Aggregate} (h : Kept style aggregates)
    {aggregate : Aggregate} (hmem : aggregate ∈ aggregates) {operation : Operation}
    {execution loaded : WorkflowExecution}
    (hstep : (operation.step aggregate.execution).2 = execution)
    (halike : Alike (OutputReadable style) aggregate.execution execution loaded) :
    Kept style (putExecution aggregates aggregate.execution.id execution) := by
  have hother : ∀ {P : Aggregate → Prop}, (∀ other ∈ aggregates, P other) →
      P { aggregate with execution := execution } →
        ∀ other ∈ putExecution aggregates aggregate.execution.id execution, P other := by
    intro P hall hthis other hmem'
    obtain ⟨before, hbefore, rfl⟩ := List.mem_map.mp hmem'
    by_cases hsame : before.execution.id = aggregate.execution.id
    · obtain rfl : before = aggregate :=
        List.inj_on_of_nodup_map h.separate.1 hbefore hmem hsame
      rw [if_pos rfl]
      exact hthis
    · rw [if_neg hsame]
      exact hall before hbefore
  have hgood := h.good aggregate hmem
  refine ⟨separate_putExecution h.separate hmem halike.id (alike_identities halike),
    hother h.good ?_, hother h.reachable ?_⟩
  · refine ⟨hgood.valid, hgood.readable, halike.snapshot.trans hgood.snapshot, ?_, halike.fits⟩
    intro p hp
    have hentry : (p.1, p.2.identity) ∈
        execution.nodes.entries.map (fun p => (p.1, p.2.identity)) :=
      List.mem_map_of_mem (f := fun p : NodeKey × NodeExecution => (p.1, p.2.identity)) hp
    rw [halike.identities] at hentry
    obtain ⟨q, hq, heq⟩ := List.mem_map.mp hentry
    obtain ⟨hkey, hidentity⟩ := Prod.mk.inj heq
    obtain ⟨-, hrest⟩ := Prod.mk.inj hidentity
    obtain ⟨howner, hnodeKey⟩ := Prod.mk.inj hrest
    obtain ⟨hownedKey, hownedId⟩ := hgood.owned q hq
    refine ⟨?_, ?_⟩
    · rw [← hnodeKey, hownedKey, hkey]
    · show p.2.workflowExecutionId = execution.id
      rw [← howner, hownedId, halike.id]
  · obtain ⟨d, start, hstart, operations, hrun⟩ := h.reachable aggregate hmem
    refine ⟨d, start, hstart, operations ++ [operation], ?_⟩
    rw [Machine.run_append, ← hrun]
    exact hstep.symm

/-- A request answers the same and leaves the rows of what it leaves in memory. -/
theorem storedStep_rowsOf {aggregates : List Aggregate} (h : Kept style aggregates)
    (request : Request × Arrangement) (hstorable : request.1.Storable style) :
    (storedStep conv style (rowsOf style aggregates) request) =
        ((memoryStep aggregates request.1).1, rowsOf style (memoryStep aggregates request.1).2) ∧
      Kept style (memoryStep aggregates request.1).2 := by
  obtain ⟨request, arrangement⟩ := request
  cases request with
  | create s id nodeId now =>
    unfold storedStep memoryStep
    simp only [add_rowsOf]
    by_cases hseparate : Separate (aggregates ++ [.create s id nodeId now])
    · simp only [if_pos hseparate]
      exact ⟨trivial, kept_append h hstorable hseparate⟩
    · simp only [if_neg hseparate]
      exact ⟨trivial, h⟩
  | operate id operation =>
    unfold storedStep memoryStep
    cases hfind : aggregates.find? fun aggregate => aggregate.execution.id = id with
    | none =>
      have hget : (rowsOf style aggregates).get conv style arrangement.arrange id = .ok none := by
        unfold Tables.get
        rw [find?_rowsOf, hfind]
        rfl
      simp only [hget, hfind]
      exact ⟨trivial, h⟩
    | some aggregate =>
      obtain ⟨loaded, hget, halike⟩ := @get_rowsOf conv style _ h.separate h.good arrangement id aggregate hfind
      have hmem := List.mem_of_find?_eq_some hfind
      have hid : aggregate.execution.id = id := by simpa using List.find?_some hfind
      subst hid
      obtain ⟨hresult, hnext⟩ := operation.step_alike halike (outputReadable_none style) hstorable
      simp only [hget, hfind]
      rcases hstep : operation.step aggregate.execution with ⟨⟨result, calls⟩, execution⟩
      rcases hstep' : operation.step loaded with ⟨⟨result', calls'⟩, loaded'⟩
      rw [hstep, hstep'] at hresult hnext
      obtain rfl : result' = result := hresult
      cases result' with
      | error error => exact ⟨rfl, h⟩
      | ok value =>
        have hsave := save_rowsOf h.separate h.good hmem hnext aggregate.snapshot.restored
        simp only [hsave]
        refine ⟨rfl, ?_⟩
        exact kept_putExecution h hmem (congrArg Prod.snd hstep) hnext

/-! ## 5. Runs -/

theorem run_rowsOf {requests : List (Request × Arrangement)}
    (hstorable : ∀ request ∈ requests, request.1.Storable style) {aggregates : List Aggregate}
    (h : Kept style aggregates) :
    ((stored conv style).trace (rowsOf style aggregates) requests).map Transition.output =
        (memory.trace aggregates (requests.map Prod.fst)).map Transition.output ∧
      (stored conv style).run (rowsOf style aggregates) requests =
        rowsOf style (memory.run aggregates (requests.map Prod.fst)) ∧
      Kept style (memory.run aggregates (requests.map Prod.fst)) := by
  induction requests generalizing aggregates with
  | nil => exact ⟨rfl, rfl, h⟩
  | cons request requests ih =>
    rw [List.forall_mem_cons] at hstorable
    obtain ⟨hstep, hnext⟩ := @storedStep_rowsOf conv style _ h request hstorable.1
    obtain ⟨htrace, hrun, hkept⟩ := ih hstorable.2 hnext
    have hafter : ((stored conv style).step (rowsOf style aggregates) request).2 =
        rowsOf style (memory.step aggregates request.1).2 := congrArg Prod.snd hstep
    have hanswer : ((stored conv style).step (rowsOf style aggregates) request).1 =
        (memory.step aggregates request.1).1 := congrArg Prod.fst hstep
    refine ⟨?_, ?_, hkept⟩
    · rw [Machine.trace_cons, List.map_cons, List.map_cons, Machine.trace_cons, List.map_cons, hafter]
      show ((stored conv style).step (rowsOf style aggregates) request).1 :: _ =
        (memory.step aggregates request.1).1 :: _
      rw [hanswer]
      exact congrArg _ htrace
    · rw [Machine.run_cons, hafter]
      exact hrun

def acceptedReview : AcceptedDefinition := ⟨Definition.definition ⟨reviewPayload, 7⟩, rfl⟩

def backwards : Arrangement := ⟨List.reverse, fun rows => List.reverse_perm rows⟩

/-- A review that is created, started, claimed and completed with its verdict; the rows are answered
backwards. -/
def reviewRequests : List (Request × Arrangement) :=
  [.create reviewSnapshot 9 (fun key => if key = "work" then 10 else 11) 0,
    .operate 9 (.start 1),
    .operate 9 (.claimTask "work" "worker" 60 12 2),
    .operate 9 (.completeTask "work" .success (some [("verdict", text "ok")]) (some 12) 3)].map
    fun request => (request, backwards)

theorem reviewRequests_storable : ∀ request ∈ reviewRequests, request.1.Storable plain := by
  have hreadable : ∀ operation : Operation,
      (JsonText.scalars (outputJson operation.output)).any isFloat = false →
        (Request.operate 9 operation).Storable plain := fun _ h => plain_readable h
  unfold reviewRequests
  simp only [List.map_cons, List.map_nil, List.forall_mem_cons]
  refine ⟨?_, hreadable _ rfl, hreadable _ rfl, hreadable _ rfl, fun _ h => absurd h List.not_mem_nil⟩
  exact ⟨reviewSnapshot_valid, plain_readable (by decide +kernel), acceptedReview, 5, none, _, _, _, rfl⟩

end JbOrchestrator.Serialization
