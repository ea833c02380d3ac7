import JbOrchestrator.Serialization.RoundTrip

/-!
# Columns — definitions and snapshots in the database

A JSON column keeps the text of an object.  A definition that the API accepted is loaded as it was
stored; a snapshot is loaded as it was stored exactly when no skill in it has an empty revision and no
phase pack a naive time of creation.
-/

open Lib

namespace JbOrchestrator.Serialization

open Workflows Api Json Cli

variable (conv : Conversions)

theorem fromColumn_column {style : JsonText.Style} {data : JsonObject}
    (h : style.Readable (JsonText.scalars (.dict data))) :
    fromColumn style (column style data) = .ok data := by
  unfold fromColumn column
  rw [JsonText.loads_dumps h]
  rfl

/-! ## 1. Accepted definitions -/

/-- The row that `SqlAlchemyWorkflowDefinitionRepository.add` writes, as `get` reads it. -/
def loadDefinition (style : JsonText.Style) (chars : List Char) : Except ReadError Definition := do
  let data ← fromColumn style chars
  definitionFromDict conv data

/-- What the API accepts consists of parts that passed their own constructors. -/
theorem accepted_valid {payload accepted : WorkflowDefinitionCreate}
    (h : payload.postInit = .ok accepted) {id : UUID} (hid : id < 2 ^ 128) :
    Definition.Valid ⟨accepted, id⟩ := by
  obtain rfl := workflow_postInit_eq h
  unfold WorkflowDefinitionCreate.postInit at h
  simp only [check_bind_eq_ok, forAll_eq_ok] at h
  obtain ⟨hskills, hrouting, hpack, hconstruct, -⟩ := h
  have hconstruct := ok_of_mapError hconstruct
  unfold WorkflowDefinition.construct at hconstruct
  simp only [check_bind_eq_ok, forAll_eq_ok] at hconstruct
  obtain ⟨hmappings, hnodes, hedges, hpost⟩ := hconstruct
  have hnode : ∀ node ∈ payload.nodes, NodeValid node.normalized := by
    intro node hnode
    have hdefinition : node.normalized.definition ∈ payload.normalized.definition.nodes :=
      List.mem_map_of_mem (List.mem_map_of_mem hnode)
    constructor
    · exact hskills node hnode
    · intro request hrequest
      obtain ⟨routing, hmem, rfl⟩ := Option.mem_map.mp hrequest
      have hok := hrouting node hnode routing (Option.mem_toList.mpr hmem)
      exact ⟨routing_postInit_normalized hok, routing_normalized_normalized routing⟩
    · intro reference hreference
      exact hpack node hnode reference (Option.mem_toList.mpr hreference)
    · exact hmappings _ hdefinition
    · exact hnodes _ hdefinition
  constructor
  · exact hid
  · intro node hmem
    obtain ⟨posted, hposted, rfl⟩ := List.mem_map.mp hmem
    exact hnode posted hposted
  · intro edge hedge condition hcondition
    exact hedges edge hedge condition (Option.mem_toList.mpr hcondition)
  · exact hpost

/-- `definition_from_dict(json.loads(json.dumps(definition_to_dict(definition)))) == definition`. -/
theorem definition_loaded_as_stored {style : JsonText.Style}
    {payload accepted : WorkflowDefinitionCreate} {id : UUID} (haccepted : payload.postInit = .ok accepted)
    (hid : id < 2 ^ 128)
    (hreadable : style.Readable (JsonText.scalars (.dict (definitionToDict ⟨accepted, id⟩)))) :
    loadDefinition conv style (column style (definitionToDict ⟨accepted, id⟩)) =
      .ok ⟨accepted, id⟩ := by
  unfold loadDefinition
  rw [fromColumn_column hreadable, ok_bind]
  exact definition_roundTrip conv (accepted_valid haccepted hid)

/-- A style without floats. -/
def plain : JsonText.Style where
  float _ := []
  readFloat _ := none

def isFloat : Scalar → Bool
  | .float _ => true
  | _ => false

theorem plain_readable {value : Json} (h : (JsonText.scalars value).any isFloat = false) :
    plain.Readable (JsonText.scalars value) := by
  intro number hnumber
  rw [List.any_eq_false] at h
  exact absurd rfl (h _ hnumber)

def strict : Conversions where
  str _ := ""
  int _ := .error .typeError
  dict _ := .error .typeError
  decimal _ := .error .valueError
  uuid _ := .error .valueError
  datetime _ := .error .valueError

def reviewPayload : WorkflowDefinitionCreate where
  key := "review"
  version := 1
  entryNode := "work"
  nodes := [
    { key := "work", kind := .task, maxAttempts := 2, configuration := [("strict", flag true)],
      phasePack := some ⟨"checklist", 1⟩ },
    { key := "done", kind := .terminal, terminalStatus := some .succeeded }]
  edges := [⟨"work", .success, "done", some ⟨"/verdict", .str "ok"⟩⟩,
    ⟨"work", .success, "work", none⟩, ⟨"work", .failure, "work", none⟩]

theorem reviewPayload_accepted : reviewPayload.postInit = .ok reviewPayload := rfl

theorem definition_loaded_review :
    reviewPayload.postInit = .ok reviewPayload ∧
      loadDefinition strict plain (column plain (definitionToDict ⟨reviewPayload, 7⟩)) =
        .ok ⟨reviewPayload, 7⟩ :=
  ⟨reviewPayload_accepted,
    definition_loaded_as_stored strict reviewPayload_accepted (by decide)
      (plain_readable (by decide +kernel))⟩

/-! ## 2. Snapshots -/

/-- `snapshot_from_dict(record.snapshot)`. -/
def loadSnapshot (style : JsonText.Style) (chars : List Char) : Except ReadError Snapshot := do
  let data ← fromColumn style chars
  snapshotFromDict conv data

theorem loadSnapshot_column {style : JsonText.Style} {s : Snapshot} (h : s.Valid)
    (hreadable : style.Readable (JsonText.scalars (.dict (snapshotToDict s)))) :
    loadSnapshot conv style (column style (snapshotToDict s)) = .ok s.restored := by
  unfold loadSnapshot
  rw [fromColumn_column hreadable, ok_bind]
  exact snapshot_restored conv h

theorem snapshot_loaded_as_stored_iff {style : JsonText.Style} {s : Snapshot} (h : s.Valid)
    (hreadable : style.Readable (JsonText.scalars (.dict (snapshotToDict s)))) :
    loadSnapshot conv style (column style (snapshotToDict s)) = .ok s.restored ∧
      (loadSnapshot conv style (column style (snapshotToDict s)) = .ok s ↔
        (∀ skill ∈ s.skills, skill.sourceRevision ≠ some "") ∧
          ∀ phasePack ∈ s.phasePacks, phasePack.createdAt.offset ≠ none) := by
  have hload := loadSnapshot_column conv h hreadable
  refine ⟨hload, ?_⟩
  rw [hload, ← Snapshot.restored_eq_iff]
  constructor
  · exact Except.ok.inj
  · exact congrArg Except.ok

def noon : Datetime := ⟨2024, 2, 29, ⟨12, 0, 0, 0⟩, some 0⟩

/-- A phase pack whose row was loaded without an offset. -/
def checklist : PhasePack where
  key := "checklist"
  version := 1
  name := "Checklist"
  description := "What to look at"
  instructions := "Look at it"
  id := 3
  createdAt := ⟨2024, 2, 29, ⟨12, 0, 0, 0⟩, none⟩

def reviewSnapshot : Snapshot where
  id := 4
  runId := 5
  definitionId := 7
  definitionKey := reviewPayload.key
  definitionVersion := reviewPayload.version
  entryNode := reviewPayload.entryNode
  nodes := reviewPayload.nodes
  edges := reviewPayload.edges
  phasePacks := [checklist]
  createdAt := noon

theorem reviewSnapshot_valid : reviewSnapshot.Valid := by
  have hdefinition : Definition.Valid ⟨reviewPayload, 7⟩ :=
    accepted_valid reviewPayload_accepted (by decide)
  refine ⟨by decide, by decide, by decide, hdefinition.nodes, hdefinition.edges, ?_, ?_, ?_, ?_,
    by decide, rfl⟩
  · intro context hcontext
    cases hcontext
  · intro phasePack hphasePack
    obtain rfl := List.mem_singleton.mp hphasePack
    exact ⟨rfl, by decide, by decide⟩
  · intro skill hskill
    cases hskill
  · intro value hvalue
    cases hvalue

theorem snapshot_loaded_review :
    loadSnapshot strict plain (column plain (snapshotToDict reviewSnapshot)) =
        .ok reviewSnapshot.restored ∧
      (loadSnapshot strict plain (column plain (snapshotToDict reviewSnapshot)) = .ok reviewSnapshot ↔
        (∀ skill ∈ reviewSnapshot.skills, skill.sourceRevision ≠ some "") ∧
          ∀ phasePack ∈ reviewSnapshot.phasePacks, phasePack.createdAt.offset ≠ none) :=
  snapshot_loaded_as_stored_iff strict reviewSnapshot_valid (plain_readable (by decide +kernel))

end JbOrchestrator.Serialization
