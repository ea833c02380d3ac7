import JbOrchestrator.Cli.Registration
import JbOrchestrator.Serialization.Workflows

/-!
# RoundTrip — what was stored is loaded again

A record whose constructors were passed is read back from its JSON as it was, but for two things: an
empty source revision of a skill comes back as none, and a naive creation time of a phase pack comes
back in UTC.
-/

open Lib

namespace JbOrchestrator.Serialization

open Workflows Api Json Cli

/-! ## 1. Entries and lists -/

theorem ok_bind {ε α β : Type} (a : α) (f : α → Except ε β) : (Except.ok a >>= f) = f a := rfl

/-- The value behind a key; the keys of a written object are literals. -/
theorem lookup_cons (entry : String × Json) (rest : JsonObject) (key : String) :
    Json.lookup (entry :: rest) key = if entry.1 = key then some entry.2 else Json.lookup rest key := by
  unfold Json.lookup
  by_cases h : entry.1 = key <;> simp [h]

variable (conv : Conversions)

theorem readTexts_texts (values : List String) : readTexts conv (texts values) = .ok values := by
  unfold readTexts texts
  rw [items_list, ok_bind, List.map_map]
  exact congrArg Except.ok (List.map_id values)

theorem enumOf_level (level : RequirementLevel) :
    enumOf RequirementLevel.members RequirementLevel.value level.value = .ok level := by
  cases level <;> rfl

theorem enumOf_tier (tier : ModelTier) :
    enumOf ModelTier.members ModelTier.value tier.value = .ok tier := by
  cases tier <;> rfl

theorem enumOf_sourceKind (kind : SkillSourceKind) :
    enumOf SkillSourceKind.members SkillSourceKind.value kind.value = .ok kind := by
  cases kind <;> rfl

theorem enumOf_kind (kind : NodeKind) : enumOf NodeKind.members NodeKind.value kind.value = .ok kind := by
  cases kind <;> rfl

theorem enumOf_status (status : WorkflowStatus) :
    enumOf WorkflowStatus.members WorkflowStatus.value status.value = .ok status := by
  cases status <;> rfl

theorem enumOf_outcome (outcome : NodeOutcome) :
    enumOf NodeOutcome.members NodeOutcome.value outcome.value = .ok outcome := by
  cases outcome <;> rfl

/-! ## 2. Routing requests -/

theorem routing_normalized_normalized (routing : ModelRoutingPayload) :
    routing.normalized.normalized = routing.normalized := by
  unfold ModelRoutingPayload.normalized
  simp only [sortedSet_sortedSet, Option.map_map, Function.comp_def, normalizedCost_normalizedCost]

theorem routing_postInit_normalized {routing : ModelRoutingPayload} (h : routing.postInit = .ok ()) :
    routing.normalized.postInit = .ok () := by
  unfold ModelRoutingPayload.postInit at h ⊢
  rw [routing_normalized_normalized]
  exact h

theorem request_roundTrip {request : ModelRoutingPayload} (h : request.postInit = .ok ())
    (hnormal : request.normalized = request) :
    requestFromDict conv (requestToDict request) = .ok request := by
  have hbudget : readNotNone (orNone decimal request.maxCostUsd)
      (fun budget => conv.toDecimal (conv.toStr budget)) = .ok request.maxCostUsd :=
    readNotNone_orNone (fun _ => rfl) fun budget _ => toDecimal_str conv budget
  unfold requestFromDict requestToDict readLevel
  simp only [getD, lookup_cons, String.reduceEq, if_true, if_false, Option.getD_some, toStr_text,
    enumOf_level, ok_bind, toNat_number, readTexts_texts, hbudget]
  rw [h]
  exact congrArg Except.ok hnormal

/-! ## 3. Catalog records -/

/-- The record as its constructor left it, with an identifier and a time that Python can hold. -/
structure Profile.Valid (profile : Profile) : Prop where
  postInit : profile.toModelProfileCreate.postInit = .ok profile.toModelProfileCreate
  id : profile.id < 2 ^ 128
  createdAt : profile.createdAt.Valid

structure Skill.Valid (skill : Skill) : Prop where
  postInit : skill.toSkillCreate.postInit = .ok skill.toSkillCreate
  id : skill.id < 2 ^ 128
  createdAt : skill.createdAt.Valid

structure PhasePack.Valid (phasePack : PhasePack) : Prop where
  postInit : phasePack.toPhasePackCreate.postInit = .ok phasePack.toPhasePackCreate
  id : phasePack.id < 2 ^ 128
  createdAt : phasePack.createdAt.Valid

structure NodeSelection.Valid (value : NodeSelection) : Prop where
  postInit : nodeSelectionPostInit value = .ok ()
  profile : value.selection.profile.Valid

/-- What `readFilled` answers of an optional text. -/
def filled (value : Option String) : Option String := value.filter fun text => text ≠ ""

/-- The skill as it is loaded. -/
def Skill.restored (skill : Skill) : Skill :=
  { skill with sourceRevision := filled skill.sourceRevision }

/-- The phase pack as it is loaded. -/
def PhasePack.restored (phasePack : PhasePack) : PhasePack :=
  { phasePack with
    createdAt := { phasePack.createdAt with offset := phasePack.createdAt.offset <|> some 0 } }

theorem filled_eq_iff {value : Option String} : filled value = value ↔ value ≠ some "" := by
  cases value with
  | none => simp [filled]
  | some text =>
    unfold filled
    rw [Option.filter_eq_some_iff]
    simp

theorem Skill.restored_eq_iff {skill : Skill} :
    skill.restored = skill ↔ skill.sourceRevision ≠ some "" := by
  rw [← filled_eq_iff]
  constructor
  · intro h
    exact congrArg (fun skill : Skill => skill.sourceRevision) h
  · intro h
    unfold Skill.restored
    rw [h]

theorem PhasePack.restored_eq_iff {phasePack : PhasePack} :
    phasePack.restored = phasePack ↔ phasePack.createdAt.offset ≠ none := by
  constructor
  · intro h hnaive
    have hoffset := congrArg (fun pack : PhasePack => pack.createdAt.offset) h
    rw [hnaive] at hoffset
    unfold PhasePack.restored at hoffset
    rw [hnaive] at hoffset
    cases hoffset
  · intro h
    obtain ⟨offset, hoffset⟩ := Option.ne_none_iff_exists'.mp h
    have hcreatedAt : ({ phasePack.createdAt with offset := phasePack.createdAt.offset <|> some 0 } :
        Datetime) = phasePack.createdAt := by
      rw [hoffset, show (some offset <|> some 0) = some offset from rfl, ← hoffset]
    unfold PhasePack.restored
    rw [hcreatedAt]

theorem readFilled_text {data : JsonObject} {key : String} {value : Option String}
    (h : getD data key = orNone text value) : readFilled conv data key = .ok (filled value) := by
  unfold readFilled
  rw [h]
  cases value with
  | none => rfl
  | some s =>
    show (if (text s).truthy then Except.ok (some s) else Except.ok none) = _
    rw [truthy_text]
    by_cases hempty : s = "" <;> simp [filled, hempty, Option.filter]

theorem skillReference_roundTrip {reference : SkillReference}
    (h : skillReferencePostInit reference = .ok ()) :
    skillReferenceFromDict conv (skillReferenceToDict reference) = .ok reference := by
  unfold skillReferenceFromDict skillReferenceToDict referenceToDict
  simp only [object_dict, ok_bind, readText, readNat, subscript, lookup_cons, String.reduceEq, if_true,
    if_false, toStr_text, pure_bind, toNat_number]
  rw [h]
  rfl

theorem profile_roundTrip {profile : Profile} (h : profile.Valid) :
    profileFromDict conv (profileToDict profile) = .ok profile := by
  unfold profileFromDict profileToDict
  simp only [ok_bind, readId, readText, readNat, readMember, readDecimal, readDatetime, subscript, getD,
    lookup_cons, String.reduceEq, if_true, if_false, Option.getD_some, Json.uuid, decimal, datetime,
    toStr_text, pure_bind, toNat_number, toDecimal_str, toUuid_text conv h.id,
    toDatetime_isoformat conv h.createdAt, enumOf_tier, readTexts_texts, toDict_dict, truthy_flag]
  rw [h.postInit]
  rfl

theorem nodeSelection_roundTrip {value : NodeSelection} (h : value.Valid) :
    nodeSelectionFromDict conv (.dict (nodeSelectionToDict value)) = .ok value := by
  unfold nodeSelectionFromDict nodeSelectionToDict
  simp only [object_dict, ok_bind, readText, readNat, readMember, readDecimal, subscript, getD,
    lookup_cons, String.reduceEq, if_true, if_false, Option.getD_some, decimal, toStr_text, pure_bind,
    toNat_number, toDecimal_str, enumOf_tier, readTexts_texts, toDict_dict,
    profile_roundTrip conv h.profile]
  rw [h.postInit]
  rfl

theorem phaseInput_roundTrip {input : PhaseInputDefinition} (h : phaseInputPostInit input = .ok ()) :
    phaseInputFromDict conv (phaseInputToDict input) = .ok input := by
  unfold phaseInputFromDict phaseInputToDict
  simp only [object_dict, ok_bind, readText, subscript, getD, lookup_cons, String.reduceEq, if_true,
    if_false, Option.getD_some, toStr_text, pure_bind, truthy_flag]
  rw [h]
  rfl

/-- Only a skill that is no git skill may have an empty revision, and it may as well have none. -/
theorem Skill.postInit_restored {skill : Skill} (h : skill.Valid) :
    skill.restored.toSkillCreate.postInit = .ok skill.restored.toSkillCreate := by
  have hpost := h.postInit
  by_cases hempty : skill.sourceRevision = some ""
  · have hrevision : skill.restored.sourceRevision = none := by
      unfold Skill.restored
      rw [hempty]
      rfl
    unfold SkillCreate.postInit at hpost ⊢
    simp only [check_bind_eq_ok, raiseIf_eq_ok, hrevision, hempty, Option.all_none, Option.all_some]
      at hpost ⊢
    obtain ⟨h₁, h₂, h₃, h₄, h₅, h₆, -⟩ := hpost
    refine ⟨h₁, h₂, h₃, h₄, ?_, h₆, rfl⟩
    intro hgit
    exact h₅ ⟨hgit.1, rfl⟩
  · rw [Skill.restored_eq_iff.mpr hempty]
    exact hpost

theorem skill_roundTrip {skill : Skill} (h : skill.Valid) :
    skillFromDict conv (.dict (skillToDict skill)) = .ok skill.restored := by
  have hrevision : readFilled conv (skillToDict skill) "source_revision" =
      .ok (filled skill.sourceRevision) := readFilled_text conv rfl
  unfold skillFromDict
  rw [object_dict, ok_bind]
  simp only [hrevision]
  unfold skillToDict
  simp only [ok_bind, readId, readText, readNat, readMember, readDatetime, subscript, getD,
    lookup_cons, String.reduceEq, if_true, if_false, Option.getD_some, Json.uuid, datetime,
    toStr_text, pure_bind, toNat_number, toUuid_text conv h.id,
    toDatetime_isoformat conv h.createdAt, enumOf_sourceKind, toDict_dict]
  show refusing (SkillCreate.postInit skill.restored.toSkillCreate) >>= _ = _
  rw [Skill.postInit_restored h]
  rfl

theorem phasePack_postInit_parts {pack : PhasePackCreate} (h : pack.postInit = .ok pack) :
    (∀ input ∈ pack.inputs, phaseInputPostInit input = .ok ()) ∧
      ∀ reference ∈ pack.skills, skillReferencePostInit reference = .ok () := by
  unfold PhasePackCreate.postInit at h
  simp only [check_bind_eq_ok, forAll_eq_ok] at h
  exact ⟨h.1, h.2.1⟩

theorem phasePack_roundTrip {phasePack : PhasePack} (h : phasePack.Valid) :
    phasePackFromDict conv (.dict (phasePackToDict phasePack)) = .ok phasePack.restored := by
  obtain ⟨hinputs, hskills⟩ := phasePack_postInit_parts h.postInit
  unfold phasePackFromDict phasePackToDict
  simp only [object_dict, ok_bind, readId, readText, readNat, readDatetime, subscript, getD, lookup_cons,
    String.reduceEq, if_true, if_false, Option.getD_some, Json.uuid, datetime, toStr_text, pure_bind,
    toNat_number, toUuid_text conv h.id, toDatetime_isoformat conv h.createdAt, toDict_dict, items_list,
    mapM_map_ok fun input hinput => phaseInput_roundTrip conv (hinputs input hinput),
    mapM_map_ok fun reference hreference => skillReference_roundTrip conv (hskills reference hreference)]
  show refusing (PhasePackCreate.postInit phasePack.toPhasePackCreate) >>= _ = _
  rw [h.postInit]
  rfl

/-! ## 4. Nodes and edges -/

/-- A node whose parts and whose own constructor were passed; its routing request is normalized. -/
structure NodeValid (node : WorkflowNodePayload) : Prop where
  skills : ∀ reference ∈ node.skills, skillReferencePostInit reference = .ok ()
  routing : ∀ request ∈ node.modelRouting, request.postInit = .ok () ∧ request.normalized = request
  phasePack : ∀ reference ∈ node.phasePack, phasePackReferencePostInit reference = .ok ()
  mappings : ∀ mapping ∈ node.inputMappings, mapping.postInit = .ok ()
  postInit : node.definition.postInit = .ok ()

def EdgeValid (edge : EdgeDefinition) : Prop := ∀ condition ∈ edge.condition, condition.postInit = .ok ()

theorem refusingDefinition_ok {α : Type} {x : Except WorkflowDefinitionError α} {a : α}
    (h : x = .ok a) : refusingDefinition x = .ok a := by
  rw [h]
  rfl

theorem phasePackReference_roundTrip {reference : PhasePackReference}
    (h : phasePackReferencePostInit reference = .ok ()) :
    phasePackReferenceFromDict conv [("key", text reference.key),
      ("version", number reference.version)] = .ok reference := by
  unfold phasePackReferenceFromDict
  simp only [ok_bind, readText, readNat, subscript, lookup_cons, String.reduceEq, if_true, if_false,
    toStr_text, pure_bind, toNat_number]
  rw [h]
  rfl

theorem inputMapping_roundTrip {mapping : NodeInputMapping} (h : mapping.postInit = .ok ()) :
    inputMappingFromDict conv (inputMappingToDict mapping) = .ok mapping := by
  unfold inputMappingFromDict inputMappingToDict
  simp only [object_dict, ok_bind, readText, subscript, lookup_cons, String.reduceEq, if_true, if_false,
    toStr_text, pure_bind]
  rw [refusingDefinition_ok h]
  rfl

/-- A text that a constructor has found to be more than blanks is not empty. -/
theorem filled_of_not_blank {value : Option String} (h : value.any Text.isBlank = false) :
    filled value = value := by
  rw [filled_eq_iff]
  intro hempty
  rw [hempty] at h
  exact absurd h (by decide)

theorem node_roundTrip {node : WorkflowNodePayload} (h : NodeValid node) :
    nodeFromDict conv (.dict (nodeToDict node)) = .ok node := by
  have hpost := h.postInit
  unfold NodeDefinition.postInit at hpost
  simp only [check_bind_eq_ok, raiseIf_eq_ok] at hpost
  obtain ⟨-, -, -, -, -, -, -, -, hexecutor, hinstructions, -⟩ := hpost
  have hexecutor : readFilled conv (nodeToDict node) "executor_key" = .ok node.executorKey := by
    rw [readFilled_text conv rfl]
    exact congrArg Except.ok (filled_of_not_blank (Bool.eq_false_of_not_eq_true hexecutor))
  have hinstructions : readFilled conv (nodeToDict node) "instructions" = .ok node.instructions := by
    rw [readFilled_text conv rfl]
    exact congrArg Except.ok (filled_of_not_blank (Bool.eq_false_of_not_eq_true hinstructions))
  have hterminal : readIfTruthy (orNone (fun status => text status.value) node.terminalStatus)
      (fun terminal => enumOf WorkflowStatus.members WorkflowStatus.value (conv.toStr terminal)) =
      .ok node.terminalStatus := by
    apply readIfTruthy_orNone
    · intro status _
      cases status <;> rfl
    · intro status _
      exact enumOf_status status
  have hrouting : readNotNone (orNone (fun request => .dict (requestToDict request)) node.modelRouting)
      (fun routing => do
        let routing ← conv.toDict routing
        requestFromDict conv routing) = .ok node.modelRouting := by
    apply readNotNone_orNone
    · intro request
      rfl
    · intro request hrequest
      exact request_roundTrip conv (h.routing request hrequest).1 (h.routing request hrequest).2
  have hphasePack : readIfDict (orNone phasePackReferenceToDict node.phasePack)
      (phasePackReferenceFromDict conv) = .ok node.phasePack :=
    readIfDict_orNone fun reference hreference =>
      phasePackReference_roundTrip conv (h.phasePack reference hreference)
  unfold nodeFromDict
  rw [object_dict, ok_bind]
  simp only [hexecutor, hinstructions]
  unfold nodeToDict
  simp only [ok_bind, readText, readNat, readMember, subscript, getD, lookup_cons, String.reduceEq,
    if_true, if_false, Option.getD_some, toStr_text, pure_bind, toNat_number, enumOf_kind, toDict_dict,
    items_list, hterminal, hrouting, hphasePack,
    mapM_map_ok fun reference hreference => skillReference_roundTrip conv (h.skills reference hreference),
    mapM_map_ok fun mapping hmapping => inputMapping_roundTrip conv (h.mappings mapping hmapping)]
  show refusingDefinition node.definition.postInit >>= _ = _
  rw [refusingDefinition_ok h.postInit]
  rfl

theorem condition_roundTrip {condition : ArtifactCondition} (h : condition.postInit = .ok ()) :
    conditionFromDict conv [("path", text condition.path), ("equals", .scalar condition.equals)] =
      .ok condition := by
  unfold conditionFromDict
  simp only [ok_bind, readText, subscript, getD, lookup_cons, String.reduceEq, if_true, if_false,
    toStr_text, pure_bind, Option.getD_some, scalarOf]
  rw [refusingDefinition_ok h]
  rfl

/-- A condition on null is an entry of the edge, the absence of a condition is none. -/
theorem edge_roundTrip {edge : EdgeDefinition} (h : EdgeValid edge) :
    edgeFromDict conv (.dict (edgeToDict edge)) = .ok edge := by
  obtain ⟨source, outcome, target, condition⟩ := edge
  unfold edgeFromDict edgeToDict
  cases condition with
  | none =>
    simp only [object_dict, ok_bind, readText, readMember, subscript, getD, lookup_cons, String.reduceEq,
      if_true, if_false, toStr_text, pure_bind, enumOf_outcome, List.append_nil]
    rfl
  | some condition =>
    have hcondition := condition_roundTrip conv (h condition rfl)
    simp only [object_dict, ok_bind, readText, readMember, subscript, getD, lookup_cons, String.reduceEq,
      if_true, if_false, toStr_text, pure_bind, enumOf_outcome, List.cons_append, List.nil_append,
      Option.getD_some, conditionToDict, readIfDict, hcondition]
    rfl

/-! ## 5. Definitions -/

structure Definition.Valid (definition : Definition) : Prop where
  id : definition.id < 2 ^ 128
  nodes : ∀ node ∈ definition.nodes, NodeValid node
  edges : ∀ edge ∈ definition.edges, EdgeValid edge
  postInit : definition.definition.postInit = .ok ()

theorem definition_roundTrip {definition : Definition} (h : definition.Valid) :
    definitionFromDict conv (definitionToDict definition) = .ok definition := by
  unfold definitionFromDict definitionToDict
  simp only [ok_bind, readId, readText, readNat, subscript, lookup_cons, String.reduceEq, if_true,
    if_false, Json.uuid, toStr_text, pure_bind, toNat_number, toUuid_text conv h.id, items_list,
    mapM_map_ok fun node hnode => node_roundTrip conv (h.nodes node hnode),
    mapM_map_ok fun edge hedge => edge_roundTrip conv (h.edges edge hedge)]
  show refusingDefinition definition.definition.postInit >>= _ = _
  rw [refusingDefinition_ok h.postInit]
  rfl

/-! ## 6. Snapshots -/

structure ContextValid (context : WorkflowRequestContext) : Prop where
  requestId : context.requestId < 2 ^ 128
  projectId : context.projectId < 2 ^ 128
  postInit : context.postInit = .ok ()

structure Snapshot.Valid (s : Snapshot) : Prop where
  id : s.id < 2 ^ 128
  runId : s.runId < 2 ^ 128
  definitionId : s.definitionId < 2 ^ 128
  nodes : ∀ node ∈ s.nodes, NodeValid node
  edges : ∀ edge ∈ s.edges, EdgeValid edge
  requestContext : ∀ context ∈ s.requestContext, ContextValid context
  phasePacks : ∀ phasePack ∈ s.phasePacks, phasePack.Valid
  skills : ∀ skill ∈ s.skills, skill.Valid
  modelSelections : ∀ value ∈ s.modelSelections, value.Valid
  createdAt : s.createdAt.Valid
  postInit : s.snapshot.postInit = .ok ()

/-- The snapshot as it is loaded. -/
def Snapshot.restored (s : Snapshot) : Snapshot :=
  { s with
    phasePacks := s.phasePacks.map PhasePack.restored
    skills := s.skills.map Skill.restored }

theorem map_eq_self_iff {α : Type} {f : α → α} {xs : List α} : xs.map f = xs ↔ ∀ x ∈ xs, f x = x := by
  have h := List.map_inj_left (l := xs) (f := f) (g := id)
  rwa [List.map_id] at h

theorem Snapshot.restored_eq_iff {s : Snapshot} : s.restored = s ↔
    (∀ skill ∈ s.skills, skill.sourceRevision ≠ some "") ∧
      ∀ phasePack ∈ s.phasePacks, phasePack.createdAt.offset ≠ none := by
  have hskills : s.skills.map Skill.restored = s.skills ↔
      ∀ skill ∈ s.skills, skill.sourceRevision ≠ some "" := by
    rw [map_eq_self_iff]
    exact forall₂_congr fun skill _ => Skill.restored_eq_iff
  have hpacks : s.phasePacks.map PhasePack.restored = s.phasePacks ↔
      ∀ phasePack ∈ s.phasePacks, phasePack.createdAt.offset ≠ none := by
    rw [map_eq_self_iff]
    exact forall₂_congr fun pack _ => PhasePack.restored_eq_iff
  rw [← hskills, ← hpacks]
  constructor
  · intro h
    exact ⟨congrArg Snapshot.skills h, congrArg Snapshot.phasePacks h⟩
  · intro h
    unfold Snapshot.restored
    rw [h.1, h.2]

/-- The checks of a snapshot do not look at what a load changes. -/
theorem Snapshot.postInit_restored (s : Snapshot) :
    s.restored.snapshot.postInit = s.snapshot.postInit := by
  have hpacks : s.restored.snapshot.phasePacks = s.snapshot.phasePacks := by
    show (s.phasePacks.map PhasePack.restored).map _ = s.phasePacks.map _
    rw [List.map_map]
    rfl
  have hskills : s.restored.snapshot.skills.map SkillDefinition.reference =
      s.snapshot.skills.map SkillDefinition.reference := by
    show ((s.skills.map Skill.restored).map _).map _ = (s.skills.map _).map _
    rw [List.map_map, List.map_map, List.map_map]
    rfl
  have heq : s.restored.snapshot =
      { s.snapshot with skills := s.restored.snapshot.skills } :=
    congrArg (fun packs => { s.snapshot with
      phasePacks := packs, skills := s.restored.snapshot.skills }) hpacks
  rw [heq]
  unfold WorkflowSnapshot.postInit
  dsimp only
  rw [hskills]
  rfl

theorem context_roundTrip {context : WorkflowRequestContext} (h : ContextValid context) :
    requestContextFromDict conv (requestContextToDict context) = .ok context := by
  have htitle : readNotNone (orNone text context.title) (fun title => pure (conv.toStr title)) =
      .ok context.title := readNotNone_orNone (fun _ => rfl) fun _ _ => rfl
  unfold requestContextFromDict requestContextToDict
  simp only [ok_bind, readId, readText, subscript, getD, lookup_cons, String.reduceEq, if_true, if_false,
    Json.uuid, toStr_text, pure_bind, toUuid_text conv h.requestId, toUuid_text conv h.projectId,
    Option.getD_some, htitle]
  rw [refusingDefinition_ok h.postInit]
  rfl

theorem snapshot_restored {s : Snapshot} (h : s.Valid) :
    snapshotFromDict conv (snapshotToDict s) = .ok s.restored := by
  have hcontext : readIfDict (orNone (fun context => .dict (requestContextToDict context))
      s.requestContext) (requestContextFromDict conv) = .ok s.requestContext :=
    readIfDict_orNone fun context hcontext => context_roundTrip conv (h.requestContext context hcontext)
  unfold snapshotFromDict snapshotToDict
  simp only [ok_bind, readId, readText, readNat, readDatetime, subscript, getD, lookup_cons,
    String.reduceEq, if_true, if_false, Option.getD_some, Json.uuid, datetime, toStr_text, pure_bind,
    toNat_number, toUuid_text conv h.id, toUuid_text conv h.runId, toUuid_text conv h.definitionId,
    toDatetime_isoformat conv h.createdAt, items_list, hcontext,
    mapM_map_ok fun node hnode => node_roundTrip conv (h.nodes node hnode),
    mapM_map_ok fun edge hedge => edge_roundTrip conv (h.edges edge hedge),
    mapM_map_ok fun value hvalue => nodeSelection_roundTrip conv (h.modelSelections value hvalue),
    mapM_map_restored fun value hvalue => phasePack_roundTrip conv (h.phasePacks value hvalue),
    mapM_map_restored fun skill hskill => skill_roundTrip conv (h.skills skill hskill)]
  show refusingDefinition s.restored.snapshot.postInit >>= _ = _
  rw [Snapshot.postInit_restored, refusingDefinition_ok h.postInit]
  rfl

end JbOrchestrator.Serialization
