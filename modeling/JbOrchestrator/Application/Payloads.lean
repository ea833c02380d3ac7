import JbOrchestrator.Application.SkillAddons
import JbOrchestrator.Lib.JsonText
import JbOrchestrator.Lib.Uuid

/-!
# Payloads — what a dispatch is asked for, and its digest

A dispatch strips the texts of its command and sorts the add-ons; the digest of what is left is stored
with the idempotency key.  Two payloads have one digest exactly if they are equal, up to collisions of
the hash function.
-/

open Lib

namespace JbOrchestrator.Application

open Domain Workflows

/-! ## 1. Commands -/

/-- `[a-z][a-z0-9._-]{0,63}`. -/
def isIngressKey (key : String) : Bool :=
  let isLower (c : Char) : Bool := 97 ≤ c.toNat && c.toNat ≤ 122
  match key.toList with
  | [] => false
  | first :: rest => isLower first && decide (rest.length ≤ 63) &&
      rest.all fun c => isLower c || Text.isDigit c || c = '.' || c = '_' || c = '-'

/-- The provenance of a request. -/
structure RequestOrigin where
  ingressKey : String
  externalRequestId : String
  actorId : Option String := none
  conversationId : Option String := none
  deriving DecidableEq, Repr

/-- `text.strip() if text else None`. -/
def stripGiven (text : Option String) : Option String :=
  (text.filter fun text => text ≠ "").map Text.strip

/-- `__post_init__`, on the fields as the constructor is given them. -/
def RequestOrigin.postInit (origin : RequestOrigin) : Except DomainError RequestOrigin :=
  let ingressKey := Text.strip origin.ingressKey
  let externalRequestId := Text.strip origin.externalRequestId
  let actorId := stripGiven origin.actorId
  let conversationId := stripGiven origin.conversationId
  if isIngressKey ingressKey = false then
    .error (.domainValidationError
      "ingress key must be 1-64 lowercase letters, digits, dots, underscores, or hyphens")
  else if externalRequestId = "" ∨ 255 < externalRequestId.length then
    .error (.domainValidationError "external request ID must contain 1-255 characters")
  else if actorId.any fun actorId => 255 < actorId.length then
    .error (.domainValidationError "origin actor ID must contain at most 255 characters")
  else if conversationId.any fun conversationId => 512 < conversationId.length then
    .error (.domainValidationError "origin conversation ID must contain at most 512 characters")
  else .ok { ingressKey, externalRequestId, actorId, conversationId }

structure DispatchProjectRequest where
  projectId : UUID
  prompt : String
  idempotencyKey : String
  origin : RequestOrigin
  title : Option String := none
  definitionKey : Option String := none
  definitionVersion : Option ℤ := none
  recommendationId : Option UUID := none
  skillAddons : List NodeSkillAddon := []

/-- `text.strip() if text else None`, with an empty text for no text. -/
def stripOrNone (text : Option String) : Option String :=
  (text.map Text.strip).filter fun text => text ≠ ""

/-- The arguments of `_payload_digest`; a workflow is named with its version or not at all. -/
structure DispatchPayload where
  prompt : String
  title : Option String
  origin : RequestOrigin
  workflow : Option (String × ℤ)
  skillAddons : List NodeSkillAddon
  recommendationId : Option UUID
  deriving DecidableEq, Repr

/-- The definition that the command names. -/
def DispatchProjectRequest.workflow (command : DispatchProjectRequest) :
    Except ServiceError (Option (String × ℤ)) :=
  match stripOrNone command.definitionKey, command.definitionVersion with
  | none, none => .ok none
  | some key, some version => .ok (some (key, version))
  | _, _ => .error (.resourceConflict
      "request workflow override requires definition_key and definition_version")

/-- The start of `dispatch`. -/
def DispatchProjectRequest.normalize (command : DispatchProjectRequest) :
    Except ServiceError DispatchPayload := do
  let workflow ← command.workflow
  let skillAddons ← normalizeSkillAddons command.skillAddons
  pure {
    prompt := Text.strip command.prompt
    title := stripOrNone command.title
    origin := command.origin
    workflow := workflow
    skillAddons := skillAddons
    recommendationId := command.recommendationId }

/-- The payload of a command that is constructed from the given fields and dispatched. -/
def DispatchProjectRequest.payload (command : DispatchProjectRequest) :
    Except ServiceError DispatchPayload := do
  let origin ← command.origin.postInit.mapError ServiceError.domain
  DispatchProjectRequest.normalize { command with origin }

/-! ## 2. The text and its digest -/

def optionText (text : Option String) : Json := (text.map jsonText).getD (.scalar .null)

def RequestOrigin.toJson (origin : RequestOrigin) : Json :=
  .dict [("ingress_key", jsonText origin.ingressKey),
    ("external_request_id", jsonText origin.externalRequestId),
    ("actor_id", optionText origin.actorId), ("conversation_id", optionText origin.conversationId)]

def skillJson (reference : SkillReference) : Json :=
  .dict [("key", jsonText reference.key), ("version", .scalar (.int reference.version))]

def NodeSkillAddon.toJson (addon : NodeSkillAddon) : Json :=
  .dict [("node_key", jsonText addon.nodeKey), ("skills", .list (addon.skills.map skillJson))]

def workflowJson (workflow : Option (String × ℤ)) : Json :=
  match workflow with
  | none => .scalar .null
  | some (key, version) =>
    .dict [("definition_key", jsonText key), ("definition_version", .scalar (.int version))]

def uuidText (id : UUID) : String := String.ofList (Uuid.text id)

def DispatchPayload.toJson (payload : DispatchPayload) : Json :=
  .dict [("prompt", jsonText payload.prompt), ("title", optionText payload.title),
    ("origin", payload.origin.toJson), ("workflow", workflowJson payload.workflow),
    ("skill_addons", .list (payload.skillAddons.map NodeSkillAddon.toJson)),
    ("recommendation_id", optionText (payload.recommendationId.map uuidText))]

/-- `ensure_ascii=False, separators=(",", ":")`; no float is written. -/
def compact : JsonText.Style where
  ensureAscii := false
  blanks := 0
  float _ := []
  readFloat _ := none

/-- The text that is hashed. -/
def DispatchPayload.text (payload : DispatchPayload) : String :=
  String.ofList (JsonText.dumps compact (JsonText.sortKeys payload.toJson))

/-- `[0-9a-f]{64}`. -/
def isHexDigest (text : String) : Bool :=
  decide (text.length = 64) &&
    text.toList.all fun c => Text.isDigit c || (97 ≤ c.toNat && c.toNat ≤ 102)

/-- `sha256(text.encode()).hexdigest()`. -/
structure Sha256 where
  hexdigest : String → String
  shape : ∀ text, isHexDigest (hexdigest text) = true

/-- The two texts do not collide. -/
def Sha256.Separates (sha256 : Sha256) (text text' : String) : Prop :=
  sha256.hexdigest text = sha256.hexdigest text' → text = text'

/-- `_payload_digest`. -/
def DispatchPayload.digest (sha256 : Sha256) (payload : DispatchPayload) : String :=
  "sha256:" ++ sha256.hexdigest payload.text

/-- `_prompt_digest`. -/
def promptDigest (sha256 : Sha256) (prompt : String) : String :=
  "sha256:" ++ sha256.hexdigest (Text.strip prompt)

/-! ## 3. The digest law -/

section

variable {payload payload' : DispatchPayload}

theorem sortKeys_optionText (text : Option String) :
    JsonText.sortKeys (optionText text) = optionText text := by
  cases text <;> rfl

theorem optionText_injective {text text' : Option String} (h : optionText text = optionText text') :
    text = text' := by
  cases text <;> cases text' <;> simp_all [optionText, jsonText]

theorem sortKeys_skillJson (reference : SkillReference) :
    JsonText.sortKeys (skillJson reference) = skillJson reference := by
  simp +decide [skillJson, jsonText, JsonText.sortKeys, JsonText.sortEntries, sortBy]

theorem skillJson_injective : Function.Injective skillJson := by
  rintro ⟨key, version⟩ ⟨key', version'⟩ h
  simp_all [skillJson, jsonText]

theorem sortKeys_addon (addon : NodeSkillAddon) :
    JsonText.sortKeys addon.toJson = addon.toJson := by
  have hskills := JsonText.sortItems_map sortKeys_skillJson addon.skills
  simp +decide [NodeSkillAddon.toJson, jsonText, JsonText.sortKeys, JsonText.sortEntries, sortBy,
    hskills]

theorem addon_toJson_injective : Function.Injective NodeSkillAddon.toJson := by
  rintro ⟨key, skills⟩ ⟨key', skills'⟩ h
  simp only [NodeSkillAddon.toJson, jsonText, Json.dict.injEq, List.cons.injEq, Prod.mk.injEq,
    Json.scalar.injEq, Scalar.str.injEq, Json.list.injEq, true_and, and_true] at h
  obtain ⟨rfl, hskills⟩ := h
  rw [skillJson_injective.list_map hskills]

theorem sortKeys_workflowJson (workflow : Option (String × ℤ)) :
    JsonText.sortKeys (workflowJson workflow) = workflowJson workflow := by
  cases workflow with
  | none => rfl
  | some named =>
    simp +decide [workflowJson, jsonText, JsonText.sortKeys, JsonText.sortEntries, sortBy]

theorem workflowJson_injective {workflow workflow' : Option (String × ℤ)}
    (h : workflowJson workflow = workflowJson workflow') : workflow = workflow' := by
  cases workflow <;> cases workflow' <;> simp_all [workflowJson, jsonText, Prod.ext_iff]

/-- The value that is written, with its keys in order. -/
theorem sortKeys_payload (payload : DispatchPayload) : JsonText.sortKeys payload.toJson = .dict [
    ("origin", .dict [("actor_id", optionText payload.origin.actorId),
      ("conversation_id", optionText payload.origin.conversationId),
      ("external_request_id", jsonText payload.origin.externalRequestId),
      ("ingress_key", jsonText payload.origin.ingressKey)]),
    ("prompt", jsonText payload.prompt),
    ("recommendation_id", optionText (payload.recommendationId.map uuidText)),
    ("skill_addons", .list (payload.skillAddons.map NodeSkillAddon.toJson)),
    ("title", optionText payload.title),
    ("workflow", workflowJson payload.workflow)] := by
  have haddons := JsonText.sortItems_map sortKeys_addon payload.skillAddons
  have horigin : JsonText.sortKeys payload.origin.toJson = .dict [
      ("actor_id", optionText payload.origin.actorId),
      ("conversation_id", optionText payload.origin.conversationId),
      ("external_request_id", jsonText payload.origin.externalRequestId),
      ("ingress_key", jsonText payload.origin.ingressKey)] := by
    simp +decide [RequestOrigin.toJson, JsonText.sortKeys, JsonText.sortEntries, sortBy,
      sortKeys_optionText, jsonText]
  have hprompt : JsonText.sortKeys (jsonText payload.prompt) = jsonText payload.prompt := rfl
  simp +decide [DispatchPayload.toJson, JsonText.sortKeys, JsonText.sortEntries, sortBy, horigin,
    hprompt, haddons, sortKeys_optionText, sortKeys_workflowJson]

theorem readable_optionText (text : Option String) :
    compact.Readable (JsonText.scalars (optionText text)) := by
  intro value hvalue
  cases text <;> simp [optionText, jsonText, JsonText.scalars] at hvalue

theorem readable_addon (addon : NodeSkillAddon) :
    compact.Readable (JsonText.scalars addon.toJson) := by
  apply JsonText.Style.readable_entries.mpr
  simp only [List.forall_mem_cons]
  refine ⟨readable_optionText (some addon.nodeKey), ?_, fun _ h => absurd h List.not_mem_nil⟩
  apply JsonText.Style.readable_items.mpr
  intro item hitem
  obtain ⟨reference, -, rfl⟩ := List.mem_map.mp hitem
  intro value hvalue
  simp [skillJson, jsonText, JsonText.scalars, JsonText.entryScalars] at hvalue

theorem readable_payload (payload : DispatchPayload) :
    compact.Readable (JsonText.scalars (JsonText.sortKeys payload.toJson)) := by
  have htext : ∀ text : String, compact.Readable (JsonText.scalars (jsonText text)) :=
    fun text => readable_optionText (some text)
  rw [sortKeys_payload]
  apply JsonText.Style.readable_entries.mpr
  simp only [List.forall_mem_cons]
  refine ⟨?_, htext _, readable_optionText _, ?_, readable_optionText _, ?_,
    fun _ h => absurd h List.not_mem_nil⟩
  · apply JsonText.Style.readable_entries.mpr
    simp only [List.forall_mem_cons]
    exact ⟨readable_optionText _, readable_optionText _, htext _, htext _,
      fun _ h => absurd h List.not_mem_nil⟩
  · apply JsonText.Style.readable_items.mpr
    intro item hitem
    obtain ⟨addon, -, rfl⟩ := List.mem_map.mp hitem
    exact readable_addon addon
  · intro value hvalue
    cases hworkflow : payload.workflow with
    | none => simp [hworkflow, workflowJson, JsonText.scalars] at hvalue
    | some named =>
      simp [hworkflow, workflowJson, jsonText, JsonText.scalars, JsonText.entryScalars] at hvalue

theorem uuidText_injective {id id' : UUID} (h : uuidText id = uuidText id') : id = id' :=
  Uuid.text_injective (String.ofList_injective h)

/-- The text determines the payload. -/
theorem text_injective (h : payload.text = payload'.text) : payload = payload' := by
  have hvalue := JsonText.dumps_injective (readable_payload payload) (readable_payload payload')
    (String.ofList_injective h)
  rw [sortKeys_payload, sortKeys_payload] at hvalue
  simp only [Json.dict.injEq, List.cons.injEq, Prod.mk.injEq, true_and, and_true, jsonText,
    Json.scalar.injEq, Scalar.str.injEq, Json.list.injEq] at hvalue
  obtain ⟨⟨hactor, hconversation, hexternal, hingress⟩, hprompt, hrecommendation, haddons, htitle,
    hworkflow⟩ := hvalue
  obtain ⟨prompt, title, ⟨ingressKey, externalRequestId, actorId, conversationId⟩, workflow,
    skillAddons, recommendationId⟩ := payload
  obtain ⟨prompt', title', ⟨ingressKey', externalRequestId', actorId', conversationId'⟩, workflow',
    skillAddons', recommendationId'⟩ := payload'
  obtain rfl : actorId = actorId' := optionText_injective hactor
  obtain rfl : conversationId = conversationId' := optionText_injective hconversation
  obtain rfl : externalRequestId = externalRequestId' := hexternal
  obtain rfl : ingressKey = ingressKey' := hingress
  obtain rfl : prompt = prompt' := hprompt
  obtain rfl : title = title' := optionText_injective htitle
  obtain rfl : workflow = workflow' := workflowJson_injective hworkflow
  obtain rfl : skillAddons = skillAddons' := addon_toJson_injective.list_map haddons
  obtain rfl : recommendationId = recommendationId' :=
    Option.map_injective (fun _ _ h => uuidText_injective h) (optionText_injective hrecommendation)
  rfl

/-- Two payloads whose texts do not collide have one digest exactly if they are equal. -/
theorem digest_eq_iff {sha256 : Sha256} (h : sha256.Separates payload.text payload'.text) :
    payload.digest sha256 = payload'.digest sha256 ↔ payload = payload' := by
  unfold DispatchPayload.digest
  rw [String.append_right_inj]
  exact ⟨fun heq => text_injective (h heq), fun heq => by rw [heq]⟩

end

/-! ## 4. Normalization -/

/-- One text with other blanks around it. -/
def SameText (text text' : Option String) : Prop := text.map Text.strip = text'.map Text.strip

/-- An empty text counts as no text before the blanks are taken off, a blank one does not. -/
def EmptyAlike (text text' : Option String) : Prop := text = some "" ↔ text' = some ""

structure SameOrigin (origin origin' : RequestOrigin) : Prop where
  ingressKey : Text.strip origin.ingressKey = Text.strip origin'.ingressKey
  externalRequestId : Text.strip origin.externalRequestId = Text.strip origin'.externalRequestId
  actorId : SameText origin.actorId origin'.actorId
  conversationId : SameText origin.conversationId origin'.conversationId

/-- Two commands that ask for the same, up to blanks around the texts and the order and repetitions in
the add-ons. -/
structure SameRequest (command command' : DispatchProjectRequest) : Prop where
  prompt : Text.strip command.prompt = Text.strip command'.prompt
  title : stripOrNone command.title = stripOrNone command'.title
  origin : SameOrigin command.origin command'.origin
  definitionKey : stripOrNone command.definitionKey = stripOrNone command'.definitionKey
  definitionVersion : command.definitionVersion = command'.definitionVersion
  recommendationId : command.recommendationId = command'.recommendationId
  skillAddons : SameAddons command.skillAddons command'.skillAddons

/-- The actor and the conversation of the origins are empty alike. -/
structure EmptyFieldsAlike (origin origin' : RequestOrigin) : Prop where
  actorId : EmptyAlike origin.actorId origin'.actorId
  conversationId : EmptyAlike origin.conversationId origin'.conversationId

section

variable {text text' : Option String} {origin origin' given : RequestOrigin}

theorem strip_empty : Text.strip "" = "" := by decide

theorem stripGiven_eq_iff (h : SameText text text') :
    stripGiven text = stripGiven text' ↔ EmptyAlike text text' := by
  unfold SameText at h
  unfold stripGiven EmptyAlike
  cases text with
  | none =>
    cases text' with
    | none => simp
    | some given => cases h
  | some given =>
    cases text' with
    | none => cases h
    | some given' =>
      have hstrip : Text.strip given = Text.strip given' := Option.some.inj h
      by_cases hempty : given = "" <;> by_cases hempty' : given' = "" <;>
        simp [Option.filter, hempty, hempty', hstrip]

/-- A text that passes a bound passes it with other blanks. -/
theorem any_stripGiven (h : SameText text text') (limit : ℕ) :
    ((stripGiven text).any fun text => limit < text.length) =
      (stripGiven text').any fun text => limit < text.length := by
  have hone : ∀ text : Option String,
      ((stripGiven text).any fun text => decide (limit < text.length)) =
        (text.map Text.strip).any fun text => decide (limit < text.length) := by
    intro text
    cases text with
    | none => rfl
    | some given =>
      by_cases hempty : given = ""
      · subst hempty
        simp [stripGiven, Option.filter, strip_empty]
      · simp [stripGiven, Option.filter, hempty]
  rw [hone, hone, h]

theorem SameOrigin.postInit (h : SameOrigin origin origin') (hgiven : origin'.postInit = .ok given) :
    ∃ given', origin.postInit = .ok given' ∧ (given' = given ↔ EmptyFieldsAlike origin origin') := by
  unfold RequestOrigin.postInit at hgiven ⊢
  simp only [h.ingressKey, h.externalRequestId, any_stripGiven h.actorId,
    any_stripGiven h.conversationId]
  simp only at hgiven
  split at hgiven
  · cases hgiven
  rename_i hingress
  split at hgiven
  · cases hgiven
  rename_i hexternal
  split at hgiven
  · cases hgiven
  rename_i hactor
  split at hgiven
  · cases hgiven
  rename_i hconversation
  obtain rfl := Except.ok.inj hgiven
  rw [if_neg hingress, if_neg hexternal, if_neg hactor, if_neg hconversation]
  refine ⟨_, rfl, ?_⟩
  rw [RequestOrigin.mk.injEq, stripGiven_eq_iff h.actorId, stripGiven_eq_iff h.conversationId]
  exact ⟨fun hfields => ⟨hfields.2.2.1, hfields.2.2.2⟩, fun halike => ⟨rfl, rfl, halike.1, halike.2⟩⟩

end

section

variable {command command' : DispatchProjectRequest} {payload : DispatchPayload}

theorem normalize_origin (h : command.normalize = .ok payload) (origin : RequestOrigin) :
    DispatchProjectRequest.normalize { command with origin } = .ok { payload with origin } := by
  unfold DispatchProjectRequest.normalize at h ⊢
  obtain ⟨workflow, hworkflow, h⟩ := bind_ok h
  obtain ⟨skillAddons, haddons, h⟩ := bind_ok h
  obtain rfl := Except.ok.inj h
  have hsame : DispatchProjectRequest.workflow { command with origin } = .ok workflow := hworkflow
  rw [hsame]
  show (normalizeSkillAddons command.skillAddons >>= _) = _
  rw [haddons]
  rfl

theorem normalize_same_origin (h : SameRequest command command')
    (hnormalize : command'.normalize = .ok payload) (horigin : command.origin = command'.origin) :
    command.normalize = .ok payload := by
  unfold DispatchProjectRequest.normalize at hnormalize ⊢
  obtain ⟨workflow, hworkflow, hnormalize⟩ := bind_ok hnormalize
  obtain ⟨skillAddons, haddons, hnormalize⟩ := bind_ok hnormalize
  have hsame : command.workflow = .ok workflow := by
    unfold DispatchProjectRequest.workflow at hworkflow ⊢
    rw [h.definitionKey, h.definitionVersion]
    exact hworkflow
  rw [hsame, h.prompt, h.title, horigin, h.recommendationId]
  show (normalizeSkillAddons command.skillAddons >>= _) = _
  rw [h.skillAddons.normalize haddons]
  exact hnormalize

/-- The payload depends on neither, up to texts of the origin that are empty before their blanks are
taken off. -/
theorem SameRequest.payload_iff (h : SameRequest command command') (hpayload : command'.payload = .ok payload) :
    ∃ payload', command.payload = .ok payload' ∧
      (payload' = payload ↔ EmptyFieldsAlike command.origin command'.origin) := by
  unfold DispatchProjectRequest.payload at hpayload ⊢
  obtain ⟨given, hgiven, hnormalize⟩ := bind_ok hpayload
  cases hpost : command'.origin.postInit with
  | error error =>
    rw [hpost] at hgiven
    cases hgiven
  | ok given₀ =>
  obtain rfl : given₀ = given := by
    rw [hpost] at hgiven
    exact Except.ok.inj hgiven
  obtain ⟨given', hgiven', hiff⟩ := h.origin.postInit hpost
  have hfields : SameRequest { command with origin := given₀ } { command' with origin := given₀ } :=
    ⟨h.prompt, h.title, ⟨rfl, rfl, rfl, rfl⟩, h.definitionKey, h.definitionVersion,
      h.recommendationId, h.skillAddons⟩
  have hpayload' := normalize_origin (normalize_same_origin hfields hnormalize rfl) given'
  have horigin : payload.origin = given₀ := by
    unfold DispatchProjectRequest.normalize at hnormalize
    obtain ⟨_, _, hnormalize⟩ := bind_ok hnormalize
    obtain ⟨_, _, hnormalize⟩ := bind_ok hnormalize
    exact congrArg DispatchPayload.origin (Except.ok.inj hnormalize).symm
  refine ⟨{ payload with origin := given' }, ?_, ?_⟩
  · rw [hgiven']
    exact hpayload'
  · rw [← hiff, ← horigin]
    constructor
    · exact fun heq => congrArg DispatchPayload.origin heq
    · intro heq
      rw [heq]

end

end JbOrchestrator.Application
